import Mathlib.Data.String.Basic
import LiveDiagram.Proofs.Json.ListForm

/-!
# How JSON values are spelled

A grammar that knows nothing of readers and writers.  Each rule relates a text to what stands behind
the part that is spelled, so that texts need not be cut and joined: `Spells style depth s v rest`
says that `s` begins with a spelling of `v`, and that `rest` stands behind it.

What is left open is which numerals stand for which numbers, and in which order the members of an
object may stand (`Style`).  A text that someone else wrote is in any order and may have a key more
than once; the last member with it counts.  A text that was written here has its keys sorted.

## Main results

* `Gathers.unique`, `Gathers.insert`: the members that stand in a text make one object, the one that
  comes of putting them into an empty one by one.
* `Ascending.gathers`: members in ascending order make the object that they are.
-/

namespace LiveDiagram.Json

open LiveDiagram.Ascii

/-- What a style of spelling allows. -/
structure Style where
  /-- This numeral stands for this number. -/
  numeral : Bytes → Number → Prop
  /-- The members of an object may stand in this order. -/
  ordered : Members → Prop

/-! ## Texts -/

/-- A string literal from behind its opening quote: the bytes of its text, and what stands behind the
closing quote. -/
inductive Unescapes : Bytes → Bytes → Bytes → Prop where
  | close {rest : Bytes} : Unescapes (quote :: rest) [] rest
  | plain {b : UInt8} {s t rest : Bytes} (hquote : b ≠ quote) (hbackslash : b ≠ backslash)
      (hspace : ¬ b < space) (h : Unescapes s t rest) : Unescapes (b :: s) (b :: t) rest
  | short {b c : UInt8} {s t rest : Bytes} (hshort : shortEscape? b = some c)
      (h : Unescapes s t rest) : Unescapes (backslash :: b :: s) (c :: t) rest
  /-- A code unit that is a code point. -/
  | code {a b c d : UInt8} {n : Nat} {s t rest : Bytes} (hunit : hexNumber? [d, c, b, a] = some n)
      (hleading : isLeading n = false) (htrailing : isTrailing n = false) (h : Unescapes s t rest) :
      Unescapes (backslash :: 'u'.toUInt8 :: a :: b :: c :: d :: s)
        (String.utf8EncodeChar (Char.ofNat n) ++ t) rest
  /-- Two code units that make one code point. -/
  | pair {a b c d a' b' c' d' : UInt8} {high low : Nat} {s t rest : Bytes}
      (hhigh : hexNumber? [d, c, b, a] = some high) (hleading : isLeading high = true)
      (hlow : hexNumber? [d', c', b', a'] = some low) (htrailing : isTrailing low = true)
      (h : Unescapes s t rest) :
      Unescapes (backslash :: 'u'.toUInt8 :: a :: b :: c :: d ::
          backslash :: 'u'.toUInt8 :: a' :: b' :: c' :: d' :: s)
        (String.utf8EncodeChar
          (Char.ofNat (0x10000 + (high - 0xD800) * 0x400 + (low - 0xDC00))) ++ t) rest

/-! ## Values without brackets -/

/-- A value without brackets. -/
inductive Scalar (style : Style) : Bytes → Value → Bytes → Prop where
  | null {rest : Bytes} : Scalar style (Utf8.encode "null" ++ rest) .null rest
  | true {rest : Bytes} : Scalar style (Utf8.encode "true" ++ rest) (.bool true) rest
  | false {rest : Bytes} : Scalar style (Utf8.encode "false" ++ rest) (.bool false) rest
  | number {w rest : Bytes} {n : Number} (h : style.numeral w n) (hrest : endsNumeral rest = true) :
      Scalar style (w ++ rest) (.number n) rest
  | string {s rest : Bytes} {t : String} (h : Unescapes s (Utf8.encode t) rest) :
      Scalar style (quote :: s) (.string t) rest

/-! ## Lists and objects -/

/-- To the next of several things, over the comma before it unless it is the first. -/
inductive Onward : Bool → Bytes → Bytes → Prop where
  | first {s : Bytes} : Onward true s (dropBlanks s)
  | next {s front : Bytes} (hcomma : dropBlanks s = comma :: front) :
      Onward false s (dropBlanks front)

/-- Things with commas between them and a bracket at the end, from behind the opening bracket or from
behind one of the things. -/
inductive Enclosed {α : Type} (close : UInt8) (spells : Bytes → α → Bytes → Prop) :
    Bool → Bytes → List α → Bytes → Prop where
  | close {first : Bool} {s rest : Bytes} (hclose : dropBlanks s = close :: rest) :
      Enclosed close spells first s [] rest
  | item {first : Bool} {s front behind rest : Bytes} {x : α} {xs : List α}
      (hfront : Onward first s front) (hx : spells front x behind)
      (hrest : Enclosed close spells false behind xs rest) :
      Enclosed close spells first s (x :: xs) rest

/-- A member of an object: its key, a colon and its value. -/
inductive Entry (spells : Bytes → Value → Bytes → Prop) : Bytes → String × Value → Bytes → Prop where
  | mk {s behind front rest : Bytes} {key : String} {v : Value}
      (hkey : Unescapes s (Utf8.encode key) behind) (hcolon : dropBlanks behind = colon :: front)
      (hvalue : spells (dropBlanks front) v rest) : Entry spells (quote :: s) (key, v) rest

/-- The keys ascend. -/
def Ascending (m : Members) : Prop :=
  m.Pairwise fun x y => x.1 < y.1

instance (m : Members) : Decidable (Ascending m) :=
  inferInstanceAs (Decidable (m.Pairwise _))

/-- These members, in the order in which they stand, make this object: its keys ascend, and each has
the value of the last member with that key. -/
structure Gathers (entries m : Members) : Prop where
  ascending : Ascending m
  lookup : ∀ key, Members.lookup key m = Members.lookup key entries.reverse

/-- A value one level above what `spells` says. -/
inductive SpellsOver (style : Style) (spells : Bytes → Value → Bytes → Prop) :
    Bytes → Value → Bytes → Prop where
  | scalar {s rest : Bytes} {v : Value} (h : Scalar style s v rest) : SpellsOver style spells s v rest
  | array {s rest : Bytes} {vs : List Value} (h : Enclosed closeBracket spells true s vs rest) :
      SpellsOver style spells (openBracket :: s) (.array vs) rest
  | object {s rest : Bytes} {entries m : Members}
      (h : Enclosed closeBrace (Entry spells) true s entries rest) (hordered : style.ordered entries)
      (hgathers : Gathers entries m) : SpellsOver style spells (openBrace :: s) (.object m) rest

/-- A value with at most `depth` brackets open at once, at the front of a text. -/
def Spells (style : Style) : Nat → Bytes → Value → Bytes → Prop
  | 0 => Scalar style
  | depth + 1 => SpellsOver style (Spells style depth)

/-- This text is this object and blanks around it. -/
def Denotes (style : Style) (s : Bytes) (m : Members) : Prop :=
  ∃ rest, Spells style depthLimit (dropBlanks s) (.object m) rest ∧ dropBlanks rest = []

/-! ## What a spelling takes -/

theorem dropBlanks_length_lt {s front : Bytes} {b : UInt8} (h : dropBlanks s = b :: front) :
    front.length < s.length := by
  have hblanks := dropBlanks_length s
  rw [h, List.length_cons] at hblanks
  omega

theorem Unescapes.length_lt {s t rest : Bytes} (h : Unescapes s t rest) :
    rest.length < s.length := by
  induction h with
  | close => exact Nat.lt_succ_self _
  | _ =>
      simp only [List.length_cons]
      omega

theorem Onward.length_le {first : Bool} {s front : Bytes} (h : Onward first s front) :
    front.length ≤ s.length := by
  cases h with
  | first => exact dropBlanks_length s
  | @next _ front hcomma =>
      have hblanks := dropBlanks_length front
      have hfront := dropBlanks_length_lt hcomma
      omega

theorem Onward.dropBlanks_eq {first : Bool} {s front : Bytes} (h : Onward first s front) :
    dropBlanks front = front := by
  have htwice : ∀ t, dropBlanks (dropBlanks t) = dropBlanks t := by
    intro t
    cases ht : dropBlanks t with
    | nil => rfl
    | cons b rest => exact dropBlanks_of_front ht
  cases h with
  | first => exact htwice _
  | next hcomma => exact htwice _

theorem Enclosed.length_lt {α : Type} {close : UInt8} {spells : Bytes → α → Bytes → Prop}
    (hspells : ∀ s x rest, spells s x rest → rest.length < s.length) {first : Bool}
    {s rest : Bytes} {xs : List α} (h : Enclosed close spells first s xs rest) :
    rest.length < s.length := by
  induction h with
  | close hclose => exact dropBlanks_length_lt hclose
  | item hfront hx hrest ih =>
      have hitem := hspells _ _ _ hx
      have hlength := hfront.length_le
      omega

theorem Entry.length_lt {spells : Bytes → Value → Bytes → Prop}
    (hspells : ∀ s x rest, spells s x rest → rest.length < s.length) {s rest : Bytes}
    {x : String × Value} (h : Entry spells s x rest) : rest.length < s.length := by
  cases h with
  | @mk s behind front rest key v hkey hcolon hvalue =>
      have hitem := hspells _ _ _ hvalue
      have hblanks := dropBlanks_length front
      have hfront := dropBlanks_length_lt hcolon
      have hs := hkey.length_lt
      rw [List.length_cons]
      omega

theorem Spells.length_lt {style : Style} (hnumeral : ∀ w n, style.numeral w n → w ≠ [])
    {depth : Nat} {s rest : Bytes} {v : Value} (h : Spells style depth s v rest) :
    rest.length < s.length := by
  have hscalar : ∀ s v rest, Scalar style s v rest → rest.length < s.length := by
    intro s v rest h
    cases h with
    | number h hrest =>
        have hw := List.length_pos_of_ne_nil (hnumeral _ _ h)
        rw [List.length_append]
        omega
    | string h => exact Nat.lt_succ_of_lt h.length_lt
    | _ =>
        rw [List.length_append]
        exact Nat.lt_add_of_pos_left (by decide)
  induction depth generalizing s v rest with
  | zero => exact hscalar s v rest h
  | succ depth ih =>
      cases h with
      | scalar h => exact hscalar s v rest h
      | array h => exact Nat.lt_succ_of_lt (h.length_lt fun s x rest => ih)
      | object h hordered hgathers =>
          exact Nat.lt_succ_of_lt (h.length_lt fun s x rest => Entry.length_lt fun s x rest => ih)

/-! ## The object that members make -/

theorem Ascending.lookup_eq_none {key : String} {m : Members} (h : ∀ x ∈ m, key < x.1) :
    Members.lookup key m = none := by
  induction m with
  | nil => rfl
  | cons x m ih =>
      have hne : key ≠ x.1 := (h x List.mem_cons_self).ne
      rw [Members.lookup, if_neg hne]
      exact ih fun y hy => h y (List.mem_cons_of_mem x hy)

/-- Two objects with the same member for every key are the same. -/
theorem Ascending.ext {a b : Members} (ha : Ascending a) (hb : Ascending b)
    (h : ∀ key, Members.lookup key a = Members.lookup key b) : a = b := by
  induction a generalizing b with
  | nil =>
      cases b with
      | nil => rfl
      | cons y b =>
          have hy := h y.1
          simp [Members.lookup] at hy
  | cons x a ih =>
      obtain ⟨hxa, harest⟩ := List.pairwise_cons.mp ha
      cases b with
      | nil =>
          have hx := h x.1
          simp [Members.lookup] at hx
      | cons y b =>
          obtain ⟨hyb, hbrest⟩ := List.pairwise_cons.mp hb
          -- The first keys agree, since a smaller one would be missing on the other side.
          have hkey : x.1 = y.1 := by
            rcases lt_trichotomy x.1 y.1 with hlt | heq | hlt
            · have hx := h x.1
              rw [Members.lookup, if_pos rfl, Members.lookup, if_neg hlt.ne,
                Ascending.lookup_eq_none fun z hz => hlt.trans (hyb z hz)] at hx
              cases hx
            · exact heq
            · have hy := h y.1
              rw [Members.lookup, if_neg hlt.ne, Members.lookup, if_pos rfl,
                Ascending.lookup_eq_none fun z hz => hlt.trans (hxa z hz)] at hy
              cases hy
          obtain ⟨k, v⟩ := x
          obtain ⟨k', w⟩ := y
          obtain rfl : k = k' := hkey
          have hvalue : v = w := by
            have hk := h k
            rw [Members.lookup, if_pos rfl, Members.lookup, if_pos rfl] at hk
            exact Option.some.inj hk
          have hrest : a = b := by
            refine ih harest hbrest fun key => ?_
            by_cases hkey : key = k
            · subst hkey
              rw [Ascending.lookup_eq_none hxa, Ascending.lookup_eq_none hyb]
            · have hk := h key
              rwa [Members.lookup, if_neg hkey, Members.lookup, if_neg hkey] at hk
          rw [hvalue, hrest]

theorem Gathers.unique {entries a b : Members} (ha : Gathers entries a) (hb : Gathers entries b) :
    a = b :=
  ha.ascending.ext hb.ascending fun key => (ha.lookup key).trans (hb.lookup key).symm

theorem mem_insert {key : String} {v : Value} {m : Members} {x : String × Value}
    (h : x ∈ Members.insert key v m) : x = (key, v) ∨ x ∈ m := by
  fun_induction Members.insert key v m with
  | case1 => exact Or.inl (List.mem_singleton.mp h)
  | case2 k w rest hlt => exact List.mem_cons.mp h
  | case3 w rest hlt =>
      exact (List.mem_cons.mp h).imp_right (List.mem_cons_of_mem _)
  | case4 k w rest hlt hne ih =>
      rcases List.mem_cons.mp h with rfl | hx
      · exact Or.inr List.mem_cons_self
      · exact (ih hx).imp_right (List.mem_cons_of_mem _)

theorem Ascending.insert {m : Members} (h : Ascending m) (key : String) (v : Value) :
    Ascending (Members.insert key v m) := by
  fun_induction Members.insert key v m with
  | case1 => exact List.pairwise_singleton _ _
  | case2 k w rest hlt =>
      refine List.pairwise_cons.mpr ⟨fun x hx => ?_, h⟩
      rcases List.mem_cons.mp hx with rfl | hx
      · exact hlt
      · exact hlt.trans ((List.pairwise_cons.mp h).1 x hx)
  | case3 w rest hlt => exact List.pairwise_cons.mpr (List.pairwise_cons.mp h)
  | case4 k w rest hlt hne ih =>
      obtain ⟨hbefore, hrest⟩ := List.pairwise_cons.mp h
      refine List.pairwise_cons.mpr ⟨fun x hx => ?_, ih hrest⟩
      rcases mem_insert hx with rfl | hx
      · exact (lt_or_gt_of_ne (Ne.symm hne)).resolve_right hlt
      · exact hbefore x hx

/-- Putting one more member into an object. -/
theorem Gathers.insert {entries m : Members} (h : Gathers entries m) (key : String) (v : Value) :
    Gathers (entries ++ [(key, v)]) (Members.insert key v m) := by
  refine ⟨h.ascending.insert key v, fun other => ?_⟩
  rw [List.reverse_append, List.reverse_singleton, List.singleton_append, Members.lookup]
  by_cases hother : other = key
  · rw [if_pos hother, hother, Members.lookup_insert_self]
  · rw [if_neg hother, Members.lookup_insert_ne hother, h.lookup]

theorem gathers_nil : Gathers [] [] :=
  ⟨List.Pairwise.nil, fun _ => rfl⟩

theorem lookup_append (key : String) (a b : Members) :
    Members.lookup key (a ++ b) = (Members.lookup key a).or (Members.lookup key b) := by
  induction a with
  | nil => rfl
  | cons x a ih =>
      rw [List.cons_append, Members.lookup, Members.lookup, ih]
      split <;> rfl

/-- An object whose members stand in ascending order is gathered as it stands. -/
theorem Ascending.gathers {m : Members} (h : Ascending m) : Gathers m m := by
  refine ⟨h, fun key => ?_⟩
  induction m with
  | nil => rfl
  | cons x m ih =>
      obtain ⟨hbefore, hrest⟩ := List.pairwise_cons.mp h
      rw [List.reverse_cons, lookup_append, ← ih hrest, Members.lookup, Members.lookup]
      by_cases hkey : key = x.1
      · rw [if_pos hkey, hkey, Ascending.lookup_eq_none hbefore, if_pos rfl]
        rfl
      · rw [if_neg hkey, if_neg hkey, Members.lookup, Option.or_none]

end LiveDiagram.Json
