import LiveDiagram.Proofs.Json.Grammar

/-!
# What is spelled is read

The reader takes every text that the grammar spells, with the value that it spells.  So a text has
one value at most, and whatever can be shown to be spelled can be read.

The bounds of the reader's loops are never met, because every rule takes at least one byte.

## Main results

* `accepts_value`: a value is read from its spelling, whatever stands behind it.
* `parse_of_denotes`: an object is read from a text that denotes it.
-/

namespace LiveDiagram.Json

open LiveDiagram.Ascii

/-! ## Texts -/

/-- The escape of a code unit that is a code point. -/
theorem scan_code {a b c d : UInt8} {n : Nat} (hunit : hexNumber? [d, c, b, a] = some n)
    (hleading : isLeading n = false) (htrailing : isTrailing n = false) (done s : Bytes) :
    scan .plain done (backslash :: 'u'.toUInt8 :: a :: b :: c :: d :: s) =
      scan .plain (reversedBytes n ++ done) s := by
  simp only [scan, show backslash ≠ quote by decide, if_false, if_true, List.length_cons,
    List.length_nil, Nat.reduceAdd, Nat.reduceLT, hunit, hleading, htrailing, Bool.false_eq_true]

/-- The escape of the second of two code units that make one code point. -/
theorem scan_secondUnit {a b c d : UInt8} {high low point : Nat}
    (hlow : hexNumber? [d, c, b, a] = some low) (htrailing : isTrailing low = true)
    (hpoint : 0x10000 + (high - 0xD800) * 0x400 + (low - 0xDC00) = point) (done s : Bytes) :
    scan (.pair high) done (backslash :: 'u'.toUInt8 :: a :: b :: c :: d :: s) =
      scan .plain (reversedBytes point ++ done) s := by
  simp only [scan, if_true, List.length_cons, List.length_nil, Nat.reduceAdd, Nat.reduceLT, if_false,
    hlow, htrailing, hpoint]

/-- The escape of the first of them. -/
theorem scan_firstUnit {a b c d : UInt8} {high : Nat} (hhigh : hexNumber? [d, c, b, a] = some high)
    (hleading : isLeading high = true) (done s : Bytes) :
    scan .plain done (backslash :: 'u'.toUInt8 :: a :: b :: c :: d :: s) =
      scan (.pair high) done s := by
  have hnot : isTrailing high = false := by
    simp only [isLeading, isTrailing, Bool.and_eq_true, decide_eq_true_eq,
      Bool.and_eq_false_iff, decide_eq_false_iff_not] at hleading ⊢
    omega
  simp only [scan, show backslash ≠ quote by decide, if_false, if_true, List.length_cons,
    List.length_nil, Nat.reduceAdd, Nat.reduceLT, hhigh, hleading, hnot, Bool.false_eq_true]

/-- What is spelled between the quotes is scanned. -/
theorem scan_of_unescapes {s t rest : Bytes} (h : Unescapes s t rest) (done : Bytes) :
    scan .plain done s = .ok (done.reverse ++ t, rest) := by
  induction h generalizing done with
  | close => simp [scan]
  | plain hquote hbackslash hspace h ih =>
      rw [scan]
      simp only [hquote, hbackslash, hspace, if_false, ih]
      simp
  | @short b c s t rest hshort h ih =>
      have hu : b ≠ 'u'.toUInt8 := by
        rintro rfl
        cases hshort
      simp only [scan, show backslash ≠ quote by decide, hu, hshort, if_false, if_true, ih]
      simp
  | code hunit hleading htrailing h ih =>
      rw [scan_code hunit hleading htrailing, ih]
      simp only [reversedBytes, List.reverse_append, List.reverse_reverse, List.append_assoc]
  | pair hhigh hleading hlow htrailing h ih =>
      rw [scan_firstUnit hhigh hleading, scan_secondUnit hlow htrailing rfl, ih]
      simp only [reversedBytes, List.reverse_append, List.reverse_reverse, List.append_assoc]

theorem literal_of_unescapes {s rest : Bytes} {t : String} (h : Unescapes s (Utf8.encode t) rest) :
    literal s = .ok (t, rest) := by
  simp only [literal, scan_of_unescapes h, List.reverse_nil, List.nil_append, Utf8.decode?_encode]

/-! ## Values without brackets -/

/-- The reader takes the numerals of this style. -/
def Style.Readable (style : Style) : Prop :=
  ∀ w n rest, style.numeral w n → endsNumeral rest = true → number (w ++ rest) = .ok (n, rest)

theorem startsNumber_of_number {b : UInt8} {s : Bytes} {r : Number × Bytes}
    (h : number (b :: s) = .ok r) : b = minus ∨ isDigit b = true := by
  by_cases hb : b = minus
  · exact Or.inl hb
  · right
    rw [number, if_neg hb, magnitude] at h
    split at h
    · next hzero =>
        rw [hzero]
        rfl
    · split at h
      · assumption
      · cases h

theorem isBlank_of_startsNumber {b : UInt8} (h : b = minus ∨ isDigit b = true) :
    isBlank b = false := by
  rcases h with rfl | hb
  · rfl
  · exact isBlank_of_isDigit hb

theorem word_append (w rest : Bytes) : word w (w ++ rest) = .ok rest := by
  induction w with
  | nil => rfl
  | cons b w ih =>
      rw [List.cons_append, word, if_pos rfl]
      exact ih

section

variable {style : Style} {s rest : Bytes} {v : Value}

/-- A value without brackets is read as it is spelled. -/
theorem scalar_of_spelled (hstyle : style.Readable) (h : Scalar style s v rest) :
    ∃ b front, s = b :: front ∧ isBlank b = false ∧ b ≠ closeBracket ∧ b ≠ openBracket ∧
      b ≠ openBrace ∧ scalar b front = .ok (v, rest) := by
  cases h with
  | null =>
      refine ⟨'n'.toUInt8, Utf8.encode "ull" ++ rest, rfl, by decide, by decide, by decide,
        by decide, ?_⟩
      rw [scalar, if_neg (by decide), if_neg (by decide), if_pos rfl, word_append]
      rfl
  | true =>
      refine ⟨'t'.toUInt8, Utf8.encode "rue" ++ rest, rfl, by decide, by decide, by decide,
        by decide, ?_⟩
      rw [scalar, if_neg (by decide), if_neg (by decide), if_neg (by decide), if_pos rfl, word_append]
      rfl
  | false =>
      refine ⟨'f'.toUInt8, Utf8.encode "alse" ++ rest, rfl, by decide, by decide, by decide,
        by decide, ?_⟩
      rw [scalar, if_neg (by decide), if_neg (by decide), if_neg (by decide), if_neg (by decide),
        if_pos rfl, word_append]
      rfl
  | @number w rest n hw hrest =>
      have hnumber := hstyle w n rest hw hrest
      cases hs : w ++ rest with
      | nil =>
          rw [hs] at hnumber
          cases hnumber
      | cons b front =>
          rw [hs] at hnumber
          have hb := startsNumber_of_number hnumber
          have hother : isBlank b = false ∧ b ≠ closeBracket ∧ b ≠ openBracket ∧ b ≠ openBrace ∧
              b ≠ quote := by
            rcases hb with rfl | hdigit
            · decide
            · refine ⟨isBlank_of_isDigit hdigit, ?_, ?_, ?_, ?_⟩ <;> rintro rfl <;> cases hdigit
          refine ⟨b, front, rfl, hother.1, hother.2.1, hother.2.2.1, hother.2.2.2.1, ?_⟩
          rw [scalar, if_neg hother.2.2.2.2, if_pos hb, hnumber]
          rfl
  | @string s rest t h =>
      refine ⟨quote, s, rfl, by decide, by decide, by decide, by decide, ?_⟩
      rw [scalar, if_pos rfl, literal_of_unescapes h]
      rfl

end

/-! ## Loops -/

theorem nextElement_eq_item_iff {first : Bool} {s front : Bytes} :
    nextElement first s = .ok (.item front) ↔
      Onward first s front ∧ ∃ b behind, front = b :: behind ∧ b ≠ closeBracket := by
  constructor
  · intro h
    unfold nextElement at h
    split at h
    · cases h
    · next b rest hdrop =>
        split at h
        · cases h
        · next hb =>
            split at h
            · next hfirst =>
                cases h
                subst hfirst
                rw [← hdrop]
                exact ⟨.first, b, rest, hdrop, hb⟩
            · next hfirst =>
                split at h
                · next hcomma =>
                    split at h
                    · cases h
                    · next c behind hbehind =>
                        split at h <;> cases h
                        next hc =>
                          rw [Bool.not_eq_true] at hfirst
                          subst hfirst hcomma
                          exact ⟨hbehind ▸ .next hdrop, c, behind, rfl, hc⟩
                · cases h
  · rintro ⟨honward, b, behind, hfront, hb⟩
    cases honward with
    | first =>
        rw [nextElement, hfront]
        simp only [if_neg hb, if_true]
    | next hcomma =>
        rw [nextElement, hcomma]
        simp only [show comma ≠ closeBracket by decide, Bool.false_eq_true, if_false, if_true, hfront,
          if_neg hb]

theorem nextKey_eq_closed_iff {first : Bool} {s rest : Bytes} :
    nextKey first s = .ok (.closed rest) ↔ dropBlanks s = closeBrace :: rest := by
  constructor
  · intro h
    unfold nextKey at h
    split at h
    · cases h
    · next b behind hdrop =>
        split at h
        · next hb =>
            cases h
            rw [hdrop, hb]
        · split at h
          · split at h <;> cases h
          · split at h
            · split at h
              · cases h
              · split at h
                · cases h
                · split at h <;> cases h
            · cases h
  · intro h
    simp [nextKey, h]

theorem nextKey_eq_item_iff {first : Bool} {s front : Bytes} :
    nextKey first s = .ok (.item front) ↔ Onward first s (quote :: front) := by
  constructor
  · intro h
    unfold nextKey at h
    split at h
    · cases h
    · next b rest hdrop =>
        split at h
        · cases h
        · split at h
          · next hfirst =>
              split at h <;> cases h
              next hb =>
                subst hfirst hb
                rw [← hdrop]
                exact .first
          · next hfirst =>
              rw [Bool.not_eq_true] at hfirst
              split at h
              · next hcomma =>
                  split at h
                  · cases h
                  · next c behind hbehind =>
                      split at h
                      · next hc =>
                          cases h
                          subst hfirst hcomma hc
                          rw [← hbehind]
                          exact .next hdrop
                      · split at h <;> cases h
              · cases h
  · intro h
    generalize hfront : quote :: front = text at h
    cases h with
    | first =>
        rw [nextKey, ← hfront]
        simp only [show quote ≠ closeBrace by decide, if_false, if_true]
    | next hcomma =>
        rw [nextKey, hcomma]
        simp only [show comma ≠ closeBrace by decide, Bool.false_eq_true, if_false, if_true, ← hfront]

theorem memberOf_eq_ok_iff {item : Bytes → Read Value} {key : String} {m all : Members}
    {s rest : Bytes} :
    memberOf item key m s = .ok (all, rest) ↔
      ∃ front v, dropBlanks s = colon :: front ∧ item front = .ok (v, rest) ∧
        Members.insert key v m = all := by
  constructor
  · intro h
    unfold memberOf colonStep at h
    split at h
    · cases h
    · next front hfront =>
        split at h
        · cases h
        · next v behind hread =>
            cases h
            split at hfront
            · cases hfront
            · next b behind hdrop =>
                split at hfront <;> cases hfront
                next hb => exact ⟨front, v, hb ▸ hdrop, hread, rfl⟩
  · rintro ⟨front, v, hdrop, hread, rfl⟩
    simp only [memberOf, colonStep, hdrop, if_true, hread]

/-- What an item of a loop needs to be for the loop to take it: behind blanks its first byte is no
closing bracket, and it is read, as long as the text is within the limit. -/
structure Accepts {α : Type} (limit : Nat) (item : Bytes → Read α)
    (spells : Bytes → α → Bytes → Prop) : Prop where
  front : ∀ s x rest, spells s x rest → ∃ b front, s = b :: front ∧ b ≠ closeBracket
  length_lt : ∀ s x rest, spells s x rest → rest.length < s.length
  read : ∀ s x rest, spells (dropBlanks s) x rest → s.length ≤ limit → item s = .ok (x, rest)

section

variable {limit bound : Nat} {first : Bool} {s rest : Bytes}

theorem elements_of_enclosed {α : Type} {item : Bytes → Read α} {spells : Bytes → α → Bytes → Prop}
    (hitem : Accepts limit item spells) {xs : List α}
    (h : Enclosed closeBracket spells first s xs rest) (hlimit : s.length ≤ limit)
    (hbound : s.length < bound) (done : List α) :
    elements item bound first done s = .ok (done.reverse ++ xs, rest) := by
  induction h generalizing bound done with
  | close hclose =>
      cases bound with
      | zero => exact absurd hbound (Nat.not_lt_zero _)
      | succ bound => simp [elements, nextElement_eq_closed_iff.mpr hclose]
  | @item first s front behind rest x xs hfront hx hrest ih =>
      have hlength := hfront.length_le
      have hshorter := hitem.length_lt _ _ _ hx
      have hnext := nextElement_eq_item_iff.mpr ⟨hfront, hitem.front _ _ _ hx⟩
      have hread := hitem.read front x behind (hfront.dropBlanks_eq.symm ▸ hx) (by omega)
      cases bound with
      | zero => exact absurd hbound (Nat.not_lt_zero _)
      | succ bound =>
          simp only [elements, hnext, hread]
          rw [ih (by omega) (by omega) (x :: done), List.reverse_cons, List.append_assoc]
          rfl

/-- The members of an object, put into it one by one. -/
def gather (m entries : Members) : Members :=
  entries.foldl (fun m x => Members.insert x.1 x.2 m) m

theorem Gathers.gather {before m : Members} (h : Gathers before m) (entries : Members) :
    Gathers (before ++ entries) (gather m entries) := by
  induction entries generalizing before m with
  | nil => rwa [List.append_nil]
  | cons x entries ih =>
      have hnext := ih (h.insert x.1 x.2)
      rwa [List.append_assoc] at hnext

/-- The object that members make comes of putting them into an empty one. -/
theorem Gathers.eq_gather {entries m : Members} (h : Gathers entries m) :
    m = Json.gather [] entries :=
  h.unique (gathers_nil.gather entries)

theorem members_of_enclosed {item : Bytes → Read Value} {spells : Bytes → Value → Bytes → Prop}
    (hitem : Accepts limit item spells) {entries : Members}
    (h : Enclosed closeBrace (Entry spells) first s entries rest) (hlimit : s.length ≤ limit)
    (hbound : s.length < bound) (m : Members) :
    members (memberOf item) bound first m s = .ok (gather m entries, rest) := by
  -- One member, from behind its opening quote.
  have hentry : ∀ {s behind : Bytes} {x : String × Value}, Entry spells s x behind →
      s.length ≤ limit → behind.length < s.length ∧ ∃ front middle, s = quote :: front ∧
        literal front = .ok (x.1, middle) ∧
          ∀ m, memberOf item x.1 m middle = .ok (Members.insert x.1 x.2 m, behind) := by
    intro s behind x hx hs
    cases hx with
    | @mk front middle value behind key v hkey hcolon hvalue =>
        have hkeyLength := hkey.length_lt
        have hcolonLength := dropBlanks_length_lt hcolon
        rw [List.length_cons] at hs ⊢
        have hblanks := dropBlanks_length value
        have hshorter := hitem.length_lt _ _ _ hvalue
        have hread := hitem.read value v behind hvalue (by omega)
        exact ⟨by omega, front, middle, rfl, literal_of_unescapes hkey, fun m =>
          memberOf_eq_ok_iff.mpr ⟨value, v, hcolon, hread, rfl⟩⟩
  induction h generalizing bound m with
  | close hclose =>
      cases bound with
      | zero => exact absurd hbound (Nat.not_lt_zero _)
      | succ bound =>
          simp only [members, nextKey_eq_closed_iff.mpr hclose]
          rfl
  | @item first s front behind rest x xs hfront hx hrest ih =>
      have hlength := hfront.length_le
      obtain ⟨hshorter, text, middle, rfl, hkey, hmember⟩ := hentry hx (by omega)
      cases bound with
      | zero => exact absurd hbound (Nat.not_lt_zero _)
      | succ bound =>
          simp only [members, nextKey_eq_item_iff.mpr hfront, hkey, hmember]
          exact ih (by omega) (by omega) (Members.insert x.1 x.2 m)

end

/-! ## Values -/

section

variable {style : Style} {depth : Nat} {s rest : Bytes} {v : Value}

theorem Style.Readable.ne_nil (hstyle : style.Readable) (w : Bytes) (n : Number)
    (h : style.numeral w n) : w ≠ [] := by
  rintro rfl
  have hread := hstyle [] n [] h rfl
  cases hread

/-- A value begins with neither a blank nor a closing bracket. -/
theorem front_of_spells (hstyle : style.Readable) (h : Spells style depth s v rest) :
    dropBlanks s = s ∧ ∃ b front, s = b :: front ∧ b ≠ closeBracket := by
  have hscalar : Scalar style s v rest →
      dropBlanks s = s ∧ ∃ b front, s = b :: front ∧ b ≠ closeBracket := fun h => by
    obtain ⟨b, front, rfl, hblank, hclose, -⟩ := scalar_of_spelled hstyle h
    exact ⟨dropBlanks_cons hblank front, b, front, rfl, hclose⟩
  cases depth with
  | zero => exact hscalar h
  | succ depth =>
      cases h with
      | scalar h => exact hscalar h
      | array h => exact ⟨dropBlanks_cons (by decide) _, _, _, rfl, by decide⟩
      | object h hordered hgathers => exact ⟨dropBlanks_cons (by decide) _, _, _, rfl, by decide⟩

theorem accepts_value (hstyle : style.Readable) (bound depth : Nat) :
    Accepts bound (value bound depth) (Spells style depth) := by
  -- A value without brackets may stand at any level.
  have hscalar : ∀ {depth s v rest}, Scalar style (dropBlanks s) v rest →
      value bound depth s = .ok (v, rest) := by
    intro depth s v rest h
    obtain ⟨b, front, hdrop, -, -, hbracket, hbrace, hread⟩ := scalar_of_spelled hstyle h
    rw [value, hdrop]
    simp only [if_neg hbracket, if_neg hbrace]
    exact hread
  induction depth with
  | zero =>
      exact ⟨fun s x rest h => (front_of_spells hstyle h).2,
        fun s x rest => Spells.length_lt hstyle.ne_nil, fun s v rest h _ => hscalar h⟩
  | succ depth hitem =>
      refine ⟨fun s x rest h => (front_of_spells hstyle h).2,
        fun s x rest => Spells.length_lt hstyle.ne_nil, ?_⟩
      intro s v rest h hlimit
      generalize hs : dropBlanks s = front at h
      cases h with
      | scalar h => exact hscalar (hs ▸ h)
      | array h =>
          have hfront := dropBlanks_length_lt hs
          rw [value_openBracket hs, elements_of_enclosed hitem h (by omega) (by omega)]
          rfl
      | object h hordered hgathers =>
          have hfront := dropBlanks_length_lt hs
          rw [value, hs]
          simp only [show openBrace ≠ openBracket by decide, if_false, if_true]
          rw [members_of_enclosed hitem h (by omega) (by omega), hgathers.eq_gather]
          rfl

/-- An object is read from a text that denotes it. -/
theorem parse_of_denotes (hstyle : style.Readable) {m : Members} (h : Denotes style s m) :
    Members.parse s = .ok m := by
  obtain ⟨rest, hspells, hblanks⟩ := h
  refine document_eq_ok_iff.mpr ⟨rest, ?_, hblanks⟩
  generalize hs : dropBlanks s = front at hspells
  cases hspells with
  | scalar h => cases h
  | object h hordered hgathers =>
      have hfront := dropBlanks_length_lt hs
      have hread := members_of_enclosed (accepts_value hstyle s.length 126) h hfront.le hfront []
      rw [object, hs, hgathers.eq_gather]
      exact hread

end

end LiveDiagram.Json
