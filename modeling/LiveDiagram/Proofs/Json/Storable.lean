import LiveDiagram.Proofs.Json.Reread
import LiveDiagram.Proofs.Json.Written

/-!
# Numbers that have numerals

A whole number of 64 bits has its digits for a numeral, and a finite double has its shortest decimal.
There are no others in what is read: a numeral that is out of range is refused, and so every object that
was read can be written, and read again.

Only whole numbers are sure to come back as they were.  For a double it is known that its numeral is
read, and as which double.

## Main results

* `writesAs_stored`: each number by its numeral, which stands for what it reads back as.
* `normal_of_parse`: an object that was read has nothing but such numbers.
-/

namespace LiveDiagram.Json

open LiveDiagram.Ascii

/-- What a number reads back as. -/
def Number.reread : Number → Number
  | .integer i => .integer i
  | .float x => .float (Decimal.reread x)

/-- A number that has a numeral: a whole number of 64 bits or a finite double. -/
inductive Number.Storable : Number → Prop where
  | integer {i : Int} (hlow : -0x8000000000000000 ≤ i) (hhigh : i < UInt64.size) :
      Storable (.integer i)
  | float {x : Float} (hx : x.isFinite = true) : Storable (.float x)

/-- A number that has a numeral which is short, or has no point. -/
inductive Number.ShortlyStorable : Number → Prop where
  | integer {i : Int} (hlow : -0x8000000000000000 ≤ i) (hhigh : i < UInt64.size) :
      ShortlyStorable (.integer i)
  | float {x : Float} (hx : x.isFinite = true) (hshort : Decimal.Short x) :
      ShortlyStorable (.float x)

/-- Every number by its numeral, which stands for what it reads back as. -/
def Style.stored : Style where
  numeral w n := ∃ k : Number, k.Storable ∧ w = k.numeral ∧ n = k.reread
  ordered := Ascending

namespace Number

variable {n : Number}

theorem ShortlyStorable.storable (h : n.ShortlyStorable) : n.Storable := by
  cases h with
  | integer hlow hhigh => exact .integer hlow hhigh
  | float hx hshort => exact .float hx

theorem ShortlyStorable.reread_eq_self (h : n.ShortlyStorable) : n.reread = n := by
  cases h with
  | integer hlow hhigh => rfl
  | float hx hshort => rw [reread, Decimal.reread_eq_self hx hshort]

theorem Storable.reread (h : n.Storable) : n.reread.Storable := by
  cases h with
  | integer hlow hhigh => exact .integer hlow hhigh
  | float hx => exact .float (Decimal.isFinite_reread hx)

/-- A number that has a numeral is read from it, as what it reads back as. -/
theorem Storable.number_numeral (h : n.Storable) {rest : Bytes} (hrest : endsNumeral rest = true) :
    number (n.numeral ++ rest) = .ok (n.reread, rest) := by
  cases h with
  | integer hlow hhigh => exact number_signedNumeral hlow hhigh hrest
  | float hx =>
      refine (number_float hx hrest).trans ?_
      rw [inexact, Decimal.toFloat?_spelled hx]
      rfl

end Number

theorem writesAs_stored : Style.stored.WritesAs Number.Storable Number.reread where
  readable := by
    rintro _ _ rest ⟨k, hk, rfl, rfl⟩ hrest
    exact hk.number_numeral hrest
  numeral n hn := ⟨n, hn, rfl, rfl⟩
  ordered _ h := h

/-- An object with each double read again. -/
def Members.reread (m : Members) : Members :=
  m.mapNumbers Number.reread

theorem Members.reread_eq_self {m : Members} {depth : Nat}
    (h : Normal Number.ShortlyStorable depth (.object m)) : m.reread = m :=
  mapNumbers_eq_self (fun _ => Number.ShortlyStorable.reread_eq_self) h

/-! ## Numbers that are read -/

section

variable {negative : Bool} {n : Scientific} {s rest : Bytes} {x : Number}

theorem storable_inexact (h : inexact negative n s = .ok (x, rest)) : x.Storable := by
  unfold inexact at h
  split at h
  · next y hy =>
      cases h
      exact .float (Decimal.isFinite_toFloat? hy)
  · cases h

theorem storable_exact (negative : Bool) {m : Nat} (hm : m < UInt64.size) :
    (exact negative m).Storable := by
  unfold exact
  split
  · split
    · exact .integer (by omega) (by omega)
    · exact .float (Decimal.isFinite_neg (Decimal.isFinite_toFloat _))
  · exact .integer (by omega) (by omega)

theorem storable_exponentValue {down : Bool} (h : exponentValue negative n down s = .ok (x, rest)) :
    x.Storable := by
  unfold exponentValue at h
  split at h
  · cases h
  · split at h
    · split at h
      · exact storable_inexact h
      · split at h
        · cases h
        · cases h
          refine .float ?_
          cases negative <;> decide +kernel
    · cases h

theorem storable_exponentPart (h : exponentPart negative n s = .ok (x, rest)) : x.Storable := by
  unfold exponentPart at h
  split at h
  · exact storable_exponentValue h
  · split at h
    · exact storable_exponentValue h
    · split at h <;> exact storable_exponentValue h

theorem storable_afterFraction (h : afterFraction negative n s = .ok (x, rest)) : x.Storable := by
  unfold afterFraction at h
  split at h
  · exact storable_inexact h
  · split at h
    · exact storable_exponentPart h
    · exact storable_inexact h

theorem storable_fractionPart (h : fractionPart negative n s = .ok (x, rest)) : x.Storable := by
  unfold fractionPart at h
  split at h
  · cases h
  · split at h
    · exact storable_afterFraction h
    · cases h

theorem storable_afterInteger {m dropped : Nat} (hm : m < UInt64.size)
    (h : afterInteger negative m dropped s = .ok (x, rest)) : x.Storable := by
  unfold afterInteger at h
  split at h
  · split at h
    · cases h
      exact storable_exact negative hm
    · exact storable_inexact h
  · split at h
    · exact storable_fractionPart h
    · split at h
      · exact storable_exponentPart h
      · split at h
        · cases h
          exact storable_exact negative hm
        · exact storable_inexact h

theorem digitValue_lt (b : UInt8) : digitValue b < UInt64.size :=
  (Nat.sub_le _ _).trans_lt (b.toNat_lt.trans (by decide))

theorem takeDigits_lt {m count : Nat} (hm : m < UInt64.size) :
    (takeDigits m count s).significand < UInt64.size := by
  fun_induction takeDigits m count s with
  | case1 m count => exact hm
  | case2 m count b rest hfits ih => exact ih hfits.2
  | case3 m count b rest hfull => exact hm

theorem storable_magnitude (h : magnitude negative s = .ok (x, rest)) : x.Storable := by
  unfold magnitude at h
  split at h
  · cases h
  · next b behind =>
      split at h
      · split at h
        · cases h
        · exact storable_afterInteger (by decide) h
      · split at h
        · exact storable_afterInteger (takeDigits_lt (digitValue_lt b)) h
        · cases h

/-- A number that is read has a numeral. -/
theorem storable_number (h : number s = .ok (x, rest)) : x.Storable := by
  unfold number at h
  split at h
  · cases h
  · split at h <;> exact storable_magnitude h

end

/-! ## Values that are read -/

section

variable {kept : Number → Prop} {bound depth : Nat} {first : Bool} {s rest : Bytes}

theorem normal_scalar {b : UInt8} {v : Value} (h : scalar b s = .ok (v, rest)) :
    Normal Number.Storable depth v := by
  have hspelling : Spelling 0 b s v rest := .of_scalar h
  cases hspelling with
  | null h => exact .null
  | true h => exact .bool true
  | false h => exact .bool false
  | number hb h => exact .number (storable_number h)
  | string h => exact .string _
  | array => cases h
  | object => cases h

/-- What is true of each element that is read is true of all of them. -/
theorem forall_mem_of_elements {α : Type} {item : Bytes → Read α} {P : α → Prop}
    (hitem : ∀ s x rest, item s = .ok (x, rest) → P x) {done all : List α} (hdone : ∀ x ∈ done, P x)
    (h : elements item bound first done s = .ok (all, rest)) : ∀ x ∈ all, P x := by
  induction bound generalizing first done s with
  | zero => cases h
  | succ bound ih =>
      unfold elements at h
      split at h
      · cases h
      · cases h
        exact fun x hx => hdone x (List.mem_reverse.mp hx)
      · split at h
        · cases h
        · next x behind hread =>
            exact ih (List.forall_mem_cons.mpr ⟨hitem _ _ _ hread, hdone⟩) h

/-- Members are gathered in ascending order, and what is true of each value is true of all of them. -/
theorem ascending_of_members {item : Bytes → Read Value} {P : Value → Prop}
    (hitem : ∀ s v rest, item s = .ok (v, rest) → P v) {m all : Members} (hm : Ascending m)
    (hvalues : ∀ x ∈ m, P x.2) (h : members (memberOf item) bound first m s = .ok (all, rest)) :
    Ascending all ∧ ∀ x ∈ all, P x.2 := by
  induction bound generalizing first m s with
  | zero => cases h
  | succ bound ih =>
      unfold members at h
      split at h
      · cases h
      · cases h
        exact ⟨hm, hvalues⟩
      · split at h
        · cases h
        · next key behind hkey =>
            split at h
            · cases h
            · next gathered after hmember =>
                obtain ⟨front, v, -, hread, rfl⟩ := memberOf_eq_ok_iff.mp hmember
                refine ih (hm.insert key v) (fun x hx => ?_) h
                rcases mem_insert hx with rfl | hx
                · exact hitem _ _ _ hread
                · exact hvalues x hx

theorem normal_value (h : value bound depth s = .ok (v, rest)) : Normal Number.Storable depth v := by
  induction depth generalizing s v rest with
  | zero =>
      unfold value at h
      split at h
      · cases h
      · split at h
        · cases h
        · split at h
          · cases h
          · exact normal_scalar h
  | succ depth ih =>
      unfold value at h
      split at h
      · cases h
      · split at h
        · obtain ⟨⟨all, behind⟩, hread, heq⟩ := map_eq_ok_iff.mp h
          cases heq
          exact .array (forall_mem_of_elements (fun _ _ _ => ih) (by simp) hread)
        · split at h
          · obtain ⟨⟨all, behind⟩, hread, heq⟩ := map_eq_ok_iff.mp h
            cases heq
            obtain ⟨hascending, hvalues⟩ :=
              ascending_of_members (fun _ _ _ => ih) List.Pairwise.nil (by simp) hread
            exact .object hascending hvalues
          · exact normal_scalar h

/-- **An object that was read can be written.** -/
theorem normal_of_parse {m : Members} (h : Members.parse s = .ok m) :
    Normal Number.Storable depthLimit (.object m) := by
  obtain ⟨rest, hread, -⟩ := document_eq_ok_iff.mp h
  unfold object at hread
  split at hread
  · cases hread
  · split at hread
    · obtain ⟨hascending, hvalues⟩ := ascending_of_members (P := Normal Number.Storable (depthLimit - 1))
        (fun _ _ _ => normal_value) List.Pairwise.nil (by simp) hread
      exact .object hascending hvalues
    · cases hread

end

end LiveDiagram.Json
