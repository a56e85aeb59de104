import LiveDiagram.Json.Record
import LiveDiagram.Json.Writer

/-!
# Written JSON reads back

What the writer puts down is read back with whatever follows it left over.  The bytes behind are
kept general throughout, so that the parts of a text are read one after another by the same lemmas.

A text ends at its closing quote and takes any bytes behind it.  A whole number has no end of its
own: what follows must not go on with it, which a comma, a closing bracket and the end of the input
do not.

## Main results

* `number_numeral`, `number_signedNumeral`: a whole number below `2 ^ 64` reads back, and so does a
  negative one down to `-2 ^ 63`.
* `text_writeLiteral`, `unsigned_numeral`: so do the fields of a record.
* `value_writeLiteral`, `value_numeral`: and the same texts and numbers as values.
* `members_first`, `members_next`, `members_close`: an object is read member by member.
-/

namespace LiveDiagram

namespace Decimal

open LiveDiagram.Ascii

theorem le_valueFrom (n : Nat) (digits : Bytes) : n ≤ valueFrom n digits := by
  induction digits generalizing n with
  | nil => exact Nat.le_refl n
  | cons d ds ih =>
      have hstep : 10 * n + digitValue d ≤ valueFrom n (d :: ds) := ih (10 * n + digitValue d)
      omega

/-- Only the numeral of zero begins with a zero. -/
theorem head?_numeral_ne_zero {n : Nat} (hn : n ≠ 0) : (numeral n).head? ≠ some zero := by
  fun_induction numeral n with
  | case1 n hlt =>
      intro hhead
      have hdigit : digit n = zero := Option.some.inj hhead
      have hvalue := digitValue_digit hlt
      rw [hdigit] at hvalue
      exact hn hvalue.symm
  | case2 n hge ih =>
      obtain ⟨d, ds, hcons⟩ := List.exists_cons_of_ne_nil (numeral_ne_nil (n / 10))
      have hrest := ih (by omega)
      rwa [hcons] at hrest ⊢

/-- A numeral as a reader meets it: a digit, and what stands behind it. -/
theorem exists_numeral_eq_cons (n : Nat) : ∃ d ds, numeral n = d :: ds ∧ isDigit d = true := by
  obtain ⟨d, ds, hcons⟩ := List.exists_cons_of_ne_nil (numeral_ne_nil n)
  exact ⟨d, ds, hcons, isDigit_of_mem_numeral (n := n) (hcons ▸ List.mem_cons_self)⟩

end Decimal

namespace Json

open LiveDiagram.Ascii

theorem dropBlanks_cons {b : UInt8} (hb : isBlank b = false) (s : Bytes) :
    dropBlanks (b :: s) = b :: s := by
  simp [dropBlanks, hb]

theorem isBlank_of_isDigit {b : UInt8} (h : isDigit b = true) : isBlank b = false := by
  rw [← Bool.not_eq_true]
  intro hblank
  simp only [isBlank, Bool.or_eq_true, beq_iff_eq] at hblank
  rcases hblank with ((rfl | rfl) | rfl) | rfl <;> cases h

/-! ## Whole numbers -/

/-- Whether these bytes do not go on with a numeral before them. -/
def endsNumeral : Bytes → Bool
  | [] => true
  | b :: _ => !(isDigit b || b == point || isExponentMark b)

theorem digitAhead_of_endsNumeral {rest : Bytes} (h : endsNumeral rest = true) :
    digitAhead rest = false := by
  cases rest with
  | nil => rfl
  | cons b rest =>
      simp only [endsNumeral, Bool.not_eq_true', Bool.or_eq_false_iff] at h
      exact h.1.1

theorem pastDigits_of_digitAhead {s : Bytes} (h : digitAhead s = false) : pastDigits s = s := by
  cases s with
  | nil => rfl
  | cons b s =>
      have hb : isDigit b = false := h
      simp [pastDigits, hb]

/-- Digits are all taken as long as their value fits. -/
theorem takeDigits_append (m count : Nat) {digits rest : Bytes}
    (hdigits : ∀ d ∈ digits, isDigit d = true)
    (hfits : Decimal.valueFrom m digits < UInt64.size) (hrest : digitAhead rest = false) :
    takeDigits m count (digits ++ rest) =
      ⟨Decimal.valueFrom m digits, count + digits.length, rest⟩ := by
  induction digits generalizing m count with
  | nil =>
      cases rest with
      | nil => rfl
      | cons b rest =>
          have hb : isDigit b = false := hrest
          simp [takeDigits, hb, Decimal.valueFrom]
  | cons d ds ih =>
      have hd : isDigit d = true := hdigits d List.mem_cons_self
      have hnext : 10 * m + digitValue d < UInt64.size :=
        Nat.lt_of_le_of_lt (Decimal.le_valueFrom (10 * m + digitValue d) ds) hfits
      rw [List.cons_append, takeDigits, if_pos ⟨hd, hnext⟩,
        ih _ _ (fun b hb => hdigits b (List.mem_cons_of_mem d hb)) hfits]
      simp only [Decimal.valueFrom, List.foldl_cons, List.length_cons, Taken.mk.injEq, true_and,
        and_true]
      omega

theorem afterInteger_of_endsNumeral (negative : Bool) (n : Nat) {rest : Bytes}
    (hrest : endsNumeral rest = true) :
    afterInteger negative n 0 rest = .ok (exact negative n, rest) := by
  cases rest with
  | nil => rfl
  | cons b rest =>
      simp only [endsNumeral, Bool.not_eq_true', Bool.or_eq_false_iff, beq_eq_false_iff_ne] at hrest
      obtain ⟨⟨-, hpoint⟩, hmark⟩ := hrest
      rw [afterInteger, if_neg hpoint, hmark]
      rfl

/-- Digits that a numeral may begin with: there are some, and a zero stands alone. -/
structure Leads (w : Bytes) : Prop where
  digits : ∀ d ∈ w, isDigit d = true
  ne_nil : w ≠ []
  alone : w.head? = some zero → w = [zero]

theorem magnitude_digits (negative : Bool) {w rest : Bytes} (hw : Leads w)
    (hfits : Decimal.value w < UInt64.size) (hrest : digitAhead rest = false) :
    magnitude negative (w ++ rest) = afterInteger negative (Decimal.value w) 0 rest := by
  obtain ⟨d, ds, rfl⟩ := List.exists_cons_of_ne_nil hw.ne_nil
  have hd : isDigit d = true := hw.digits d List.mem_cons_self
  have hds : ∀ b ∈ ds, isDigit b = true := fun b hb => hw.digits b (List.mem_cons_of_mem d hb)
  have hvalue : Decimal.value (d :: ds) = Decimal.valueFrom (digitValue d) ds := by
    simp [Decimal.value, Decimal.valueFrom]
  rw [List.cons_append, magnitude]
  by_cases hzero : d = zero
  · subst hzero
    obtain rfl : ds = [] := (List.cons.inj (hw.alone rfl)).2
    rw [if_pos rfl, List.nil_append, hrest]
    rfl
  · have htaken := takeDigits_append (digitValue d) 1 hds (hvalue ▸ hfits) hrest
    have hdropped : (rest.takeWhile isDigit).length = 0 := by
      cases rest with
      | nil => rfl
      | cons b rest =>
          have hb : isDigit b = false := hrest
          simp [hb]
    rw [if_neg hzero, if_pos hd, htaken, ← hvalue]
    show afterInteger negative _ (rest.takeWhile isDigit).length (pastDigits rest) = _
    rw [hdropped, pastDigits_of_digitAhead hrest]

theorem leads_numeral (n : Nat) : Leads (Decimal.numeral n) where
  digits _ := Decimal.isDigit_of_mem_numeral
  ne_nil := Decimal.numeral_ne_nil n
  alone hhead := by
    obtain rfl : n = 0 := Decidable.byContradiction fun hn => Decimal.head?_numeral_ne_zero hn hhead
    rw [Decimal.numeral]
    rfl

/-- The digits of a whole number are read behind either sign. -/
theorem magnitude_numeral (negative : Bool) {n : Nat} (hn : n < UInt64.size) {rest : Bytes}
    (hrest : endsNumeral rest = true) :
    magnitude negative (Decimal.numeral n ++ rest) = .ok (exact negative n, rest) := by
  have hvalue : Decimal.value (Decimal.numeral n) = n := Decimal.value_numeral n
  rw [magnitude_digits negative (leads_numeral n) (hvalue.symm ▸ hn) (digitAhead_of_endsNumeral hrest),
    hvalue]
  exact afterInteger_of_endsNumeral negative n hrest

/-- A written whole number reads back. -/
theorem number_numeral {n : Nat} (hn : n < UInt64.size) {rest : Bytes}
    (hrest : endsNumeral rest = true) :
    number (Decimal.numeral n ++ rest) = .ok (.integer n, rest) := by
  obtain ⟨d, ds, hcons, hd⟩ := Decimal.exists_numeral_eq_cons n
  have hread := magnitude_numeral false hn hrest
  have hsign : d ≠ minus := by
    rintro rfl
    cases hd
  rw [hcons, List.cons_append] at hread ⊢
  rw [number, if_neg hsign, hread]
  rfl

/-- A written integer reads back. -/
theorem number_signedNumeral {i : Int} (hlow : -0x8000000000000000 ≤ i) (hhigh : i < UInt64.size)
    {rest : Bytes} (hrest : endsNumeral rest = true) :
    number (Decimal.signedNumeral i ++ rest) = .ok (.integer i, rest) := by
  cases i with
  | ofNat n => exact number_numeral (Int.ofNat_lt.mp hhigh) hrest
  | negSucc n =>
      have hn : n + 1 ≤ 0x8000000000000000 := by omega
      rw [Decimal.signedNumeral, List.cons_append, number, if_pos rfl,
        magnitude_numeral true (Nat.lt_of_le_of_lt hn (by decide)) hrest, exact, if_pos rfl,
        if_pos ⟨Nat.succ_pos n, hn⟩]
      rfl

/-! ## Fields -/

theorem writeLiteral_append (s : String) (rest : Bytes) :
    writeLiteral s ++ rest = quote :: (escape (Utf8.encode s) ++ quote :: rest) := by
  simp [writeLiteral]

theorem text_writeLiteral (s : String) (rest : Bytes) :
    text (writeLiteral s ++ rest) = .ok (s, rest) := by
  rw [writeLiteral_append, text, dropBlanks_cons (by decide)]
  exact literal_write s rest

theorem unsigned_numeral {n : Nat} (hn : n < UInt64.size) {rest : Bytes}
    (hrest : endsNumeral rest = true) :
    unsigned (Decimal.numeral n ++ rest) = .ok (n.toUInt64, rest) := by
  obtain ⟨d, ds, hcons, hd⟩ := Decimal.exists_numeral_eq_cons n
  have hnumber := number_numeral hn hrest
  rw [hcons, List.cons_append] at hnumber ⊢
  simp only [unsigned, dropBlanks_cons (isBlank_of_isDigit hd), hd, or_true, if_true, hnumber]

theorem FieldType.read_text (s : String) (rest : Bytes) :
    FieldType.text.read (writeLiteral s ++ rest) = .ok (.text s, rest) := by
  rw [FieldType.read, text_writeLiteral]
  rfl

theorem FieldType.read_optionalText (s : String) (rest : Bytes) :
    FieldType.optionalText.read (writeLiteral s ++ rest) = .ok (.text s, rest) := by
  have htext := text_writeLiteral s rest
  rw [writeLiteral_append] at htext ⊢
  rw [FieldType.read, Json.optionalText, dropBlanks_cons (by decide)]
  simp only [show quote ≠ 'n'.toUInt8 by decide, if_false, htext]
  rfl

theorem FieldType.read_word (n : UInt64) {rest : Bytes} (hrest : endsNumeral rest = true) :
    FieldType.word.read (Decimal.numeral n.toNat ++ rest) = .ok (.word n, rest) := by
  rw [FieldType.read, unsigned_numeral n.toNat_lt hrest, Nat.toUInt64, UInt64.ofNat_toNat]
  rfl

/-! ## Values -/

theorem value_writeLiteral (bound depth : Nat) (s : String) (rest : Bytes) :
    value bound depth (writeLiteral s ++ rest) = .ok (.string s, rest) := by
  rw [writeLiteral_append, value, dropBlanks_cons (by decide)]
  show scalar quote _ = _
  rw [scalar, if_pos rfl, literal_write]
  rfl

theorem value_numeral {n : Nat} (hn : n < UInt64.size) (bound depth : Nat) {rest : Bytes}
    (hrest : endsNumeral rest = true) :
    value bound depth (Decimal.numeral n ++ rest) = .ok (.number (.integer n), rest) := by
  obtain ⟨d, ds, hcons, hd⟩ := Decimal.exists_numeral_eq_cons n
  have hnumber := number_numeral hn hrest
  rw [hcons, List.cons_append] at hnumber ⊢
  have hopening : d ≠ openBracket ∧ d ≠ openBrace ∧ d ≠ quote := by
    refine ⟨?_, ?_, ?_⟩ <;> rintro rfl <;> cases hd
  rw [value, dropBlanks_cons (isBlank_of_isDigit hd)]
  simp only [hopening, if_false, scalar, hd, or_true, if_true, hnumber]
  rfl

theorem value_openBrace (bound depth : Nat) (s : Bytes) :
    value bound (depth + 1) (openBrace :: s) =
      (members (memberOf (value bound depth)) bound true [] s).map fun r => (.object r.1, r.2) := by
  rw [value, dropBlanks_cons (by decide)]
  rfl

/-! ## Members -/

section
variable {σ : Type} (member : String → σ → Bytes → Read σ)

/-- The member behind the opening brace. -/
theorem members_first (bound : Nat) (gathered : σ) (key : String) (rest : Bytes) :
    members member (bound + 1) true gathered (writeLiteral key ++ rest) =
      (member key gathered rest).bind fun r => members member bound false r.1 r.2 := by
  rw [writeLiteral_append, members, nextKey, dropBlanks_cons (by decide)]
  simp only [show quote ≠ closeBrace by decide, if_false, if_true, literal_write]
  cases member key gathered rest <;> rfl

/-- A member behind a comma. -/
theorem members_next (bound : Nat) (gathered : σ) (key : String) (rest : Bytes) :
    members member (bound + 1) false gathered (comma :: (writeLiteral key ++ rest)) =
      (member key gathered rest).bind fun r => members member bound false r.1 r.2 := by
  rw [writeLiteral_append, members, nextKey, dropBlanks_cons (by decide)]
  simp only [show comma ≠ closeBrace by decide, if_false, if_true, Bool.false_eq_true,
    dropBlanks_cons (show isBlank quote = false by decide), literal_write]
  cases member key gathered rest <;> rfl

/-- The closing brace. -/
theorem members_close (bound : Nat) (first : Bool) (gathered : σ) (rest : Bytes) :
    members member (bound + 1) first gathered (closeBrace :: rest) = .ok (gathered, rest) := by
  rw [members, nextKey, dropBlanks_cons (by decide)]
  simp

end

theorem colonStep_colon (rest : Bytes) : colonStep (colon :: rest) = .ok rest := by
  rw [colonStep, dropBlanks_cons (by decide)]
  simp

/-- A member of an object of values. -/
theorem memberOf_colon {item : Bytes → Read Value} (key : String) (gathered : Members)
    {s rest : Bytes} {v : Value} (hitem : item s = .ok (v, rest)) :
    memberOf item key gathered (colon :: s) = .ok (Members.insert key v gathered, rest) := by
  simp only [memberOf, colonStep_colon, hitem]

/-- A field of a record that has not been read before. -/
theorem Shape.member_colon {shape : Shape} {key : String} {type : FieldType} {done : Fields}
    {s rest : Bytes} {v : FieldValue} (hfield : shape.fields.lookup key = some type)
    (hnew : done.get? key = none) (hread : type.read s = .ok (v, rest)) :
    shape.member key done (colon :: s) = .ok ((key, v) :: done, rest) := by
  simp only [Shape.member, hfield, hnew, colonStep_colon, hread]
  rfl

/-! ## Whole texts -/

theorem document_eq_ok {α : Type} {read : Bytes → Read α} {input : Bytes} {x : α}
    (h : read input = .ok (x, [])) : document read input = .ok x := by
  simp [document, h, dropBlanks]

end Json

end LiveDiagram
