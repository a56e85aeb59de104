import LiveDiagram.Proofs.Json.ReadBack

/-!
# Records written as lists

A record may be written as an object or as a list of its fields' values.  Nobody who writes records
uses the list form, so it is easily forgotten that readers take it, and that a shape that requires
none of its fields takes the empty list too.

What a reader of records does with a text that does not begin as an object does is a matter of
values alone: it takes those lists that hold, in the order of declaration, values of the fields'
types, and refuses everything else, whether it is a value or not.

## Main results

* `exists_spelling`, `exists_elements`: how a text that is read as a value begins.
* `FieldType.read_eq_ok_iff`: which values a field takes.
* `Shape.parse_eq_ok_iff`: which texts that do not begin as objects are records.
-/

namespace LiveDiagram.Json

open LiveDiagram.Ascii

/-- What stands behind blanks does not begin with one. -/
theorem dropBlanks_of_front {s front : Bytes} {b : UInt8} (h : dropBlanks s = b :: front) :
    dropBlanks (b :: front) = b :: front := by
  have hb := List.head?_dropWhile_not isBlank s
  rw [show s.dropWhile isBlank = b :: front from h] at hb
  exact dropBlanks_cons hb front

theorem document_eq_ok_iff {α : Type} {read : Bytes → Read α} {input : Bytes} {x : α} :
    document read input = .ok x ↔
      ∃ rest, read input = .ok (x, rest) ∧ dropBlanks rest = [] := by
  constructor
  · intro h
    unfold document at h
    split at h
    · cases h
    · next y rest hread =>
        split at h
        · next hblanks =>
            cases h
            exact ⟨rest, hread, hblanks⟩
        · cases h
  · rintro ⟨rest, hread, hblanks⟩
    simp [document, hread, hblanks]

/-! ## How values are spelled -/

/-- A list whose opening bracket, or some of whose elements, have been read, up to behind its
closing bracket. -/
inductive Elements {α : Type} (item : Bytes → Read α) :
    Bool → Bytes → List α → Bytes → Prop where
  | closed {first : Bool} {s rest : Bytes} (h : nextElement first s = .ok (.closed rest)) :
      Elements item first s [] rest
  | item {first : Bool} {s front behind rest : Bytes} {x : α} {xs : List α}
      (hnext : nextElement first s = .ok (.item front)) (hitem : item front = .ok (x, behind))
      (hrest : Elements item false behind xs rest) : Elements item first s (x :: xs) rest

theorem exists_elements {α : Type} {item : Bytes → Read α} {bound : Nat} {first : Bool}
    {done all : List α} {s rest : Bytes}
    (h : elements item bound first done s = .ok (all, rest)) :
    ∃ xs, all = done.reverse ++ xs ∧ Elements item first s xs rest := by
  induction bound generalizing first done s with
  | zero => cases h
  | succ bound ih =>
      unfold elements at h
      split at h
      · cases h
      · next behind hnext =>
          cases h
          exact ⟨[], (List.append_nil _).symm, .closed hnext⟩
      · next front hnext =>
          split at h
          · cases h
          · next x behind hitem =>
              obtain ⟨xs, hall, hrest⟩ := ih h
              exact ⟨x :: xs, by simpa using hall, .item hnext hitem hrest⟩

/-- How a value is spelled, by its first byte and what stands behind that. -/
inductive Spelling (bound : Nat) : UInt8 → Bytes → Value → Bytes → Prop where
  | null {s rest : Bytes} (h : word (Utf8.encode "ull") s = .ok rest) :
      Spelling bound 'n'.toUInt8 s .null rest
  | true {s rest : Bytes} (h : word (Utf8.encode "rue") s = .ok rest) :
      Spelling bound 't'.toUInt8 s (.bool true) rest
  | false {s rest : Bytes} (h : word (Utf8.encode "alse") s = .ok rest) :
      Spelling bound 'f'.toUInt8 s (.bool false) rest
  | number {b : UInt8} {s rest : Bytes} {n : Number} (hb : b = minus ∨ isDigit b)
      (h : Json.number (b :: s) = .ok (n, rest)) : Spelling bound b s (.number n) rest
  | string {s rest : Bytes} {t : String} (h : literal s = .ok (t, rest)) :
      Spelling bound quote s (.string t) rest
  | array {depth : Nat} {s rest : Bytes} {vs : List Value}
      (h : Elements (value bound depth) true s vs rest) :
      Spelling bound openBracket s (.array vs) rest
  | object {s rest : Bytes} {ms : Members} : Spelling bound openBrace s (.object ms) rest

theorem Spelling.of_scalar {bound : Nat} {b : UInt8} {s rest : Bytes} {v : Value}
    (h : scalar b s = .ok (v, rest)) : Spelling bound b s v rest := by
  unfold scalar at h
  split at h
  · next hb =>
      obtain ⟨r, hr, heq⟩ := map_eq_ok_iff.mp h
      cases heq
      exact hb ▸ .string hr
  split at h
  · next hb =>
      obtain ⟨r, hr, heq⟩ := map_eq_ok_iff.mp h
      cases heq
      exact .number hb hr
  split at h
  · next hb =>
      obtain ⟨r, hr, heq⟩ := map_eq_ok_iff.mp h
      cases heq
      exact hb ▸ .null hr
  split at h
  · next hb =>
      obtain ⟨r, hr, heq⟩ := map_eq_ok_iff.mp h
      cases heq
      exact hb ▸ .true hr
  split at h
  · next hb =>
      obtain ⟨r, hr, heq⟩ := map_eq_ok_iff.mp h
      cases heq
      exact hb ▸ .false hr
  · cases h

theorem exists_spelling {bound depth : Nat} {s rest : Bytes} {v : Value}
    (h : value bound depth s = .ok (v, rest)) :
    ∃ b front, dropBlanks s = b :: front ∧ Spelling bound b front v rest := by
  unfold value at h
  split at h
  · cases h
  · next b front hfront =>
      refine ⟨b, front, hfront, ?_⟩
      split at h
      · next hb =>
          split at h
          · cases h
          · obtain ⟨r, hr, heq⟩ := map_eq_ok_iff.mp h
            cases heq
            obtain ⟨xs, hall, helements⟩ := exists_elements hr
            exact hb ▸ hall ▸ .array helements
      split at h
      · next hb =>
          split at h
          · cases h
          · obtain ⟨r, hr, heq⟩ := map_eq_ok_iff.mp h
            cases heq
            exact hb ▸ .object
      · exact .of_scalar h

/-! ## What a field takes -/

/-- The value of a field, if it is of the field's type. -/
def FieldType.ofValue? : FieldType → Value → Option FieldValue
  | .text, .string t => some (.text t)
  | .optionalText, .null => some .nothing
  | .optionalText, .string t => some (.text t)
  | .word, .number (.integer (.ofNat n)) => some (.word n.toUInt64)
  | _, _ => none

theorem FieldType.ofValue?_text {v : Value} {x : FieldValue} :
    FieldType.text.ofValue? v = some x ↔ ∃ t, v = .string t ∧ .text t = x := by
  cases v <;> simp [ofValue?]

theorem FieldType.exists_word_of_ofValue? {v : Value} {x : FieldValue}
    (h : FieldType.word.ofValue? v = some x) : ∃ n, x = .word n := by
  cases v with
  | number n =>
      cases n with
      | integer i =>
          cases i with
          | ofNat n =>
              cases h
              exact ⟨_, rfl⟩
          | negSucc n => cases h
      | float y => cases h
  | _ => cases h

/-- No other value begins like a number. -/
theorem ne_of_startsNumber {b : UInt8} (hb : b = minus ∨ isDigit b = true) :
    b ≠ quote ∧ b ≠ 'n'.toUInt8 ∧ b ≠ openBracket ∧ b ≠ openBrace := by
  rcases hb with rfl | hdigit
  · decide
  · refine ⟨?_, ?_, ?_, ?_⟩ <;> rintro rfl <;> cases hdigit

section Fields

variable {bound depth : Nat} {s rest : Bytes} {v : Value} (h : value bound depth s = .ok (v, rest))
include h

theorem text_eq_ok_iff {t : String} {r : Bytes} :
    text s = .ok (t, r) ↔ v = .string t ∧ rest = r := by
  obtain ⟨b, front, hfront, hspelling⟩ := exists_spelling h
  have hread : text s =
      if b = quote then literal front else .error (mismatch "a string" (b :: front)) := by
    simp only [text, hfront]
  rw [hread]
  cases hspelling with
  | string hliteral => simp [hliteral]
  | number hb hnumber =>
      rw [if_neg (ne_of_startsNumber hb).1]
      simp
  | _ =>
      rw [if_neg (by decide)]
      simp

theorem optionalText_eq_ok_iff {x : FieldValue} {r : Bytes} :
    optionalText s = .ok (x, r) ↔ FieldType.optionalText.ofValue? v = some x ∧ rest = r := by
  obtain ⟨b, front, hfront, hspelling⟩ := exists_spelling h
  have hdrop := dropBlanks_of_front hfront
  have hread : optionalText s =
      if b = 'n'.toUInt8 then (word (Utf8.encode "ull") front).map fun r => (.nothing, r)
      else (if b = quote then literal front else .error (mismatch "a string" (b :: front))).map
        fun r => (.text r.1, r.2) := by
    simp only [optionalText, hfront, text, hdrop]
  rw [hread]
  cases hspelling with
  | null hword => simp [hword, FieldType.ofValue?, Except.map]
  | string hliteral =>
      rw [if_neg (by decide), if_pos rfl]
      simp [hliteral, FieldType.ofValue?, Except.map]
  | number hb hnumber =>
      rw [if_neg (ne_of_startsNumber hb).2.1, if_neg (ne_of_startsNumber hb).1]
      simp [FieldType.ofValue?, Except.map]
  | _ =>
      rw [if_neg (by decide), if_neg (by decide)]
      simp [FieldType.ofValue?, Except.map]

theorem unsigned_eq_ok_iff {n : UInt64} {r : Bytes} :
    unsigned s = .ok (n, r) ↔ FieldType.word.ofValue? v = some (.word n) ∧ rest = r := by
  obtain ⟨b, front, hfront, hspelling⟩ := exists_spelling h
  cases hspelling with
  | number hb hnumber =>
      simp only [unsigned, hfront, if_pos hb, hnumber]
      cases hcase : (‹Number› : Number) with
      | integer i => cases i <;> simp [FieldType.ofValue?]
      | float x => simp [FieldType.ofValue?]
  | _ =>
      simp only [unsigned, hfront]
      rw [if_neg (by decide)]
      simp [FieldType.ofValue?]

/-- A field takes the values of its type and no others. -/
theorem FieldType.read_eq_ok_iff (type : FieldType) {x : FieldValue} {r : Bytes} :
    type.read s = .ok (x, r) ↔ type.ofValue? v = some x ∧ rest = r := by
  cases type with
  | text =>
      simp only [FieldType.read, map_eq_ok_iff, Prod.exists, Prod.mk.injEq, text_eq_ok_iff h,
        ofValue?_text]
      constructor
      · rintro ⟨t, r', ⟨ht, rfl⟩, rfl, rfl⟩
        exact ⟨⟨t, ht, rfl⟩, rfl⟩
      · rintro ⟨⟨t, ht, rfl⟩, rfl⟩
        exact ⟨t, rest, ⟨ht, rfl⟩, rfl, rfl⟩
  | optionalText => exact optionalText_eq_ok_iff h
  | word =>
      simp only [FieldType.read, map_eq_ok_iff, Prod.exists, Prod.mk.injEq, unsigned_eq_ok_iff h]
      constructor
      · rintro ⟨n, r', ⟨hn, rfl⟩, rfl, rfl⟩
        exact ⟨hn, rfl⟩
      · rintro ⟨hx, rfl⟩
        obtain ⟨n, rfl⟩ := exists_word_of_ofValue? hx
        exact ⟨n, rest, ⟨hx, rfl⟩, rfl, rfl⟩

end Fields

/-! ## What a field takes is a value -/

/-- A value without brackets comes next, and `rest` stands behind it. -/
def ScalarAhead (s rest : Bytes) : Prop :=
  ∃ b front v, dropBlanks s = b :: front ∧ b ≠ openBracket ∧ b ≠ openBrace ∧
    scalar b front = .ok (v, rest)

theorem scalarAhead_of_text {s r : Bytes} {t : String} (h : text s = .ok (t, r)) :
    ScalarAhead s r := by
  unfold text at h
  split at h
  · cases h
  · next b front hfront =>
      split at h
      · next hb =>
          subst hb
          refine ⟨quote, front, .string t, hfront, by decide, by decide, ?_⟩
          rw [scalar, if_pos rfl, h]
          rfl
      · cases h

theorem scalarAhead_of_optionalText {s r : Bytes} {x : FieldValue}
    (h : optionalText s = .ok (x, r)) : ScalarAhead s r := by
  unfold optionalText at h
  split at h
  · cases h
  · next b front hfront =>
      split at h
      · next hb =>
          subst hb
          obtain ⟨r', hword, heq⟩ := map_eq_ok_iff.mp h
          cases heq
          refine ⟨_, front, .null, hfront, by decide, by decide, ?_⟩
          rw [scalar, if_neg (by decide), if_neg (by decide), if_pos rfl, hword]
          rfl
      · obtain ⟨⟨t, r'⟩, htext, heq⟩ := map_eq_ok_iff.mp h
        cases heq
        obtain ⟨c, behind, v, hbehind, hv⟩ := scalarAhead_of_text htext
        rw [dropBlanks_of_front hfront] at hbehind
        exact ⟨c, behind, v, hfront.trans hbehind, hv⟩

theorem scalarAhead_of_unsigned {s r : Bytes} {n : UInt64} (h : unsigned s = .ok (n, r)) :
    ScalarAhead s r := by
  unfold unsigned at h
  split at h
  · cases h
  · next b front hfront =>
      split at h
      · next hb =>
          obtain ⟨hquote, -, hbracket, hbrace⟩ := ne_of_startsNumber hb
          split at h <;> cases h
          next n hnumber =>
            refine ⟨b, front, .number (.integer n), hfront, hbracket, hbrace, ?_⟩
            rw [scalar, if_neg hquote, if_pos hb, hnumber]
            rfl
      · cases h

/-- What a field takes is a value without brackets. -/
theorem FieldType.scalarAhead (type : FieldType) {s r : Bytes} {x : FieldValue}
    (h : type.read s = .ok (x, r)) : ScalarAhead s r := by
  cases type with
  | text =>
      obtain ⟨y, htext, heq⟩ := map_eq_ok_iff.mp h
      cases heq
      exact scalarAhead_of_text htext
  | optionalText => exact scalarAhead_of_optionalText h
  | word =>
      obtain ⟨y, hunsigned, heq⟩ := map_eq_ok_iff.mp h
      cases heq
      exact scalarAhead_of_unsigned hunsigned

/-- Whatever a field takes may stand in a list of values. -/
theorem FieldType.exists_value (type : FieldType) (bound depth : Nat) {s r : Bytes} {x : FieldValue}
    (h : type.read s = .ok (x, r)) :
    ∃ v, value bound depth s = .ok (v, r) ∧ r.length < s.length := by
  obtain ⟨b, front, v, hfront, hbracket, hbrace, hscalar⟩ := type.scalarAhead h
  refine ⟨v, ?_, ?_⟩
  · rw [value, hfront]
    simp only [if_neg hbracket, if_neg hbrace]
    exact hscalar
  · have hrest := scalar_length hscalar
    have hblanks := dropBlanks_length s
    rw [hfront, List.length_cons] at hblanks
    omega

/-! ## What a record takes -/

/-- The fields that are filled by the values of a list. -/
def Shape.ofList? (shape : Shape) (done : Fields) :
    List (String × FieldType) → List Value → Option Fields
  | [], [] => some done
  | [], _ :: _ => none
  | _ :: _, [] => if shape.required then none else some done
  | (key, type) :: fields, v :: vs =>
    match type.ofValue? v with
    | none => none
    | some x => shape.ofList? ((key, x) :: done) fields vs

theorem nextElement_eq_closed_iff {first : Bool} {s rest : Bytes} :
    nextElement first s = .ok (.closed rest) ↔ dropBlanks s = closeBracket :: rest := by
  constructor
  · intro h
    unfold nextElement at h
    split at h
    · cases h
    · next b behind hfront =>
        split at h
        · next hb =>
            cases h
            rw [hfront, hb]
        · split at h
          · cases h
          · split at h
            · split at h
              · cases h
              · split at h <;> cases h
            · cases h
  · intro h
    simp [nextElement, h]

theorem endList_eq_ok_iff {s rest : Bytes} :
    endList s = .ok rest ↔ dropBlanks s = closeBracket :: rest := by
  constructor
  · intro h
    unfold endList at h
    split at h
    · cases h
    · next b behind hfront =>
        split at h
        · next hb =>
            cases h
            rw [hfront, hb]
        · split at h
          · split at h <;> cases h
          · cases h
  · intro h
    simp [endList, h]

/-- The fields are read from a list as they are filled by its values. -/
theorem Shape.readList_eq_ok_iff (shape : Shape) {bound depth : Nat} {first : Bool} {s rest : Bytes}
    {vs : List Value} (h : Elements (value bound depth) first s vs rest)
    {fields : List (String × FieldType)} {done fs : Fields} {r : Bytes} :
    shape.readList first done fields s = .ok (fs, r) ↔
      shape.ofList? done fields vs = some fs ∧ rest = r := by
  induction h generalizing fields done with
  | closed hnext =>
      cases fields with
      | nil =>
          have hend := endList_eq_ok_iff.mpr (nextElement_eq_closed_iff.mp hnext)
          simp [readList, ofList?, hend, Except.map]
      | cons field fields =>
          simp only [readList, hnext, ofList?]
          split <;> simp
  | @item first s front behind rest v vs hnext hitem hrest ih =>
      cases fields with
      | nil =>
          -- A list that goes on does not end here.
          have hend : ∀ r', endList s ≠ .ok r' := by
            intro r' hclosed
            rw [nextElement_eq_closed_iff.mpr (endList_eq_ok_iff.mp hclosed)] at hnext
            cases hnext
          simp [readList, ofList?, map_eq_ok_iff, hend]
      | cons field fields =>
          obtain ⟨key, type⟩ := field
          have hfield := fun x r' => FieldType.read_eq_ok_iff hitem type (x := x) (r := r')
          simp only [readList, hnext, ofList?]
          cases hread : type.read front with
          | error f =>
              cases hvalue : type.ofValue? v with
              | none => simp
              | some x =>
                  rw [(hfield x behind).mpr ⟨hvalue, rfl⟩] at hread
                  cases hread
          | ok y =>
              obtain ⟨x, r'⟩ := y
              obtain ⟨hvalue, rfl⟩ := (hfield x r').mp hread
              simp only [hvalue]
              exact ih

theorem Shape.read_of_no_bracket (shape : Shape) {bound : Nat} {s front : Bytes} {b : UInt8}
    (hfront : dropBlanks s = b :: front) (hb : b ≠ openBracket ∧ b ≠ openBrace) :
    shape.read bound s = .error (mismatch shape.name (b :: front)) := by
  simp only [Shape.read, hfront, if_neg hb.1, if_neg hb.2]

/-- Of the texts that are values other than objects, a record takes those lists that fill its
fields. -/
theorem Shape.parse_eq_ok_iff_of_value (shape : Shape) {input : Bytes} {v : Value}
    (h : Value.parse input = .ok v) (hobject : ∀ ms, v ≠ .object ms) {fs : Fields} :
    shape.parse input = .ok fs ↔
      ∃ vs, v = .array vs ∧ shape.ofList? [] shape.fields vs = some fs := by
  obtain ⟨rest, hvalue, hblanks⟩ := document_eq_ok_iff.mp h
  obtain ⟨b, front, hfront, hspelling⟩ := exists_spelling hvalue
  rw [Shape.parse, document_eq_ok_iff]
  cases hspelling with
  | object => exact absurd rfl (hobject _)
  | @array depth _ _ vs helements =>
      simp only [Shape.read, hfront, if_true, shape.readList_eq_ok_iff helements]
      constructor
      · rintro ⟨r, ⟨hfields, -⟩, -⟩
        exact ⟨vs, rfl, hfields⟩
      · rintro ⟨vs', heq, hfields⟩
        cases heq
        exact ⟨rest, ⟨hfields, rfl⟩, hblanks⟩
  | number hb hnumber =>
      rw [shape.read_of_no_bracket hfront (ne_of_startsNumber hb).2.2]
      simp
  | _ =>
      rw [shape.read_of_no_bracket hfront (by decide)]
      simp

theorem value_openBracket {bound depth : Nat} {s front : Bytes}
    (h : dropBlanks s = openBracket :: front) :
    value bound (depth + 1) s =
      (elements (value bound depth) bound true [] front).map fun r => (.array r.1, r.2) := by
  rw [value, h]
  simp only [if_true]

/-- A list that a record takes is read as a list of values too. -/
theorem Shape.exists_elements_of_readList (shape : Shape) (limit depth : Nat) {bound : Nat}
    {first : Bool} {fields : List (String × FieldType)} {done fs : Fields} {s rest : Bytes}
    (h : shape.readList first done fields s = .ok (fs, rest)) (hbound : s.length < bound)
    (before : List Value) :
    ∃ vs, elements (value limit depth) bound first before s = .ok (vs, rest) := by
  induction fields generalizing bound first done s before with
  | nil =>
      obtain ⟨behind, hend, heq⟩ := map_eq_ok_iff.mp h
      cases heq
      have hclosed : nextElement first s = .ok (.closed rest) :=
        nextElement_eq_closed_iff.mpr (endList_eq_ok_iff.mp hend)
      cases bound with
      | zero => exact absurd hbound (Nat.not_lt_zero _)
      | succ bound => exact ⟨before.reverse, by simp only [elements, hclosed]⟩
  | cons field fields ih =>
      obtain ⟨key, type⟩ := field
      cases bound with
      | zero => exact absurd hbound (Nat.not_lt_zero _)
      | succ bound =>
          unfold readList at h
          split at h
          · cases h
          · next behind hclosed =>
              split at h <;> cases h
              exact ⟨before.reverse, by simp only [elements, hclosed]⟩
          · next front hnext =>
              split at h
              · cases h
              · next x behind hread =>
                  obtain ⟨v, hvalue, hshorter⟩ := type.exists_value limit depth hread
                  have hfront : front.length ≤ s.length := nextElement_length hnext
                  obtain ⟨vs, hvs⟩ := ih h (by omega : behind.length < bound) (v :: before)
                  exact ⟨vs, by simp only [elements, hnext, hvalue, hvs]⟩

/-- A text that does not begin as an object does is a record only if it is a list of values. -/
theorem Shape.exists_list_of_parse (shape : Shape) {input : Bytes} {fs : Fields}
    (hfront : (dropBlanks input).head? ≠ some openBrace) (h : shape.parse input = .ok fs) :
    ∃ vs, Value.parse input = .ok (.array vs) := by
  obtain ⟨rest, hread, hblanks⟩ := document_eq_ok_iff.mp h
  cases hinput : dropBlanks input with
  | nil => simp [Shape.read, hinput] at hread
  | cons b front =>
      have hbrace : b ≠ openBrace := by
        rintro rfl
        exact hfront (by rw [hinput]; rfl)
      by_cases hbracket : b = openBracket
      · subst hbracket
        simp only [Shape.read, hinput, if_true] at hread
        have hshorter := dropBlanks_length input
        rw [hinput, List.length_cons] at hshorter
        obtain ⟨vs, hvs⟩ := shape.exists_elements_of_readList input.length 126 hread hshorter []
        refine ⟨vs, document_eq_ok_iff.mpr ⟨rest, ?_, hblanks⟩⟩
        rw [depthLimit, value_openBracket hinput, hvs]
        rfl
      · rw [shape.read_of_no_bracket hinput ⟨hbracket, hbrace⟩] at hread
        cases hread

/-- Of the texts that do not begin as an object does, whatever they hold, a record takes those lists
of values that fill its fields. -/
theorem Shape.parse_eq_ok_iff (shape : Shape) {input : Bytes} {fs : Fields}
    (hfront : (dropBlanks input).head? ≠ some openBrace) :
    shape.parse input = .ok fs ↔
      ∃ vs, Value.parse input = .ok (.array vs) ∧
        shape.ofList? [] shape.fields vs = some fs := by
  constructor
  · intro h
    obtain ⟨vs, hvs⟩ := shape.exists_list_of_parse hfront h
    obtain ⟨ws, heq, hfields⟩ := (shape.parse_eq_ok_iff_of_value hvs (by simp)).mp h
    cases heq
    exact ⟨vs, hvs, hfields⟩
  · rintro ⟨vs, hvs, hfields⟩
    exact (shape.parse_eq_ok_iff_of_value hvs (by simp)).mpr ⟨vs, rfl, hfields⟩

end LiveDiagram.Json
