import LiveDiagram.Json.Fault

/-!
# JSON numbers

A numeral is read in three parts, the integer digits, a fraction and an exponent.  Its digits go
into one significand below `2 ^ 64` for as long as they fit.  An integer digit that no longer fits
raises the exponent of ten instead, and a fraction digit that no longer fits is dropped.

A numeral without fraction, exponent or dropped digit is a whole number; negative zero and whole
numbers below `-2 ^ 63` become doubles all the same.  Any other numeral is the significand times
or over one power of ten, rounded once for each operation, so it need not be the double nearest to
the decimal that was written.

## Main results

* `number_length`: a number takes at least one byte.
-/

namespace LiveDiagram.Json

open LiveDiagram.Ascii

/-- Whether a digit comes next. -/
def digitAhead : Bytes → Bool
  | [] => false
  | b :: _ => isDigit b

/-- The bytes behind a run of digits. -/
def pastDigits (s : Bytes) : Bytes :=
  s.dropWhile isDigit

/-- A significand, how many digits were taken into it, and the bytes behind them. -/
structure Taken where
  significand : Nat
  count : Nat
  rest : Bytes

/-- Takes digits into the significand while it stays below `2 ^ 64`. -/
def takeDigits (significand count : Nat) : Bytes → Taken
  | [] => ⟨significand, count, []⟩
  | b :: rest =>
    if isDigit b ∧ 10 * significand + digitValue b < UInt64.size then
      takeDigits (10 * significand + digitValue b) (count + 1) rest
    else ⟨significand, count, b :: rest⟩

/-- What a numeral says before it is rounded: `significand * 10 ^ exponent`. -/
structure Scientific where
  significand : Nat
  exponent : Int

/-- Divides by `10 ^ 308` until the exponent is within a table of powers of ten, then multiplies or
divides once more.  `none` when the result is too large for a double. -/
def scale (x : Float) (exponent : Int) : Option Float :=
  if exponent.natAbs ≤ 308 then
    let power := Float.ofScientific 1 false exponent.natAbs
    if 0 ≤ exponent then
      let y := x * power
      if y.isInf then none else some y
    else some (x / power)
  else if x == 0.0 then some x
  else if 0 ≤ exponent then none
  else scale (x / Float.ofScientific 1 false 308) (exponent + 308)
termination_by exponent.natAbs

/-- The double of a numeral. -/
def Scientific.toFloat? (negative : Bool) (n : Scientific) : Option Float :=
  (scale n.significand.toUInt64.toFloat n.exponent).map fun x => if negative then -x else x

/-- The number of a numeral that has a fraction, an exponent or too many digits. -/
def inexact (negative : Bool) (n : Scientific) (rest : Bytes) : Read Number :=
  match n.toFloat? negative with
  | some x => .ok (.float x, rest)
  | none => .error (.here .numberOutOfRange rest)

/-- The number of a numeral that is only digits. -/
def exact (negative : Bool) (n : Nat) : Number :=
  if negative then
    if 0 < n ∧ n ≤ 0x8000000000000000 then .integer (-n) else .float (-n.toUInt64.toFloat)
  else .integer n

/-- Reads the digits of an exponent up to `2 ^ 31 - 1`.  On the left, the bytes behind the digit that
went beyond. -/
def exponentDigits (n : Nat) : Bytes → Bytes ⊕ (Nat × Bytes)
  | [] => .inr (n, [])
  | b :: rest =>
    if isDigit b then
      if 10 * n + digitValue b < 0x80000000 then exponentDigits (10 * n + digitValue b) rest
      else .inl rest
    else .inr (n, b :: rest)

/-- The digits of an exponent, whose sign has been read. -/
def exponentValue (negative : Bool) (n : Scientific) (down : Bool) : Bytes → Read Number
  | [] => .error (.here .endInValue [])
  | b :: rest =>
    if isDigit b then
      match exponentDigits 0 (b :: rest) with
      | .inr (e, rest) =>
        inexact negative { n with exponent := if down then n.exponent - e else n.exponent + e } rest
      | .inl rest =>
        if n.significand ≠ 0 ∧ ¬down then .error (.here .numberOutOfRange rest)
        else .ok (.float (if negative then -0.0 else 0.0), pastDigits rest)
    else .error (.here .invalidNumber rest)

/-- An exponent, behind its letter. -/
def exponentPart (negative : Bool) (n : Scientific) : Bytes → Read Number
  | [] => exponentValue negative n false []
  | b :: rest =>
    if b = plus then exponentValue negative n false rest
    else if b = minus then exponentValue negative n true rest
    else exponentValue negative n false (b :: rest)

/-- Whether a byte announces an exponent. -/
def isExponentMark (b : UInt8) : Bool :=
  b == 'e'.toUInt8 || b == 'E'.toUInt8

/-- What may stand behind a fraction or behind too many integer digits. -/
def afterFraction (negative : Bool) (n : Scientific) : Bytes → Read Number
  | [] => inexact negative n []
  | b :: rest =>
    if isExponentMark b then exponentPart negative n rest else inexact negative n (b :: rest)

/-- A fraction, behind its point. -/
def fractionPart (negative : Bool) (n : Scientific) (s : Bytes) : Read Number :=
  match s with
  | [] => .error (.ahead .endInValue [])
  | b :: rest =>
    if isDigit b then
      let taken := takeDigits n.significand 0 (b :: rest)
      afterFraction negative ⟨taken.significand, n.exponent - taken.count⟩ (pastDigits taken.rest)
    else .error (.ahead .invalidNumber (b :: rest))

/-- What may stand behind the integer digits, `dropped` of which did not fit. -/
def afterInteger (negative : Bool) (significand dropped : Nat) (s : Bytes) : Read Number :=
  match s with
  | [] =>
    if dropped = 0 then .ok (exact negative significand, [])
    else inexact negative ⟨significand, dropped⟩ []
  | b :: rest =>
    if b = point then fractionPart negative ⟨significand, dropped⟩ rest
    else if isExponentMark b then exponentPart negative ⟨significand, dropped⟩ rest
    else if dropped = 0 then .ok (exact negative significand, b :: rest)
    else inexact negative ⟨significand, dropped⟩ (b :: rest)

/-- A numeral behind its sign. -/
def magnitude (negative : Bool) : Bytes → Read Number
  | [] => .error (.here .endInValue [])
  | b :: rest =>
    if b = zero then
      if digitAhead rest then .error (.ahead .invalidNumber rest)
      else afterInteger negative 0 0 rest
    else if isDigit b then
      let taken := takeDigits (digitValue b) 1 rest
      let dropped := (taken.rest.takeWhile isDigit).length
      afterInteger negative taken.significand dropped (pastDigits taken.rest)
    else .error (.here .invalidNumber rest)

/-- A number, from its first byte on. -/
def number : Bytes → Read Number
  | [] => .error (.here .endInValue [])
  | b :: rest => if b = minus then magnitude true rest else magnitude false (b :: rest)

/-! ## A reader only takes bytes away -/

theorem pastDigits_length (s : Bytes) : (pastDigits s).length ≤ s.length :=
  (List.dropWhile_sublist _).length_le

theorem takeDigits_length (m t : Nat) (s : Bytes) :
    (takeDigits m t s).rest.length ≤ s.length := by
  fun_induction takeDigits m t s <;> simp_all
  omega

theorem exponentDigits_length {n m : Nat} {s rest : Bytes}
    (h : exponentDigits n s = .inr (m, rest)) : rest.length ≤ s.length := by
  fun_induction exponentDigits n s <;> simp_all
  omega

theorem exponentDigits_length_left {n : Nat} {s rest : Bytes}
    (h : exponentDigits n s = .inl rest) : rest.length < s.length := by
  fun_induction exponentDigits n s <;> simp_all
  omega

theorem inexact_length {neg : Bool} {n : Scientific} {s rest : Bytes} {x : Number}
    (h : inexact neg n s = .ok (x, rest)) : rest.length ≤ s.length := by
  unfold inexact at h
  split at h <;> cases h
  exact Nat.le_refl _

theorem exponentValue_length {neg down : Bool} {n : Scientific} {s rest : Bytes} {x : Number}
    (h : exponentValue neg n down s = .ok (x, rest)) : rest.length ≤ s.length := by
  unfold exponentValue at h
  split at h
  · cases h
  · split at h
    · split at h
      · rename_i he
        have := exponentDigits_length he
        have := inexact_length h
        omega
      · rename_i r he
        have := exponentDigits_length_left he
        have := pastDigits_length r
        split at h <;> cases h
        omega
    · cases h

theorem exponentPart_length {neg : Bool} {n : Scientific} {s rest : Bytes} {x : Number}
    (h : exponentPart neg n s = .ok (x, rest)) : rest.length ≤ s.length := by
  unfold exponentPart at h
  split at h
  · exact exponentValue_length h
  · simp only [List.length_cons]
    split at h
    · have := exponentValue_length h
      omega
    · split at h
      · have := exponentValue_length h
        omega
      · exact exponentValue_length h

theorem afterFraction_length {neg : Bool} {n : Scientific} {s rest : Bytes} {x : Number}
    (h : afterFraction neg n s = .ok (x, rest)) : rest.length ≤ s.length := by
  unfold afterFraction at h
  split at h
  · exact inexact_length h
  · split at h
    · have := exponentPart_length h
      simp only [List.length_cons]
      omega
    · exact inexact_length h

theorem fractionPart_length {neg : Bool} {n : Scientific} {s rest : Bytes} {x : Number}
    (h : fractionPart neg n s = .ok (x, rest)) : rest.length ≤ s.length := by
  unfold fractionPart at h
  split at h
  · cases h
  · rename_i b t
    split at h
    · have := afterFraction_length h
      have := pastDigits_length (takeDigits n.significand 0 (b :: t)).rest
      have := takeDigits_length n.significand 0 (b :: t)
      omega
    · cases h

theorem afterInteger_length {neg : Bool} {m d : Nat} {s rest : Bytes} {x : Number}
    (h : afterInteger neg m d s = .ok (x, rest)) : rest.length ≤ s.length := by
  unfold afterInteger at h
  split at h
  · split at h
    · cases h
      exact Nat.le_refl _
    · exact inexact_length h
  · simp only [List.length_cons]
    split at h
    · have := fractionPart_length h
      omega
    · split at h
      · have := exponentPart_length h
        omega
      · split at h
        · cases h
          exact Nat.le_refl _
        · exact inexact_length h

theorem magnitude_length {neg : Bool} {s rest : Bytes} {x : Number}
    (h : magnitude neg s = .ok (x, rest)) : rest.length < s.length := by
  unfold magnitude at h
  split at h
  · cases h
  · rename_i b t
    simp only [List.length_cons]
    split at h
    · split at h
      · cases h
      · have := afterInteger_length h
        omega
    · split at h
      · have := afterInteger_length h
        have := pastDigits_length (takeDigits (digitValue b) 1 t).rest
        have := takeDigits_length (digitValue b) 1 t
        omega
      · cases h

theorem number_length {s rest : Bytes} {x : Number} (h : number s = .ok (x, rest)) :
    rest.length < s.length := by
  unfold number at h
  split at h
  · cases h
  · split at h
    · have := magnitude_length h
      simp only [List.length_cons]
      omega
    · exact magnitude_length h

end LiveDiagram.Json
