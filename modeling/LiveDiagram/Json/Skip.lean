import LiveDiagram.Json.Literal
import LiveDiagram.Json.Number
import LiveDiagram.Json.Punctuation

/-!
# Skipping a JSON value

A record's reader passes over the members it does not know.  Nothing of them is kept, so less is
asked of them: a literal may hold unpaired surrogates and damaged UTF-8, a number may be of any
size, and brackets may nest without limit.  The open brackets are held in a list instead of on the
call stack, for that last reason.

One turn of `skipFrom` passes over a scalar or one opening bracket (`skipStart`) and then over every
closing bracket and the comma behind it, up to the next value (`settle`).

## Main results

* `skipValue_length`: a skipped value takes at least one byte.
-/

namespace LiveDiagram.Json

open LiveDiagram.Ascii

/-! ## Scalars -/

/-- Over the rest of a literal.  A control character is reported before it is taken. -/
def skipLiteral (mode : Mode) : Bytes → Except Fault Bytes
  | [] => .error (.here .endInString [])
  | b :: rest =>
    match mode with
    | .escape =>
      if b = 'u'.toUInt8 then skipLiteral (.code none []) rest
      else if (shortEscape? b).isSome then skipLiteral .plain rest
      else .error (.here .invalidEscape rest)
    | .code high digits =>
      if digits.length < 3 then skipLiteral (.code high (b :: digits)) rest
      else if (hexNumber? (b :: digits)).isSome then skipLiteral .plain rest
      else .error (.here .invalidEscape rest)
    | _ =>
      if b = quote then .ok rest
      else if b = backslash then skipLiteral .escape rest
      else if b < space then .error (.here .controlCharacter (b :: rest))
      else skipLiteral .plain rest

/-- Over the digits of an exponent whose sign has been read. -/
def skipExponentValue : Bytes → Except Fault Bytes
  | [] => .error (.here .invalidNumber [])
  | b :: rest =>
    if isDigit b then .ok (pastDigits rest) else .error (.here .invalidNumber rest)

/-- Over an exponent, behind its letter. -/
def skipExponent : Bytes → Except Fault Bytes
  | [] => skipExponentValue []
  | b :: rest =>
    if b = plus ∨ b = minus then skipExponentValue rest else skipExponentValue (b :: rest)

/-- Over an exponent, if one comes next. -/
def skipAfterFraction : Bytes → Except Fault Bytes
  | [] => .ok []
  | b :: rest => if isExponentMark b then skipExponent rest else .ok (b :: rest)

/-- Over a fraction, behind its point. -/
def skipFraction (s : Bytes) : Except Fault Bytes :=
  if digitAhead s then skipAfterFraction (pastDigits s) else .error (.ahead .invalidNumber s)

/-- Over a fraction or an exponent, if one comes next. -/
def skipAfterInteger : Bytes → Except Fault Bytes
  | [] => .ok []
  | b :: rest => if b = point then skipFraction rest else skipAfterFraction (b :: rest)

/-- Over a number, behind its sign. -/
def skipMagnitude : Bytes → Except Fault Bytes
  | [] => .error (.here .invalidNumber [])
  | b :: rest =>
    if b = zero then
      if digitAhead rest then .error (.ahead .invalidNumber rest) else skipAfterInteger rest
    else if isDigit b then skipAfterInteger (pastDigits rest)
    else .error (.here .invalidNumber rest)

/-! ## Brackets -/

/-- An open bracket. -/
inductive Bracket where
  | list
  | object
deriving DecidableEq

/-- The byte that closes it. -/
def Bracket.close : Bracket → UInt8
  | .list => closeBracket
  | .object => closeBrace

/-- The input ends inside it. -/
def Bracket.endInside : Bracket → Cause
  | .list => .endInList
  | .object => .endInObject

/-- An item is followed by neither a comma nor the closing byte. -/
def Bracket.expectedCommaOrEnd : Bracket → Cause
  | .list => .expectedListCommaOrEnd
  | .object => .expectedObjectCommaOrEnd

/-- Over a scalar, or over an opening bracket, which is then returned. -/
def skipStart (s : Bytes) : Except Fault (Option Bracket × Bytes) :=
  match dropBlanks s with
  | [] => .error (.ahead .endInValue [])
  | b :: rest =>
    if b = openBracket then .ok (some .list, rest)
    else if b = openBrace then .ok (some .object, rest)
    else if b = quote then (skipLiteral .plain rest).map fun r => (none, r)
    else if b = minus then (skipMagnitude rest).map fun r => (none, r)
    else if isDigit b then (skipMagnitude (b :: rest)).map fun r => (none, r)
    else if b = 'n'.toUInt8 then (word (Utf8.encode "ull") rest).map fun r => (none, r)
    else if b = 't'.toUInt8 then (word (Utf8.encode "rue") rest).map fun r => (none, r)
    else if b = 'f'.toUInt8 then (word (Utf8.encode "alse") rest).map fun r => (none, r)
    else .error (.ahead .expectedValue (b :: rest))

/-- To the value of the next item: an object's item begins with a key and a colon. -/
def enterItem (bracket : Bracket) (s : Bytes) : Except Fault Bytes :=
  match bracket with
  | .list => .ok s
  | .object =>
    match dropBlanks s with
    | [] => .error (.ahead .endInObject [])
    | b :: rest =>
      if b = quote then
        match skipLiteral .plain rest with
        | .error f => .error f
        | .ok rest => colonStep rest
      else .error (.ahead .keyNotString (b :: rest))

/-- Over closing brackets, innermost first, and on to the value of the next item.  `mayContinue`
says that an item has just ended, so that a comma may follow.  No brackets are left when the
outermost one has been closed. -/
def settle (mayContinue : Bool) : List Bracket → Bytes → Except Fault (List Bracket × Bytes)
  | [], s => .ok ([], s)
  | bracket :: outer, s =>
    match dropBlanks s with
    | [] => .error (.ahead bracket.endInside [])
    | b :: rest =>
      if b = bracket.close then settle true outer rest
      else if ¬mayContinue then (enterItem bracket (b :: rest)).map fun r => (bracket :: outer, r)
      else if b = comma then (enterItem bracket rest).map fun r => (bracket :: outer, r)
      else .error (.ahead bracket.expectedCommaOrEnd (b :: rest))

/-! ## A step only takes bytes away -/

theorem skipLiteral_length {mode : Mode} {s rest : Bytes} (h : skipLiteral mode s = .ok rest) :
    rest.length < s.length := by
  fun_induction skipLiteral mode s <;> simp_all <;> omega

theorem skipExponentValue_length {s rest : Bytes} (h : skipExponentValue s = .ok rest) :
    rest.length ≤ s.length := by
  unfold skipExponentValue at h
  split at h
  · cases h
  · rename_i t
    have := pastDigits_length t
    split at h <;> cases h
    simp only [List.length_cons]
    omega

theorem skipExponent_length {s rest : Bytes} (h : skipExponent s = .ok rest) :
    rest.length ≤ s.length := by
  unfold skipExponent at h
  split at h
  · exact skipExponentValue_length h
  · split at h
    · have := skipExponentValue_length h
      simp only [List.length_cons]
      omega
    · exact skipExponentValue_length h

theorem skipAfterFraction_length {s rest : Bytes} (h : skipAfterFraction s = .ok rest) :
    rest.length ≤ s.length := by
  unfold skipAfterFraction at h
  split at h
  · cases h
    exact Nat.le_refl _
  · split at h
    · have := skipExponent_length h
      simp only [List.length_cons]
      omega
    · cases h
      exact Nat.le_refl _

theorem skipFraction_length {s rest : Bytes} (h : skipFraction s = .ok rest) :
    rest.length ≤ s.length := by
  unfold skipFraction at h
  split at h
  · have := skipAfterFraction_length h
    have := pastDigits_length s
    omega
  · cases h

theorem skipAfterInteger_length {s rest : Bytes} (h : skipAfterInteger s = .ok rest) :
    rest.length ≤ s.length := by
  unfold skipAfterInteger at h
  split at h
  · cases h
    exact Nat.le_refl _
  · split at h
    · have := skipFraction_length h
      simp only [List.length_cons]
      omega
    · exact skipAfterFraction_length h

theorem skipMagnitude_length {s rest : Bytes} (h : skipMagnitude s = .ok rest) :
    rest.length < s.length := by
  unfold skipMagnitude at h
  split at h
  · cases h
  · rename_i b t
    simp only [List.length_cons]
    split at h
    · split at h
      · cases h
      · have := skipAfterInteger_length h
        omega
    · split at h
      · have := skipAfterInteger_length h
        have := pastDigits_length t
        omega
      · cases h

theorem skipStart_length {s rest : Bytes} {o : Option Bracket} (h : skipStart s = .ok (o, rest)) :
    rest.length < s.length := by
  have hs := dropBlanks_length s
  unfold skipStart at h
  split at h
  · cases h
  · rename_i b t heq
    rw [heq] at hs
    simp only [List.length_cons] at hs
    split at h
    · cases h
      omega
    split at h
    · cases h
      omega
    split at h
    · obtain ⟨r, hr, he⟩ := map_eq_ok_iff.1 h
      cases he
      have := skipLiteral_length hr
      omega
    split at h
    · obtain ⟨r, hr, he⟩ := map_eq_ok_iff.1 h
      cases he
      have := skipMagnitude_length hr
      omega
    split at h
    · obtain ⟨r, hr, he⟩ := map_eq_ok_iff.1 h
      cases he
      have := skipMagnitude_length hr
      simp only [List.length_cons] at this
      omega
    split at h
    · obtain ⟨r, hr, he⟩ := map_eq_ok_iff.1 h
      cases he
      have := word_length hr
      omega
    split at h
    · obtain ⟨r, hr, he⟩ := map_eq_ok_iff.1 h
      cases he
      have := word_length hr
      omega
    split at h
    · obtain ⟨r, hr, he⟩ := map_eq_ok_iff.1 h
      cases he
      have := word_length hr
      omega
    · cases h

theorem enterItem_length {bracket : Bracket} {s rest : Bytes}
    (h : enterItem bracket s = .ok rest) : rest.length ≤ s.length := by
  have hs := dropBlanks_length s
  unfold enterItem at h
  split at h
  · cases h
    exact Nat.le_refl _
  · split at h
    · cases h
    · rename_i heq
      rw [heq] at hs
      simp only [List.length_cons] at hs
      split at h
      · split at h
        · cases h
        · rename_i hl
          have := skipLiteral_length hl
          have := colonStep_length h
          omega
      · cases h

theorem settle_length {mayContinue : Bool} {stack stack' : List Bracket} {s rest : Bytes}
    (h : settle mayContinue stack s = .ok (stack', rest)) : rest.length ≤ s.length := by
  induction stack generalizing mayContinue s with
  | nil =>
    cases h
    exact Nat.le_refl _
  | cons bracket outer ih =>
    have hs := dropBlanks_length s
    unfold settle at h
    split at h
    · cases h
    · rename_i heq
      rw [heq] at hs
      simp only [List.length_cons] at hs
      split at h
      · have := ih h
        omega
      split at h
      · obtain ⟨r, hr, he⟩ := map_eq_ok_iff.1 h
        cases he
        have := enterItem_length hr
        simp only [List.length_cons] at this
        omega
      split at h
      · obtain ⟨r, hr, he⟩ := map_eq_ok_iff.1 h
        cases he
        have := enterItem_length hr
        omega
      · cases h

/-! ## Values -/

/-- Over values and closing brackets until the outermost of the open brackets is closed. -/
def skipFrom (stack : List Bracket) (s : Bytes) : Except Fault Bytes :=
  match _hstart : skipStart s with
  | .error f => .error f
  | .ok (opened, rest) =>
    match _hsettle : settle opened.isNone (opened.toList ++ stack) rest with
    | .error f => .error f
    | .ok ([], rest) => .ok rest
    | .ok (bracket :: outer, rest) => skipFrom (bracket :: outer) rest
termination_by s.length
decreasing_by
  have := skipStart_length _hstart
  have := settle_length _hsettle
  omega

/-- Over one whole value. -/
def skipValue (s : Bytes) : Except Fault Bytes :=
  skipFrom [] s

theorem skipFrom_length {stack : List Bracket} {s rest : Bytes}
    (h : skipFrom stack s = .ok rest) : rest.length < s.length := by
  fun_induction skipFrom stack s with
  | case1 => cases h
  | case2 => cases h
  | case3 stack s o t hstart r hsettle =>
    cases h
    have := skipStart_length hstart
    have := settle_length hsettle
    omega
  | case4 stack s o t hstart b outer r hsettle ih =>
    have := skipStart_length hstart
    have := settle_length hsettle
    have := ih h
    omega

theorem skipValue_length {s rest : Bytes} (h : skipValue s = .ok rest) :
    rest.length < s.length :=
  skipFrom_length h

end LiveDiagram.Json
