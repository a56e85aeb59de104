import LiveDiagram.Json.Literal
import LiveDiagram.Json.Number
import LiveDiagram.Json.Punctuation

/-!
# Reading JSON values

A value is read by recursion on the number of brackets that may still be opened.  The items of one
list or object are read by a loop over a reader for one item, so that nothing in the loop depends
on what the items are.  The loop is bounded by the length of the whole text: every item takes a
byte, so the bound is never met.

## Main results

* `scalar_length`: a scalar takes at least one byte, counting its first.
-/

namespace LiveDiagram.Json

open LiveDiagram.Ascii

/-- How many brackets may be open at once. -/
def depthLimit : Nat := 127

/-! ## Scalars -/

/-- A value without brackets, whose first byte is `b`. -/
def scalar (b : UInt8) (rest : Bytes) : Read Value :=
  if b = quote then (literal rest).map fun r => (.string r.1, r.2)
  else if b = minus ∨ isDigit b then (number (b :: rest)).map fun r => (.number r.1, r.2)
  else if b = 'n'.toUInt8 then (word (Utf8.encode "ull") rest).map fun r => (.null, r)
  else if b = 't'.toUInt8 then (word (Utf8.encode "rue") rest).map fun r => (.bool true, r)
  else if b = 'f'.toUInt8 then (word (Utf8.encode "alse") rest).map fun r => (.bool false, r)
  else .error (.ahead .expectedValue (b :: rest))

/-! ## Items -/

/-- The elements of a list whose opening bracket has been read. -/
def elements {α : Type} (item : Bytes → Read α) :
    Nat → Bool → List α → Bytes → Read (List α)
  | 0, _, _, s => .error (.here .endInList s)
  | bound + 1, first, done, s =>
    match nextElement first s with
    | .error f => .error f
    | .ok (.closed rest) => .ok (done.reverse, rest)
    | .ok (.item s) =>
      match item s with
      | .error f => .error f
      | .ok (x, rest) => elements item bound false (x :: done) rest

/-- The members of an object whose opening brace has been read.  `member` is given the key and what
has been gathered, and reads on from the key's closing quote. -/
def members {σ : Type} (member : String → σ → Bytes → Read σ) :
    Nat → Bool → σ → Bytes → Read σ
  | 0, _, _, s => .error (.here .endInObject s)
  | bound + 1, first, gathered, s =>
    match nextKey first s with
    | .error f => .error f
    | .ok (.closed rest) => .ok (gathered, rest)
    | .ok (.item s) =>
      match literal s with
      | .error f => .error f
      | .ok (key, rest) =>
        match member key gathered rest with
        | .error f => .error f
        | .ok (gathered, rest) => members member bound false gathered rest

/-- One member of an object of values. -/
def memberOf (item : Bytes → Read Value) (key : String) (gathered : Members) (s : Bytes) :
    Read Members :=
  match colonStep s with
  | .error f => .error f
  | .ok s =>
    match item s with
    | .error f => .error f
    | .ok (v, rest) => .ok (Members.insert key v gathered, rest)

/-! ## Values -/

/-- A value with at most `depth` brackets open at once. -/
def value (bound : Nat) : Nat → Bytes → Read Value
  | depth, s =>
    match dropBlanks s with
    | [] => .error (.ahead .endInValue [])
    | b :: rest =>
      if b = openBracket then
        match depth with
        | 0 => .error (.ahead .recursionLimit (b :: rest))
        | depth + 1 =>
          (elements (value bound depth) bound true [] rest).map fun r => (.array r.1, r.2)
      else if b = openBrace then
        match depth with
        | 0 => .error (.ahead .recursionLimit (b :: rest))
        | depth + 1 =>
          (members (memberOf (value bound depth)) bound true [] rest).map
            fun r => (.object r.1, r.2)
      else scalar b rest

/-- What stands at the front of the text, where `expected` was wanted. -/
def mismatch (expected : String) (s : Bytes) : Fault :=
  match dropBlanks s with
  | [] => .ahead .endInValue []
  | b :: rest =>
    if b = openBracket then .here (.invalidType .sequence expected) (b :: rest)
    else if b = openBrace then .here (.invalidType .map expected) (b :: rest)
    else
      match scalar b rest with
      | .error f => f
      | .ok (v, rest) =>
        let found : Found :=
          match v with
          | .null => .null
          | .bool b => .boolean b
          | .number n => .number n
          | .string s => .string s
          | .array _ => .sequence
          | .object _ => .map
        .here (.invalidType found expected) rest

/-! ## Whole texts -/

/-- Reads a text that holds one thing and blanks around it. -/
def document {α : Type} (read : Bytes → Read α) (input : Bytes) : Except Error α :=
  match read input with
  | .error f => .error (Error.locate input f)
  | .ok (x, rest) =>
    match dropBlanks rest with
    | [] => .ok x
    | b :: rest => .error (Error.locate input (.ahead .trailingCharacters (b :: rest)))

/-- A text that is one value. -/
def Value.parse (input : Bytes) : Except Error Value :=
  document (value input.length depthLimit) input

/-- An object, at the front of the text. -/
def object (bound : Nat) (s : Bytes) : Read Members :=
  match dropBlanks s with
  | [] => .error (.ahead .endInValue [])
  | b :: rest =>
    if b = openBrace then
      members (memberOf (value bound (depthLimit - 1))) bound true [] rest
    else .error (mismatch "a map" (b :: rest))

/-- A text that is one object. -/
def Members.parse (input : Bytes) : Except Error Members :=
  document (object input.length) input

/-! ## A reader only takes bytes away -/

theorem scalar_length {b : UInt8} {s rest : Bytes} {v : Value}
    (h : scalar b s = .ok (v, rest)) : rest.length ≤ s.length := by
  unfold scalar at h
  split at h
  · obtain ⟨r, hr, he⟩ := map_eq_ok_iff.1 h
    have : r.2.length < s.length := literal_length hr
    cases he
    omega
  split at h
  · obtain ⟨r, hr, he⟩ := map_eq_ok_iff.1 h
    have : r.2.length < (b :: s).length := number_length hr
    cases he
    simp only [List.length_cons] at this
    omega
  iterate 3
    split at h
    · obtain ⟨r, hr, he⟩ := map_eq_ok_iff.1 h
      cases he
      exact word_length hr
  cases h

end LiveDiagram.Json
