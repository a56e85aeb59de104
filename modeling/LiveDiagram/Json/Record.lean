import LiveDiagram.Json.Reader
import LiveDiagram.Json.Skip

/-!
# Reading JSON records

A record has a fixed list of fields.  It is written as an object, in any order and among members
of other names, which are skipped, or as a list of the fields' values in the order of declaration.

A fault of the record as a whole (a field twice, one missing, a list too short) is reported behind
the closing bracket if that comes next.
-/

namespace LiveDiagram.Json

open LiveDiagram.Ascii

/-- What the value of a field may be. -/
inductive FieldType where
  /-- A text. -/
  | text
  /-- A text or nothing. -/
  | optionalText
  /-- A whole number below `2 ^ 64`. -/
  | word
deriving DecidableEq

/-- The value of a field. -/
inductive FieldValue where
  | text (s : String)
  | nothing
  | word (n : UInt64)
deriving DecidableEq

/-- The fields read so far. -/
abbrev Fields := List (String × FieldValue)

/-- A kind of record: how messages call it, its fields, and whether each of them must be there. -/
structure Shape where
  name : String
  fields : List (String × FieldType)
  required : Bool

/-! ## Field values -/

/-- A text. -/
def text (s : Bytes) : Read String :=
  match dropBlanks s with
  | [] => .error (.ahead .endInValue [])
  | b :: rest => if b = quote then literal rest else .error (mismatch "a string" (b :: rest))

/-- A text or the word `null`. -/
def optionalText (s : Bytes) : Read FieldValue :=
  match dropBlanks s with
  | [] => .error (.ahead .endInValue [])
  | b :: rest =>
    if b = 'n'.toUInt8 then (word (Utf8.encode "ull") rest).map fun r => (.nothing, r)
    else (text (b :: rest)).map fun r => (.text r.1, r.2)

/-- A whole number below `2 ^ 64`. -/
def unsigned (s : Bytes) : Read UInt64 :=
  match dropBlanks s with
  | [] => .error (.ahead .endInValue [])
  | b :: rest =>
    if b = minus ∨ isDigit b then
      match number (b :: rest) with
      | .error f => .error f
      | .ok (.integer (.ofNat n), rest) => .ok (n.toUInt64, rest)
      | .ok (n@(.integer _), rest) => .error (.here (.invalidValue (.number n) "u64") rest)
      | .ok (n@(.float _), rest) => .error (.here (.invalidType (.number n) "u64") rest)
    else .error (mismatch "u64" (b :: rest))

/-- The value of a field. -/
def FieldType.read : FieldType → Bytes → Read FieldValue
  | .text, s => (Json.text s).map fun r => (.text r.1, r.2)
  | .optionalText, s => Json.optionalText s
  | .word, s => (unsigned s).map fun r => (.word r.1, r.2)

/-! ## Records -/

/-- The value of a field that has been read. -/
def Fields.get? (fs : Fields) (key : String) : Option FieldValue :=
  fs.lookup key

/-- The text of a field that has been read. -/
def Fields.text? (fs : Fields) (key : String) : Option String :=
  match fs.get? key with
  | some (.text s) => some s
  | _ => none

/-- The number of a field that has been read. -/
def Fields.word? (fs : Fields) (key : String) : Option UInt64 :=
  match fs.get? key with
  | some (.word n) => some n
  | _ => none

/-- The bytes behind a closing brace, if that comes next. -/
def pastClosingBrace (s : Bytes) : Bytes :=
  match dropBlanks s with
  | [] => []
  | b :: rest => if b = closeBrace then rest else b :: rest

/-- One member of a record: a field not read before, or one that is skipped. -/
def Shape.member (shape : Shape) (key : String) (done : Fields) (s : Bytes) : Read Fields :=
  match shape.fields.lookup key with
  | none =>
    match colonStep s with
    | .error f => .error f
    | .ok s => (skipValue s).map fun rest => (done, rest)
  | some type =>
    if (done.get? key).isSome then .error (.here (.duplicateField key) (pastClosingBrace s))
    else
      match colonStep s with
      | .error f => .error f
      | .ok s => (type.read s).map fun r => ((key, r.1) :: done, r.2)

/-- The first field that must be there and is not. -/
def Shape.missing? (shape : Shape) (done : Fields) : Option String :=
  if shape.required then
    (shape.fields.find? fun f => (done.get? f.1).isNone).map (·.1)
  else none

/-- How a message calls the list form. -/
def Shape.describeList (shape : Shape) : String :=
  let n := shape.fields.length
  shape.name ++ " with " ++ n.repr ++ (if n = 1 then " element" else " elements")

/-- The list form, behind the elements already read. -/
def Shape.readList (shape : Shape) (first : Bool) (done : Fields) :
    List (String × FieldType) → Bytes → Read Fields
  | [], s => (endList s).map fun rest => (done, rest)
  | (key, type) :: fields, s =>
    match nextElement first s with
    | .error f => .error f
    | .ok (.closed rest) =>
      if shape.required then
        .error (.here (.invalidLength done.length shape.describeList) rest)
      else .ok (done, rest)
    | .ok (.item s) =>
      match type.read s with
      | .error f => .error f
      | .ok (v, rest) => shape.readList false ((key, v) :: done) fields rest

/-- The fields of a record, at the front of the text. -/
def Shape.read (shape : Shape) (bound : Nat) (s : Bytes) : Read Fields :=
  match dropBlanks s with
  | [] => .error (.ahead .endInValue [])
  | b :: rest =>
    if b = openBracket then shape.readList true [] shape.fields rest
    else if b = openBrace then
      match members shape.member bound true [] rest with
      | .error f => .error f
      | .ok (done, rest) =>
        match shape.missing? done with
        | some key => .error (.here (.missingField key) rest)
        | none => .ok (done, rest)
    else .error (mismatch shape.name (b :: rest))

/-- A text that is one record. -/
def Shape.parse (shape : Shape) (input : Bytes) : Except Error Fields :=
  document (shape.read input.length) input

/-- A text that is one whole number below `2 ^ 64`. -/
def parseUnsigned (input : Bytes) : Except Error UInt64 :=
  document unsigned input

end LiveDiagram.Json
