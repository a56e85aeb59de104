import LiveDiagram.Decimal.Shortest
import LiveDiagram.Json.Value
import LiveDiagram.Text.Quoted

/-!
# What can be wrong with a JSON text

A reader stops at the first fault and reports its cause and the place.  While reading, the place
is simply what is left unread: the bytes behind the offending one.  Line and column are computed
once, when the whole text is at hand again.
-/

namespace LiveDiagram.Json

/-- What stands where something else was wanted. -/
inductive Found where
  | null
  | boolean (b : Bool)
  | number (n : Number)
  | string (s : String)
  | sequence
  | map
deriving DecidableEq

/-- Why a text is refused. -/
inductive Cause where
  | endInValue
  | endInString
  | endInList
  | endInObject
  | expectedValue
  | expectedWord
  | expectedColon
  | expectedListCommaOrEnd
  | expectedObjectCommaOrEnd
  | keyNotString
  | trailingComma
  | trailingCharacters
  | invalidNumber
  | numberOutOfRange
  | controlCharacter
  | invalidEscape
  | loneSurrogate
  | unfinishedPair
  | invalidCodePoint
  | recursionLimit
  | invalidType (found : Found) (expected : String)
  | invalidValue (found : Found) (expected : String)
  | invalidLength (length : Nat) (expected : String)
  | duplicateField (key : String)
  | missingField (key : String)
deriving DecidableEq

/-- A fault met while reading.  `unread` is what lies behind the place, and `back` how many
columns before it the fault is reported. -/
structure Fault where
  cause : Cause
  unread : Bytes
  back : Nat := 0
deriving DecidableEq

/-- A fault of the byte just read, or of something complete. -/
def Fault.here (cause : Cause) (rest : Bytes) : Fault :=
  { cause, unread := rest }

/-- A fault of the byte that comes next, or of its absence. -/
def Fault.ahead (cause : Cause) (rest : Bytes) : Fault :=
  { cause, unread := rest.tail }

/-- The outcome of one reader: what it read and the bytes behind it, or a fault. -/
abbrev Read (α : Type) := Except Fault (α × Bytes)

theorem map_eq_ok_iff {α β : Type} {r : Except Fault α} {f : α → β} {y : β} :
    r.map f = .ok y ↔ ∃ x, r = .ok x ∧ f x = y := by
  cases r <;> simp [Except.map]

/-- A refused text: the cause, with the line and column of its place. -/
structure Error where
  cause : Cause
  line : Nat
  column : Nat
deriving DecidableEq

/-- Lines count from one; columns count the bytes since the last line feed. -/
def Error.locate (input : Bytes) (f : Fault) : Error :=
  let before := input.take (input.length - f.unread.length)
  { cause := f.cause
    line := 1 + before.count Ascii.lineFeed
    column := (before.reverse.takeWhile (· != Ascii.lineFeed)).length - f.back }

/-! ## Wording -/

/-- The text of a number in a message and in written JSON. -/
def Number.numeral : Number → Bytes
  | .integer i => Decimal.signedNumeral i
  | .float x => Decimal.float x

/-- The words for what was found. -/
def Found.describe : Found → String
  | .null => "null"
  | .boolean b => "boolean \x60" ++ (if b then "true" else "false") ++ "\x60"
  | .number n@(.integer _) => "integer \x60" ++ Ascii.text n.numeral ++ "\x60"
  | .number n@(.float _) => "floating point \x60" ++ Ascii.text n.numeral ++ "\x60"
  | .string s => "string " ++ Quoted.quote s
  | .sequence => "sequence"
  | .map => "map"

/-- The words for a cause. -/
def Cause.message : Cause → String
  | .endInValue => "EOF while parsing a value"
  | .endInString => "EOF while parsing a string"
  | .endInList => "EOF while parsing a list"
  | .endInObject => "EOF while parsing an object"
  | .expectedValue => "expected value"
  | .expectedWord => "expected ident"
  | .expectedColon => "expected \x60:\x60"
  | .expectedListCommaOrEnd => "expected \x60,\x60 or \x60]\x60"
  | .expectedObjectCommaOrEnd => "expected \x60,\x60 or \x60\x7d\x60"
  | .keyNotString => "key must be a string"
  | .trailingComma => "trailing comma"
  | .trailingCharacters => "trailing characters"
  | .invalidNumber => "invalid number"
  | .numberOutOfRange => "number out of range"
  | .controlCharacter => "control character (\\u0000-\\u001F) found while parsing a string"
  | .invalidEscape => "invalid escape"
  | .loneSurrogate => "lone leading surrogate in hex escape"
  | .unfinishedPair => "unexpected end of hex escape"
  | .invalidCodePoint => "invalid unicode code point"
  | .recursionLimit => "recursion limit exceeded"
  | .invalidType found expected => "invalid type: " ++ found.describe ++ ", expected " ++ expected
  | .invalidValue found expected => "invalid value: " ++ found.describe ++ ", expected " ++ expected
  | .invalidLength n expected => "invalid length " ++ n.repr ++ ", expected " ++ expected
  | .duplicateField key => "duplicate field \x60" ++ key ++ "\x60"
  | .missingField key => "missing field \x60" ++ key ++ "\x60"

/-- The words for a refused text. -/
def Error.message (e : Error) : String :=
  e.cause.message ++ " at line " ++ e.line.repr ++ " column " ++ e.column.repr

end LiveDiagram.Json
