import LiveDiagram.Text.Percent
import LiveDiagram.Text.Pieces

/-!
# Hosts

The host of an address is a name or a number.  A numeric host has many spellings, and each is
written back in the usual one: four decimal bytes, or eight hexadecimal words between brackets with
the longest run of zeros left out.

A name is ASCII and is written in lower case; one with foreign letters is refused.
-/

namespace LiveDiagram

/-- Whom an address is of. -/
inductive Host where
  | named (name : String)
  /-- Four bytes, as one number. -/
  | bytes (address : Nat)
  /-- Eight words of sixteen bits. -/
  | words (address : List Nat)
deriving DecidableEq

namespace Host

/-- Why a text is no host. -/
inductive Fault where
  | empty
  | name
  | character
  | bytes
  | words
deriving DecidableEq

/-! ## Four bytes -/

/-- What a run of digits denotes to a base of at most sixteen. -/
def numberIn (base : Nat) (digits : List Char) : Option Nat :=
  digits.foldlM
    (fun n c => ((Ascii.hexValue? c.toUInt8).filter fun d => d < base ∧ c.toNat < 0x80).map
      (base * n + ·)) 0

/-- A part of a numeric host: hexadecimal behind `0x`, octal behind a zero, else decimal. -/
def part? : List Char → Option Nat
  | [] => none
  | '0' :: 'x' :: digits | '0' :: 'X' :: digits => numberIn 16 digits
  | '0' :: c :: digits => numberIn 8 (c :: digits)
  | digits => numberIn 10 digits

/-- The parts of a name, without the empty one behind a dot that ends it. -/
def parts (name : String) : List String :=
  let ps := piecesAt '.' name
  if ps.getLast? = some "" ∧ ps.length ≠ 1 then ps.dropLast else ps

/-- Whether a name says that it is a number. -/
def isNumeric (name : String) : Bool :=
  match (parts name).getLast? with
  | none => false
  | some last => (last ≠ "" && last.toList.all Char.isDigit) || (part? last.toList).isSome

/-- The address that the numbers of a numeric host make.  The last fills the bytes that the others
leave. -/
def join? : List Nat → Option Nat
  | [] => none
  | [n] => if n < 0x100000000 then some n else none
  | [a, n] => if a < 0x100 ∧ n < 0x1000000 then some (0x1000000 * a + n) else none
  | [a, b, n] =>
    if a < 0x100 ∧ b < 0x100 ∧ n < 0x10000 then some (0x1000000 * a + 0x10000 * b + n) else none
  | [a, b, c, n] =>
    if a < 0x100 ∧ b < 0x100 ∧ c < 0x100 ∧ n < 0x100 then
      some (0x1000000 * a + 0x10000 * b + 0x100 * c + n)
    else none
  | _ => none

/-- The address that a numeric host spells. -/
def bytes? (name : String) : Option Nat :=
  ((parts name).mapM fun p => part? p.toList).bind join?

/-- The usual spelling of four bytes. -/
def bytesText (a : Nat) : String :=
  ".".intercalate
    ([a / 0x1000000, a / 0x10000 % 0x100, a / 0x100 % 0x100, a % 0x100].map Nat.repr)

/-! ## Eight words -/

/-- One word, in up to four hexadecimal digits. -/
def word? (s : String) : Option Nat :=
  if s ≠ "" ∧ s.length ≤ 4 then numberIn 16 s.toList else none

/-- A byte in decimal, without leading zeros. -/
def plainByte? (s : String) : Option Nat :=
  if s ≠ "" ∧ s.toList.all Char.isDigit ∧ (s.length = 1 ∨ s.toList.head? ≠ some '0') then
    (numberIn 10 s.toList).filter (· < 0x100)
  else none

/-- The last two words, spelled as four bytes. -/
def lastWords? (s : String) : Option (List Nat) :=
  match (piecesAt '.' s).mapM plainByte? with
  | some [a, b, c, d] => some [0x100 * a + b, 0x100 * c + d]
  | _ => none

/-- A run of words between colons.  Only at the end of an address may it end in four bytes. -/
def run? (atEnd : Bool) : List String → Option (List Nat)
  | [] => some []
  | [s] => if atEnd ∧ s.toList.contains '.' then lastWords? s else (word? s).map ([·])
  | s :: rest =>
    match word? s, run? atEnd rest with
    | some w, some ws => some (w :: ws)
    | _, _ => none

/-- The words on one side of the gap. -/
def side? (atEnd : Bool) (s : String) : Option (List Nat) :=
  run? atEnd (if s = "" then [] else piecesAt ':' s)

/-- The address that a text between brackets spells.  Two colons stand for at least one zero. -/
def words? (s : String) : Option (List Nat) :=
  match s.splitOn "::" with
  | [whole] => (side? true whole).filter (·.length = 8)
  | [front, back] =>
    match side? false front, side? true back with
    | some front, some back =>
      if front.length + back.length ≤ 7 then
        some (front ++ List.replicate (8 - front.length - back.length) 0 ++ back)
      else none
    | _, _ => none
  | _ => none

/-- How many zeros a list starts with. -/
def leadingZeros (ws : List Nat) : Nat :=
  (ws.takeWhile (· = 0)).length

/-- The length of the longest run of zeros. -/
def longestRun : List Nat → Nat
  | [] => 0
  | w :: ws => max (leadingZeros (w :: ws)) (longestRun ws)

/-- Words between colons. -/
def runText (ws : List Nat) : String :=
  ":".intercalate (ws.map fun w => String.ofList (Nat.toDigits 16 w))

/-- Words with the first run of `gap` zeros left out.  `done` holds the words in front of it. -/
def gapText (gap : Nat) (done : List Nat) : List Nat → String
  | [] => runText done
  | w :: ws =>
    if leadingZeros (w :: ws) = gap then runText done ++ "::" ++ runText ((w :: ws).drop gap)
    else gapText gap (done ++ [w]) ws

/-- The usual spelling of eight words.  A single zero is not left out. -/
def wordsText (ws : List Nat) : String :=
  if 2 ≤ longestRun ws then gapText (longestRun ws) [] ws else runText ws

/-! ## Hosts -/

/-- A text between brackets, without them. -/
def bracketed? (s : String) : Option (Option String) :=
  match s.toList with
  | '[' :: rest =>
    some (if rest.getLast? = some ']' then some (String.ofList rest.dropLast) else none)
  | _ => none

/-- A character that no host can hold. -/
def isForbidden (c : Char) : Bool :=
  "\x00\t\n\r #/:<>?@[\\]^|".toList.contains c

/-- A character that no name can hold. -/
def isForbiddenInName (c : Char) : Bool :=
  isForbidden c || c = '%' || c.toNat < 0x20 || 0x7F ≤ c.toNat

/-- The host that a text spells. -/
def parse (s : String) : Except Fault Host :=
  match bracketed? s with
  | some inner =>
    match inner.bind words? with
    | some ws => .ok (.words ws)
    | none => .error .words
  | none =>
    match Utf8.decode? (Percent.decode (Utf8.encode s)) with
    | none => .error .name
    | some name =>
      let name := String.ofList (name.toList.map Char.toLower)
      if name.toList.any isForbiddenInName then .error .name
      else if name = "" then .error .empty
      else if isNumeric name then
        match bytes? name with
        | some a => .ok (.bytes a)
        | none => .error .bytes
      else .ok (.named name)

/-- The host that a text spells where names have no rules of their own. -/
def parseFree (s : String) : Except Fault Host :=
  match bracketed? s with
  | some inner =>
    match inner.bind words? with
    | some ws => .ok (.words ws)
    | none => .error .words
  | none =>
    if s = "" then .error .empty
    else if s.toList.any isForbidden then .error .character
    else .ok (.named (Percent.encode (fun b => 0x20 ≤ b && b ≤ 0x7E) s))

/-- The usual spelling of a host. -/
def text : Host → String
  | .named name => name
  | .bytes a => bytesText a
  | .words ws => "[" ++ wordsText ws ++ "]"

end Host

end LiveDiagram
