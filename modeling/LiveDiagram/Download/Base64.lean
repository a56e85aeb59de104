import LiveDiagram.Text.Ascii

/-!
# Base64

Three bytes are written as four symbols of six bits each.  A last group of one or two bytes is
filled up with zero bits and padded to four symbols.

Reading is strict: the padding must be there, the filling bits must be zero, and no other byte may
stand anywhere.  Of several faults the one reported is the first in this order: a last byte that
makes a group of its own and is no symbol; a byte of the groups before the last; a byte of the last
group; too few symbols in it; its padding; its filling bits.
-/

namespace LiveDiagram.Base64

open LiveDiagram.Ascii

/-! ## Symbols -/

/-- The symbol for six bits. -/
def symbol (n : Nat) : UInt8 :=
  if n < 26 then UInt8.ofNat (0x41 + n)
  else if n < 52 then UInt8.ofNat (0x61 + (n - 26))
  else if n < 62 then UInt8.ofNat (0x30 + (n - 52))
  else if n = 62 then plus
  else slash

/-- The six bits that a symbol stands for. -/
def sextet? (b : UInt8) : Option Nat :=
  if 0x41 ≤ b ∧ b ≤ 0x5A then some (b.toNat - 0x41)
  else if 0x61 ≤ b ∧ b ≤ 0x7A then some (b.toNat - 0x61 + 26)
  else if 0x30 ≤ b ∧ b ≤ 0x39 then some (b.toNat - 0x30 + 52)
  else if b = plus then some 62
  else if b = slash then some 63
  else none

theorem sextet?_symbol {n : Nat} (h : n < 64) : sextet? (symbol n) = some n := by
  revert n
  decide

/-! ## Writing -/

/-- The padded Base64 text of some bytes. -/
def encode : Bytes → Bytes
  | [] => []
  | [a] =>
    [symbol (a.toNat / 4), symbol (a.toNat % 4 * 16), equals, equals]
  | [a, b] =>
    [symbol (a.toNat / 4), symbol (a.toNat % 4 * 16 + b.toNat / 16),
      symbol (b.toNat % 16 * 4), equals]
  | a :: b :: c :: rest =>
    symbol (a.toNat / 4) :: symbol (a.toNat % 4 * 16 + b.toNat / 16) ::
      symbol (b.toNat % 16 * 4 + c.toNat / 64) :: symbol (c.toNat % 64) :: encode rest

/-! ## Reading -/

/-- Why a text is not the Base64 text of any bytes. -/
inductive Fault where
  | symbol (byte : UInt8) (offset : Nat)
  | length (symbols : Nat)
  | lastSymbol (byte : UInt8) (offset : Nat)
  | padding
deriving DecidableEq

/-- The words for a fault. -/
def Fault.message : Fault → String
  | .symbol byte offset =>
    "Invalid symbol " ++ byte.toNat.repr ++ ", offset " ++ offset.repr ++ "."
  | .length symbols => "Invalid input length: " ++ symbols.repr
  | .lastSymbol byte offset =>
    "Invalid last symbol " ++ byte.toNat.repr ++ ", offset " ++ offset.repr ++ "."
  | .padding => "Invalid padding"

/-- The six bits of every symbol, or the first byte that is none. -/
def sextets (offset : Nat) (done : List Nat) : Bytes → Except Fault (List Nat)
  | [] => .ok done.reverse
  | b :: rest =>
    match sextet? b with
    | some n => sextets (offset + 1) (n :: done) rest
    | none => .error (.symbol b offset)

/-- The bytes of complete groups of four. -/
def join : List Nat → Bytes
  | p :: q :: r :: s :: rest =>
    UInt8.ofNat (p * 4 + q / 16) :: UInt8.ofNat (q % 16 * 16 + r / 4) ::
      UInt8.ofNat (r % 4 * 64 + s) :: join rest
  | _ => []

/-- The symbols of the last group, which starts at `start`, and how much padding follows them.
Padding before the third place is no symbol, and neither is the first of a padding that something
else follows. -/
def lastGroup (start : Nat) (symbols : List Nat) (padding : Nat) :
    Bytes → Except Fault (List Nat × Nat)
  | [] => .ok (symbols, padding)
  | b :: rest =>
    let place := symbols.length + padding
    if b = equals then
      if place < 2 then .error (.symbol b (start + place))
      else lastGroup start symbols (padding + 1) rest
    else if padding ≠ 0 then .error (.symbol equals (start + symbols.length))
    else
      match sextet? b with
      | some n => lastGroup start (symbols ++ [n]) 0 rest
      | none => .error (.symbol b (start + place))

/-- The bytes of the last group and the bits left over. -/
def joinLast : List Nat → Bytes × Nat
  | [p, q] => ([UInt8.ofNat (p * 4 + q / 16)], q % 16)
  | [p, q, r] =>
    ([UInt8.ofNat (p * 4 + q / 16), UInt8.ofNat (q % 16 * 16 + r / 4)], r % 4)
  | group => (join group, 0)

/-- A last group of one byte that can be no part of a text. -/
def isStray : Bytes → Bool
  | [b] => b != equals && (sextet? b).isNone
  | _ => false

/-- The bytes whose padded Base64 text this is. -/
def decode (s : Bytes) : Except Fault Bytes :=
  let start := (s.length - 1) / 4 * 4
  let last := s.drop start
  if s = [] then .ok []
  else if isStray last then .error (.symbol (last.headD 0) start)
  else
    match sextets 0 [] (s.take start) with
    | .error f => .error f
    | .ok groups =>
      match lastGroup start [] 0 last with
      | .error f => .error f
      | .ok (symbols, padding) =>
        if symbols.length < 2 then .error (.length (start + symbols.length))
        else if symbols.length + padding ≠ 4 then .error .padding
        else
          let tail := joinLast symbols
          if tail.2 ≠ 0 then
            let place := symbols.length - 1
            .error (.lastSymbol (last.getD place 0) (start + place))
          else .ok (join groups ++ tail.1)

end LiveDiagram.Base64
