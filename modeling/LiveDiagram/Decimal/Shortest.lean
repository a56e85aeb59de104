import LiveDiagram.Decimal.Digits

/-!
# The shortest decimal of a double

A finite double stands for every real that rounds to it: an interval around its exact value, with
the end points included just when the significand is even.  A decimal grid of spacing `10 ^ g` has
a point in that interval exactly if one of the value's two neighbours on the grid is one.  So the
coarsest grid with such a neighbour gives the fewest digits that read back, and the nearer of two
such neighbours gives the digits; of two equally near the even one.

All comparisons are between natural numbers: both ends and both neighbours are scaled by the same
powers of two and ten.

Positional notation is kept between `1e-5` and `1e16`; outside it one digit stands before the point
and the exponent carries its sign.
-/

namespace LiveDiagram.Decimal

open LiveDiagram.Ascii

/-- A positive finite double: `significand * 2 ^ exponent`.  `tight` says that the double below is
only half as far away as the one above. -/
structure Binary where
  significand : Nat
  exponent : Int
  tight : Bool

/-- What the sign bit of a double's pattern counts: `2 ^ 63`. -/
def signUnit : Nat := 0x8000000000000000

/-- What one step of a double's scale counts: `2 ^ 52`. -/
def scaleUnit : Nat := 0x10000000000000

/-- The fields of a double's pattern, without its sign. -/
def Binary.ofFloat (x : Float) : Binary :=
  let bits : Nat := x.toBits.toNat % signUnit
  let fraction : Nat := bits % scaleUnit
  let scale : Nat := bits / scaleUnit
  if scale = 0 then ⟨fraction, -1074, false⟩
  else ⟨scaleUnit + fraction, (scale : Int) - 1075, fraction == 0 && scale != 1⟩

/-- A decimal `digits * 10 ^ exponent`. -/
structure Shortest where
  digits : Nat
  exponent : Int

/-- The neighbour of the value on the grid `10 ^ g` that reads back as the value, if there is one;
of two the nearer, and of two equally near the even one. -/
def Binary.onGrid? (b : Binary) (g : Int) : Option Nat :=
  let up := Nat.pow 2 b.exponent.toNat * Nat.pow 10 (-g).toNat
  let down := Nat.pow 2 (-b.exponent).toNat * Nat.pow 10 g.toNat
  let exact := 4 * b.significand * up
  let low := (4 * b.significand - if b.tight then 1 else 2) * up
  let high := (4 * b.significand + 2) * up
  let reads (c : Nat) : Bool :=
    let scaled := 4 * c * down
    if b.significand % 2 = 0 then low ≤ scaled && scaled ≤ high else low < scaled && scaled < high
  let below := b.significand * up / down
  let above := below + 1
  let toBelow := exact - 4 * below * down
  let toAbove := 4 * above * down - exact
  if below ≠ 0 && reads below then
    if reads above && (toAbove < toBelow || toAbove = toBelow && below % 2 = 1) then some above
    else some below
  else if reads above then some above
  else none

/-- A grid exponent above the value: `10 ^ 0.30103` exceeds two. -/
def Binary.coarse (b : Binary) : Int :=
  (b.exponent + b.significand.log2 + 1) * 30103 / 100000 + 1

/-- The coarsest grid with a neighbour that reads back.  Seventeen digits always do. -/
def Binary.shortest (b : Binary) : Shortest :=
  let grids := (List.range 24).map fun (i : Nat) => b.coarse - i
  (grids.findSome? fun g => (b.onGrid? g).map (⟨·, g⟩)).getD ⟨0, 0⟩

/-- Digits in positional notation or with an exponent, as the size of the number asks. -/
def Shortest.layout (s : Shortest) : Bytes :=
  let ds := numeral s.digits
  let place := ds.length + s.exponent
  if 0 ≤ s.exponent ∧ place ≤ 16 then
    ds ++ List.replicate s.exponent.toNat zero ++ [point, zero]
  else if 0 < place ∧ place ≤ 16 then
    ds.take place.toNat ++ [point] ++ ds.drop place.toNat
  else if -5 < place ∧ place ≤ 0 then
    [zero, point] ++ List.replicate (-place).toNat zero ++ ds
  else
    let tail := ds.drop 1
    let mark := if place < 1 then minus else plus
    ds.take 1 ++ (if tail.isEmpty then [] else point :: tail) ++ [0x65, mark]
      ++ numeral (place - 1).natAbs

/-- The numeral of a finite double. -/
def float (x : Float) : Bytes :=
  let sign := if x.toBits.toNat / signUnit = 1 then [minus] else []
  if x.toBits.toNat % signUnit = 0 then sign ++ [zero, point, zero]
  else sign ++ (Binary.ofFloat x).shortest.layout

end LiveDiagram.Decimal
