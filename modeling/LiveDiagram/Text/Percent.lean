import LiveDiagram.Text.Ascii

/-!
# Percent escapes

A byte that may not stand in a place is written there as a percent sign and two hexadecimal digits.
Which bytes may stand is the business of the place, so it is a parameter here.

Reading refuses nothing: a percent sign without its digits stands for itself.

## Main results

* `decode_escape`: what was escaped reads back, if the percent sign itself was escaped.
-/

namespace LiveDiagram.Percent

open LiveDiagram.Ascii

/-- A byte as it is written where only the bytes of a class may stand. -/
def escapeByte (plain : UInt8 → Bool) (b : UInt8) : Bytes :=
  if plain b then [b]
  else [percent, upperHexDigit (b.toNat / 16), upperHexDigit (b.toNat % 16)]

/-- Bytes as they are written where only those of a class may stand. -/
def escape (plain : UInt8 → Bool) (s : Bytes) : Bytes :=
  s.flatMap (escapeByte plain)

/-- A text as it is written where only the bytes of a class may stand. -/
def encode (plain : UInt8 → Bool) (s : String) : String :=
  text (escape plain (Utf8.encode s))

/-- Puts the bytes for percent escapes.  `done` holds the bytes found, last first. -/
def decodeOnto (done : Bytes) : Bytes → Bytes
  | [] => done.reverse
  | [a] => decodeOnto (a :: done) []
  | [a, b] => decodeOnto (b :: a :: done) []
  | a :: b :: c :: rest =>
    if a = percent then
      match hexValue? b, hexValue? c with
      | some high, some low => decodeOnto (UInt8.ofNat (16 * high + low) :: done) rest
      | _, _ => decodeOnto (a :: done) (b :: c :: rest)
    else decodeOnto (a :: done) (b :: c :: rest)

/-- The bytes that a text with percent escapes spells. -/
def decode (s : Bytes) : Bytes :=
  decodeOnto [] s

/-! ## Reading back -/

theorem hexValue?_upperHexDigit {n : Nat} (h : n < 16) : hexValue? (upperHexDigit n) = some n := by
  have all : ∀ k < 16, hexValue? (upperHexDigit k) = some k := by decide
  exact all n h

theorem decodeOnto_plain (done : Bytes) {b : UInt8} (h : b ≠ percent) (rest : Bytes) :
    decodeOnto done (b :: rest) = decodeOnto (b :: done) rest := by
  match rest with
  | [] => rfl
  | [_] => simp [decodeOnto]
  | _ :: _ :: _ => simp [decodeOnto, h]

/-- An escape is read as the byte whose halves its digits stand for. -/
theorem decodeOnto_escaped (done : Bytes) {b high low : UInt8}
    (hhigh : hexValue? high = some (b.toNat / 16)) (hlow : hexValue? low = some (b.toNat % 16))
    (rest : Bytes) :
    decodeOnto done (percent :: high :: low :: rest) = decodeOnto (b :: done) rest := by
  have hv : 16 * (b.toNat / 16) + b.toNat % 16 = b.toNat := Nat.div_add_mod ..
  simp [decodeOnto, hhigh, hlow, hv]

private theorem decodeOnto_escape {plain : UInt8 → Bool} (h : plain percent = false)
    (done s : Bytes) : decodeOnto done (escape plain s) = done.reverse ++ s := by
  induction s generalizing done with
  | nil => simp [escape, decodeOnto]
  | cons b s ih =>
    have hcons : escape plain (b :: s) = escapeByte plain b ++ escape plain s := rfl
    rw [hcons, escapeByte]
    split
    · next hp =>
      have hb : b ≠ percent := fun e => by simp [e, h] at hp
      simp [decodeOnto_plain done hb, ih]
    · have hb := b.toNat_lt
      have hhigh := hexValue?_upperHexDigit (show b.toNat / 16 < 16 by omega)
      have hlow := hexValue?_upperHexDigit (show b.toNat % 16 < 16 by omega)
      simp [decodeOnto_escaped done hhigh hlow, ih]

theorem decode_escape {plain : UInt8 → Bool} (h : plain percent = false) (s : Bytes) :
    decode (escape plain s) = s := by
  simp [decode, decodeOnto_escape h]

end LiveDiagram.Percent
