import LiveDiagram.Text.Utf8

/-!
# ASCII bytes

The grammars read and written here (JSON, forms, base64, header values) are laid out in ASCII
bytes.  This file names the ones with a meaning, gives the digit classes, and turns a run of ASCII
bytes into text.

## Main results

* `encode_text`: a run of ASCII bytes is the spelling of its text.
-/

namespace LiveDiagram.Ascii

def lineFeed : UInt8 := 0x0A
def carriageReturn : UInt8 := 0x0D
def space : UInt8 := 0x20
def quote : UInt8 := 0x22
def percent : UInt8 := 0x25
def ampersand : UInt8 := 0x26
def plus : UInt8 := 0x2B
def comma : UInt8 := 0x2C
def minus : UInt8 := 0x2D
def point : UInt8 := 0x2E
def slash : UInt8 := 0x2F
def zero : UInt8 := 0x30
def colon : UInt8 := 0x3A
def equals : UInt8 := 0x3D
def openBracket : UInt8 := 0x5B
def backslash : UInt8 := 0x5C
def closeBracket : UInt8 := 0x5D
def openBrace : UInt8 := 0x7B
def closeBrace : UInt8 := 0x7D

/-- A decimal digit. -/
def isDigit (b : UInt8) : Bool :=
  0x30 ≤ b && b ≤ 0x39

/-- The value of a decimal digit. -/
def digitValue (b : UInt8) : Nat :=
  b.toNat - 0x30

/-- The decimal digit of a value below ten. -/
def digit (n : Nat) : UInt8 :=
  UInt8.ofNat (0x30 + n)

/-- A letter of either case or a digit. -/
def isAlphanumeric (b : UInt8) : Bool :=
  isDigit b || (0x41 ≤ b && b ≤ 0x5A) || (0x61 ≤ b && b ≤ 0x7A)

/-- The value of a hexadecimal digit of either case. -/
def hexValue? (b : UInt8) : Option Nat :=
  if isDigit b then some (b.toNat - 0x30)
  else if 0x41 ≤ b && b ≤ 0x46 then some (b.toNat - 0x37)
  else if 0x61 ≤ b && b ≤ 0x66 then some (b.toNat - 0x57)
  else none

/-- The lower-case hexadecimal digit of a value below sixteen. -/
def hexDigit (n : Nat) : UInt8 :=
  UInt8.ofNat (if n < 10 then 0x30 + n else 0x57 + n)

/-- The upper-case hexadecimal digit of a value below sixteen. -/
def upperHexDigit (n : Nat) : UInt8 :=
  UInt8.ofNat (if n < 10 then 0x30 + n else 0x37 + n)

/-- A property of the bytes below `k` may be checked on the numbers below `k`. -/
theorem forall_lt {k : Nat} {P : UInt8 → Prop} (h : ∀ n < k, P (UInt8.ofNat n)) {b : UInt8}
    (hb : b.toNat < k) : P b := by
  have := h b.toNat hb
  rwa [UInt8.ofNat_toNat] at this

theorem toNat_of_isDigit {b : UInt8} (h : isDigit b = true) : 0x30 ≤ b.toNat ∧ b.toNat ≤ 0x39 := by
  simp only [isDigit, Bool.and_eq_true, decide_eq_true_eq, UInt8.le_iff_toNat_le] at h
  exact h

/-- A run of ASCII bytes as text. -/
def text (b : Bytes) : String :=
  String.ofList (b.map fun x => Char.ofNat x.toNat)

theorem encode_ofList (cs : List Char) :
    Utf8.encode (String.ofList cs) = cs.flatMap String.utf8EncodeChar := by
  simp [Utf8.encode, String.ofList, List.utf8Encode]

/-- ASCII text is its own bytes. -/
theorem encode_text {b : Bytes} (h : ∀ x ∈ b, x.toNat < 0x80) : Utf8.encode (text b) = b := by
  have hone : ∀ x ∈ b, String.utf8EncodeChar (Char.ofNat x.toNat) = [x] := by
    intro x hx
    refine forall_lt (P := fun x => String.utf8EncodeChar (Char.ofNat x.toNat) = [x]) ?_ (h x hx)
    decide +kernel
  rw [text, encode_ofList, List.flatMap_map]
  clear h
  induction b with
  | nil => rfl
  | cons x rest ih =>
      rw [List.flatMap_cons, hone x List.mem_cons_self,
        ih fun y hy => hone y (List.mem_cons_of_mem x hy)]
      rfl

end LiveDiagram.Ascii
