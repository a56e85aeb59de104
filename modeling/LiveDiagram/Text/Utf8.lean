/-!
# Text and its bytes

Documents, form fields and JSON strings are text; sockets and files carry bytes.  A `String`
already holds its UTF-8 bytes together with the proof that they are well formed, so encoding is a
projection and strict decoding is its partial inverse: no table of code points enters either one.

A reader that must get on with damaged bytes needs more: where the damage begins and how far it
reaches.  `step` reads one byte at a time and refuses the first one that no character can continue
with; `replaceMalformed` and `validLength` are two walks over that one machine.

## Main results

* `decode?_eq_some_iff`: strict decoding accepts exactly the encodings.
* `decode_encode`: lenient decoding leaves well-formed text alone.
-/

namespace LiveDiagram

/-- What a connection carries and a file holds. -/
abbrev Bytes := List UInt8

namespace Utf8

/-- The UTF-8 bytes of a text. -/
def encode (s : String) : Bytes :=
  s.toByteArray.data.toList

/-- The text whose UTF-8 form these bytes are, if they are well formed. -/
def decode? (b : Bytes) : Option String :=
  String.fromUTF8? ⟨b.toArray⟩

theorem decode?_encode (s : String) : decode? (encode s) = some s := by
  simp [decode?, encode, String.fromUTF8?, String.fromUTF8, s.isValidUTF8]

theorem decode?_eq_some_iff {b : Bytes} {s : String} : decode? b = some s ↔ b = encode s := by
  constructor
  · intro h
    simp only [decode?, String.fromUTF8?] at h
    split at h
    · cases h
      simp [encode, String.fromUTF8]
    · cases h
  · rintro rfl
    exact decode?_encode s

theorem encode_injective {s t : String} (h : encode s = encode t) : s = t := by
  have := decode?_encode s
  rw [h, decode?_encode] at this
  exact (Option.some.inj this).symm

/-! ## Reading one byte at a time -/

/-- A character begun and not finished: `owed` bytes are still to come, the next of them between
`low` and `high`, and `value` is the code point so far. -/
structure Pending where
  owed : Nat
  low : UInt8
  high : UInt8
  value : Nat

/-- What one more byte does to a reader. -/
inductive Step where
  /-- The byte ends this character. -/
  | char (c : Char)
  /-- The byte belongs to a character that goes on. -/
  | more (p : Pending)
  /-- No character has this byte here. -/
  | refused

/-- The first byte of a character.  The bounds on the second byte keep out overlong forms,
surrogates and everything above U+10FFFF. -/
def first (b : UInt8) : Step :=
  let n := b.toNat
  if n ≤ 0x7F then .char (Char.ofNat n)
  else if n < 0xC2 then .refused
  else if n ≤ 0xDF then .more ⟨1, 0x80, 0xBF, n - 0xC0⟩
  else if n = 0xE0 then .more ⟨2, 0xA0, 0xBF, 0⟩
  else if n = 0xED then .more ⟨2, 0x80, 0x9F, 0xD⟩
  else if n ≤ 0xEF then .more ⟨2, 0x80, 0xBF, n - 0xE0⟩
  else if n = 0xF0 then .more ⟨3, 0x90, 0xBF, 0⟩
  else if n ≤ 0xF3 then .more ⟨3, 0x80, 0xBF, n - 0xF0⟩
  else if n = 0xF4 then .more ⟨3, 0x80, 0x8F, 4⟩
  else .refused

/-- One more byte, from between characters (`none`) or from inside one. -/
def step : Option Pending → UInt8 → Step
  | none, b => first b
  | some p, b =>
    if p.low ≤ b ∧ b ≤ p.high then
      let value := p.value * 64 + (b.toNat - 0x80)
      if p.owed ≤ 1 then .char (Char.ofNat value)
      else .more ⟨p.owed - 1, 0x80, 0xBF, value⟩
    else .refused

/-- How many leading bytes are whole, well-formed characters.  `whole` counts those behind the last
finished character and `begun` the bytes of the one being read. -/
def validLength (whole : Nat) (begun : Nat) (p : Option Pending) : Bytes → Nat
  | [] => whole
  | b :: rest =>
    match step p b with
    | .char _ => validLength (whole + begun + 1) 0 none rest
    | .more p => validLength whole (begun + 1) (some p) rest
    | .refused => whole

/-- The length of the longest well-formed beginning. -/
def validPrefixLength (b : Bytes) : Nat :=
  validLength 0 0 none b

/-- Each longest piece that could begin a character but does not go on as one becomes a single
replacement character, and so does each byte that can begin none. -/
def replaceMalformed (done : List Char) (p : Option Pending) : Bytes → List Char
  | [] => (if p.isSome then '\uFFFD' :: done else done).reverse
  | b :: rest =>
    match step p b with
    | .char c => replaceMalformed (c :: done) none rest
    | .more p => replaceMalformed done (some p) rest
    | .refused =>
      if p.isNone then replaceMalformed ('\uFFFD' :: done) none rest
      else
        match first b with
        | .char c => replaceMalformed (c :: '\uFFFD' :: done) none rest
        | .more p => replaceMalformed ('\uFFFD' :: done) (some p) rest
        | .refused => replaceMalformed ('\uFFFD' :: '\uFFFD' :: done) none rest

/-- Lenient decoding: well-formed bytes are read as they are, and damage in others is marked by
U+FFFD. -/
def decode (b : Bytes) : String :=
  match decode? b with
  | some s => s
  | none => String.ofList (replaceMalformed [] none b)

theorem decode_encode (s : String) : decode (encode s) = s := by
  simp [decode, decode?_encode]

end Utf8

end LiveDiagram
