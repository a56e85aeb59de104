import LiveDiagram.Json.Fault

/-!
# JSON string literals

Inside the quotes a text is its UTF-8 bytes, except that the quote, the backslash and the bytes
below the space are written as escapes.  Escaping works byte by byte, so it never looks at code
points; reading collects the bytes again and only then asks whether they are well formed.

`scan` reads one byte at a time and carries in `Mode` what an unfinished escape still waits for.

## Main results

* `scan_escape`: what is written between the quotes reads back as the same bytes, whatever
  follows the closing quote.
* `literal_write`: a written literal reads back as its text.
-/

namespace LiveDiagram.Json

open LiveDiagram.Ascii

/-! ## Writing -/

/-- One byte inside the quotes. -/
def escapeByte (b : UInt8) : Bytes :=
  if b = quote then [backslash, quote]
  else if b = backslash then [backslash, backslash]
  else if b = 0x08 then [backslash, 'b'.toUInt8]
  else if b = 0x0C then [backslash, 'f'.toUInt8]
  else if b = lineFeed then [backslash, 'n'.toUInt8]
  else if b = carriageReturn then [backslash, 'r'.toUInt8]
  else if b = 0x09 then [backslash, 't'.toUInt8]
  else if b < space then
    [backslash, 'u'.toUInt8, zero, zero, hexDigit (b.toNat / 16), hexDigit (b.toNat % 16)]
  else [b]

/-- The bytes between the quotes. -/
def escape (b : Bytes) : Bytes :=
  b.flatMap escapeByte

/-- The literal of a text. -/
def writeLiteral (s : String) : Bytes :=
  quote :: escape (Utf8.encode s) ++ [quote]

/-! ## Reading -/

/-- What a reader between the quotes waits for. -/
inductive Mode where
  /-- Anything. -/
  | plain
  /-- The letter behind a backslash. -/
  | escape
  /-- More of four hexadecimal digits; those read are in `digits`, last first.  `high` is a
  leading surrogate read just before. -/
  | code (high : Option Nat) (digits : Bytes)
  /-- The backslash of the second half of a surrogate pair. -/
  | pair (high : Nat)
  /-- The letter of the second half of a surrogate pair. -/
  | pairLetter (high : Nat)

/-- The byte that a one-letter escape stands for. -/
def shortEscape? (b : UInt8) : Option UInt8 :=
  if b = quote then some quote
  else if b = backslash then some backslash
  else if b = slash then some slash
  else if b = 'b'.toUInt8 then some 0x08
  else if b = 'f'.toUInt8 then some 0x0C
  else if b = 'n'.toUInt8 then some lineFeed
  else if b = 'r'.toUInt8 then some carriageReturn
  else if b = 't'.toUInt8 then some 0x09
  else none

/-- The number of hexadecimal digits given last first. -/
def hexNumber? : Bytes → Option Nat
  | [] => some 0
  | d :: before =>
    match hexNumber? before, hexValue? d with
    | some n, some v => some (16 * n + v)
    | _, _ => none

/-- A UTF-16 code unit that begins a pair. -/
def isLeading (n : Nat) : Bool :=
  0xD800 ≤ n && n ≤ 0xDBFF

/-- A UTF-16 code unit that ends a pair. -/
def isTrailing (n : Nat) : Bool :=
  0xDC00 ≤ n && n ≤ 0xDFFF

/-- The bytes of a code point, last first. -/
def reversedBytes (n : Nat) : Bytes :=
  (String.utf8EncodeChar (Char.ofNat n)).reverse

/-- Reads up to and including the closing quote; `done` holds the bytes read, last first. -/
def scan (mode : Mode) (done : Bytes) : Bytes → Read Bytes
  | [] => .error (.here .endInString [])
  | b :: rest =>
    match mode with
    | .plain =>
      if b = quote then .ok (done.reverse, rest)
      else if b = backslash then scan .escape done rest
      else if b < space then .error (.here .controlCharacter rest)
      else scan .plain (b :: done) rest
    | .escape =>
      if b = 'u'.toUInt8 then scan (.code none []) done rest
      else
        match shortEscape? b with
        | some c => scan .plain (c :: done) rest
        | none => .error (.here .invalidEscape rest)
    | .code high digits =>
      if digits.length < 3 then scan (.code high (b :: digits)) done rest
      else
        match hexNumber? (b :: digits), high with
        | none, _ => .error (.here .invalidEscape rest)
        | some n, none =>
          if isTrailing n then .error (.here .loneSurrogate rest)
          else if isLeading n then scan (.pair n) done rest
          else scan .plain (reversedBytes n ++ done) rest
        | some n, some h =>
          if isTrailing n then
            scan .plain (reversedBytes (0x10000 + (h - 0xD800) * 0x400 + (n - 0xDC00)) ++ done) rest
          else .error (.here .loneSurrogate rest)
    | .pair high =>
      if b = backslash then scan (.pairLetter high) done rest
      else .error (.here .unfinishedPair rest)
    | .pairLetter high =>
      if b = 'u'.toUInt8 then scan (.code (some high) []) done rest
      else .error (.here .unfinishedPair rest)

/-- The text of a literal whose opening quote has been read.  Damage to its UTF-8 form is noticed
at the closing quote and reported as many columns before it as there are bytes from the damage
on. -/
def literal (s : Bytes) : Read String :=
  match scan .plain [] s with
  | .error f => .error f
  | .ok (raw, rest) =>
    match Utf8.decode? raw with
    | some t => .ok (t, rest)
    | none =>
      .error
        { cause := .invalidCodePoint
          unread := rest
          back := raw.length - Utf8.validPrefixLength raw }

/-! ## Written literals read back -/

private theorem hexNumber?_escape {b : UInt8} (h : b.toNat < 32) :
    hexNumber? [hexDigit (b.toNat % 16), hexDigit (b.toNat / 16), zero, zero] = some b.toNat := by
  refine forall_lt ?_ h
    (P := fun b => hexNumber? [hexDigit (b.toNat % 16), hexDigit (b.toNat / 16), zero, zero] =
      some b.toNat)
  decide +kernel

private theorem reversedBytes_control {b : UInt8} (h : b.toNat < 32) :
    reversedBytes b.toNat = [b] :=
  forall_lt (P := fun b => reversedBytes b.toNat = [b]) (by decide +kernel) h

private theorem scan_escapeByte (b : UInt8) (done rest : Bytes) :
    scan .plain done (escapeByte b ++ rest) = scan .plain (b :: done) rest := by
  have short : ∀ c x : UInt8, (shortEscape? x = some c) → x ≠ 'u'.toUInt8 →
      scan .plain done ([backslash, x] ++ rest) = scan .plain (c :: done) rest := by
    intro c x hx hu
    simp only [List.cons_append, List.nil_append, scan, show backslash ≠ quote by decide, hx, hu,
      if_false, if_true]
  unfold escapeByte
  repeat' split
  any_goals
    subst b
    exact short _ _ (by decide) (by decide)
  · rename_i hlt
    have hn : b.toNat < 32 := by simpa [UInt8.lt_iff_toNat_lt, space] using hlt
    have ht : isTrailing b.toNat = false := by
      simp only [isTrailing, Bool.and_eq_false_iff, decide_eq_false_iff_not]
      omega
    have hl : isLeading b.toNat = false := by
      simp only [isLeading, Bool.and_eq_false_iff, decide_eq_false_iff_not]
      omega
    simp only [List.cons_append, List.nil_append, scan, show backslash ≠ quote by decide,
      if_false, if_true, List.length_cons, List.length_nil, Nat.reduceAdd, Nat.reduceLT,
      hexNumber?_escape hn, ht, hl, Bool.false_eq_true,
      reversedBytes_control hn]
  · rename_i hq hs _ _ _ _ _ hlt
    simp only [List.singleton_append, scan, hq, hs, hlt, if_false]

theorem scan_escape (b done rest : Bytes) :
    scan .plain done (escape b ++ quote :: rest) = .ok (done.reverse ++ b, rest) := by
  induction b generalizing done with
  | nil => simp [escape, scan]
  | cons c cs ih =>
    rw [escape, List.flatMap_cons, List.append_assoc, scan_escapeByte, ← escape, ih]
    simp

theorem literal_write (s : String) (rest : Bytes) :
    literal (escape (Utf8.encode s) ++ quote :: rest) = .ok (s, rest) := by
  simp [literal, scan_escape, Utf8.decode?_encode]

/-! ## A reader only takes bytes away -/

theorem scan_length {mode : Mode} {done s t rest : Bytes} (h : scan mode done s = .ok (t, rest)) :
    rest.length < s.length := by
  fun_induction scan mode done s <;> simp_all <;> omega

theorem literal_length {s rest : Bytes} {t : String} (h : literal s = .ok (t, rest)) :
    rest.length < s.length := by
  unfold literal at h
  split at h
  · cases h
  · split at h
    · rename_i hscan _ _ _
      cases h
      exact scan_length hscan
    · cases h

end LiveDiagram.Json
