import Mathlib.Data.List.TakeWhile
import LiveDiagram.Download.Attachment

/-!
# Reading a disposition

The header that offers a file is read by whoever receives it: a word, and behind it parameters with
semicolons between them.  The value of a parameter is another word, or a text between quotes, in
which a backslash takes the meaning from the character behind it.

This reader knows nothing of how the header was made.  What it finds is what a receiver finds, so a
header that is read as it was meant cannot have been broken by what was put into it.

## Main results

* `readValue_quoted`, `readValue_token`: how a value of either kind is read.
* `readParameter_of_value`, `readParameters_cons`: parameters are read one after another.
-/

namespace LiveDiagram.Disposition

/-! ## Characters -/

/-- A character of a word. -/
def isTokenCharacter (c : Char) : Bool :=
  c.isAlphanum || "!#$%&'*+-.^_\x60|~".toList.contains c

/-- A character that stands for itself between quotes. -/
def isQuotedCharacter (c : Char) : Bool :=
  c == '\t' || (0x20 ≤ c.toNat && c.toNat ≤ 0x7E && c != '"' && c != '\\')

/-- A character that can stand behind a backslash. -/
def isEscapable (c : Char) : Bool :=
  c == '\t' || (0x20 ≤ c.toNat && c.toNat ≤ 0x7E)

/-- A blank between parameters. -/
def isBlank (c : Char) : Bool :=
  c == ' ' || c == '\t'

/-! ## Reading -/

/-- The value of a parameter. -/
inductive Value where
  | token (word : String)
  | quoted (text : String)
deriving DecidableEq

/-- A parameter with its name. -/
abbrev Parameter := String × Value

/-- A text whose opening quote has been read; the characters before are in `done`, last first.
`escaped` says that a backslash has just been read. -/
def readQuoted (escaped : Bool) (done : List Char) : List Char → Option (String × List Char)
  | [] => none
  | c :: rest =>
    if escaped then if isEscapable c then readQuoted false (c :: done) rest else none
    else if c = '"' then some (String.ofList done.reverse, rest)
    else if c = '\\' then readQuoted true done rest
    else if isQuotedCharacter c then readQuoted false (c :: done) rest
    else none

/-- The value of a parameter. -/
def readValue (s : List Char) : Option (Value × List Char) :=
  if s.head? = some '"' then (readQuoted false [] s.tail).map fun r => (.quoted r.1, r.2)
  else if s.takeWhile isTokenCharacter = [] then none
  else some (.token (String.ofList (s.takeWhile isTokenCharacter)), s.dropWhile isTokenCharacter)

/-- A parameter, from the first character of its name on. -/
def readParameter (s : List Char) : Option (Parameter × List Char) :=
  if s.takeWhile isTokenCharacter = [] then none
  else
    match s.dropWhile isTokenCharacter with
    | '=' :: rest =>
      (readValue rest).map fun r => ((String.ofList (s.takeWhile isTokenCharacter), r.1), r.2)
    | _ => none

theorem readQuoted_length {escaped : Bool} {done s rest : List Char} {text : String}
    (h : readQuoted escaped done s = some (text, rest)) : rest.length < s.length := by
  fun_induction readQuoted escaped done s <;> simp_all <;> omega

theorem readValue_length {s rest : List Char} {v : Value} (h : readValue s = some (v, rest)) :
    rest.length ≤ s.length := by
  unfold readValue at h
  split at h
  · obtain ⟨r, hr, heq⟩ := Option.map_eq_some_iff.mp h
    cases heq
    have hquoted := readQuoted_length hr
    rw [List.length_tail] at hquoted
    omega
  · split at h <;> cases h
    exact (List.dropWhile_sublist _).length_le

theorem readParameter_length {s rest : List Char} {p : Parameter}
    (h : readParameter s = some (p, rest)) : rest.length < s.length := by
  unfold readParameter at h
  split at h
  · cases h
  · split at h
    · next behind hname =>
        obtain ⟨r, hr, heq⟩ := Option.map_eq_some_iff.mp h
        cases heq
        have hvalue := readValue_length hr
        have hbehind := (List.dropWhile_sublist (l := s) isTokenCharacter).length_le
        rw [hname, List.length_cons] at hbehind
        omega
    · cases h

/-- Parameters, each behind a semicolon. -/
def readParameters (s : List Char) : Option (List Parameter) :=
  match _hblank : s.dropWhile isBlank with
  | [] => some []
  | c :: behind =>
    if c = ';' then
      match _hread : readParameter (behind.dropWhile isBlank) with
      | none => none
      | some (p, later) => (readParameters later).map (p :: ·)
    else none
termination_by s.length
decreasing_by
  have hlater := readParameter_length _hread
  have hbehind := (List.dropWhile_sublist (l := behind) isBlank).length_le
  have hs := (List.dropWhile_sublist (l := s) isBlank).length_le
  rw [_hblank, List.length_cons] at hs
  omega

/-- What a disposition says. -/
structure Header where
  kind : String
  parameters : List Parameter
deriving DecidableEq

/-- Reads a disposition. -/
def read (s : String) : Option Header :=
  if s.toList.takeWhile isTokenCharacter = [] then none
  else (readParameters (s.toList.dropWhile isTokenCharacter)).map
    (⟨String.ofList (s.toList.takeWhile isTokenCharacter), ·⟩)

/-! ## Extended values -/

/-- A character that needs no escape in an extended value, an attr-char of RFC 5987. -/
def isAttributeCharacter (c : Char) : Bool :=
  c.isAlphanum || "!#$&+-.^_\x60|~".toList.contains c

/-- A hexadecimal digit. -/
def isHexDigit (c : Char) : Bool :=
  c.isDigit || "ABCDEFabcdef".toList.contains c

/-- Characters that need no escape, and escapes. -/
inductive Extended : List Char → Prop where
  | nil : Extended []
  | plain {c : Char} {rest : List Char} (hc : isAttributeCharacter c = true)
      (hrest : Extended rest) : Extended (c :: rest)
  | escape {high low : Char} {rest : List Char} (hhigh : isHexDigit high = true)
      (hlow : isHexDigit low = true) (hrest : Extended rest) :
      Extended ('%' :: high :: low :: rest)

/-- What stands in front of an extended value in UTF-8. -/
def charset : String := "UTF-8''"

/-- The text that an extended value in UTF-8 stands for. -/
def extendedText? (word : String) : Option String :=
  if charset.toList.isPrefixOf word.toList then
    Utf8.decode? (Percent.decode (Utf8.encode (String.ofList (word.toList.drop charset.length))))
  else none

/-- The file name that a receiver takes: the extended one counts before the other. -/
def Header.filename? (h : Header) : Option String :=
  match h.parameters.lookup "filename*", h.parameters.lookup "filename" with
  | some (.token word), _ => extendedText? word
  | none, some (.quoted text) => some text
  | _, _ => none

/-! ## Parameters of either kind -/

section

variable {s rest : List Char}

theorem takeWhile_append_of_stop {p : Char → Bool} (hs : ∀ c ∈ s, p c = true)
    (hrest : ∀ c ∈ rest.head?, p c = false) : (s ++ rest).takeWhile p = s := by
  rw [List.takeWhile_append_of_pos hs]
  cases rest with
  | nil => exact List.append_nil s
  | cons c rest => rw [List.takeWhile_cons_of_neg (by simp [hrest c rfl]), List.append_nil]

theorem dropWhile_append_of_stop {p : Char → Bool} (hs : ∀ c ∈ s, p c = true)
    (hrest : ∀ c ∈ rest.head?, p c = false) : (s ++ rest).dropWhile p = rest := by
  rw [List.dropWhile_append_of_pos hs]
  cases rest with
  | nil => rfl
  | cons c rest => rw [List.dropWhile_cons_of_neg (by simp [hrest c rfl])]

theorem readQuoted_append (done : List Char) (hs : ∀ c ∈ s, isQuotedCharacter c = true)
    (rest : List Char) :
    readQuoted false done (s ++ '"' :: rest) =
      some (String.ofList (done.reverse ++ s), rest) := by
  induction s generalizing done with
  | nil =>
      rw [List.nil_append, List.append_nil]
      rfl
  | cons c s ih =>
      have hc := hs c List.mem_cons_self
      have hplain : c ≠ '"' ∧ c ≠ '\\' := by
        refine ⟨?_, ?_⟩ <;> rintro rfl <;> cases hc
      rw [List.cons_append, readQuoted]
      simp only [Bool.false_eq_true, if_false, hplain, hc, if_true]
      rw [ih (c :: done) fun d hd => hs d (List.mem_cons_of_mem c hd), List.reverse_cons,
        List.append_assoc]
      rfl

/-- A parameter with a name and a value behind its equals sign. -/
theorem readParameter_of_value {name behind : List Char} {v : Value} (hne : name ≠ [])
    (hname : ∀ c ∈ name, isTokenCharacter c = true) (hv : readValue s = some (v, behind)) :
    readParameter (name ++ '=' :: s) = some ((String.ofList name, v), behind) := by
  have hstop : ∀ c ∈ ('=' :: s).head?, isTokenCharacter c = false := by
    intro c hc
    cases hc
    decide
  rw [readParameter, takeWhile_append_of_stop hname hstop, dropWhile_append_of_stop hname hstop,
    if_neg hne]
  simp only [hv]
  rfl

theorem readValue_quoted (hs : ∀ c ∈ s, isQuotedCharacter c = true) (rest : List Char) :
    readValue ('"' :: (s ++ '"' :: rest)) = some (.quoted (String.ofList s), rest) := by
  rw [readValue, if_pos List.head?_cons, List.tail_cons, readQuoted_append [] hs]
  rfl

theorem readValue_token (hne : s ≠ []) (hs : ∀ c ∈ s, isTokenCharacter c = true)
    (hrest : ∀ c ∈ rest.head?, isTokenCharacter c = false) :
    readValue (s ++ rest) = some (.token (String.ofList s), rest) := by
  have hquote : ¬ (s ++ rest).head? = some '"' := by
    obtain ⟨c, t, rfl⟩ := List.exists_cons_of_ne_nil hne
    intro hc
    have hletter := hs c List.mem_cons_self
    rw [List.cons_append, List.head?_cons, Option.some.injEq] at hc
    rw [hc] at hletter
    cases hletter
  rw [readValue, if_neg hquote, takeWhile_append_of_stop hs hrest, dropWhile_append_of_stop hs hrest,
    if_neg hne]

theorem readParameters_nil : readParameters [] = some [] := by
  rw [readParameters]
  rfl

/-- The first parameter is read by itself. -/
theorem readParameters_cons {p : Parameter} {behind : List Char}
    (hs : ∀ c ∈ s.head?, isBlank c = false) (hread : readParameter s = some (p, behind)) :
    readParameters (';' :: ' ' :: s) = (readParameters behind).map (p :: ·) := by
  have hblank : (' ' :: s).dropWhile isBlank = s :=
    dropWhile_append_of_stop (s := [' ']) (List.all_eq_true.mp (by decide)) hs
  have hsemicolon : (';' :: ' ' :: s).dropWhile isBlank = ';' :: ' ' :: s :=
    List.dropWhile_cons_of_neg (by decide)
  fun_cases readParameters (';' :: ' ' :: s) <;> grind

end

end LiveDiagram.Disposition
