import LiveDiagram.Proofs.Download.Outcome

/-!
# Spellings of a form

A field can be spelled in many ways: a byte may stand for itself where it has no other meaning, a space
may be a plus sign, and any byte may be an escape with digits of either case.  The fields can come in
any order, in any of several forms, with empty segments and fields of other names between them.

What all these forms have in common is what they carry, and that is all that is read: the walk of the
reader undoes each spelling byte by byte, and the first segment of a name is one of its spellings.

## Main results

* `Form.Spelling.spelled_eq`: a spelling is read as what it spells.
* `Form.Carries.firstValue?_eq_lookup`: the first values are those that are carried.
* `Download.round_trip_law`: a download comes back as it was described.
-/

namespace LiveDiagram

open LiveDiagram.Ascii

namespace Form

/-! ## Spellings of a text -/

/-- A digit, of either case, that stands for a number below sixteen. -/
def IsHex (n : Nat) (digit : UInt8) : Prop :=
  digit = hexDigit n ∨ digit = upperHexDigit n

/-- A byte that stands for itself in a value. -/
def isPlainInValue (b : UInt8) : Bool :=
  b != ampersand && b != percent && b != plus

/-- A byte that stands for itself in a name. -/
def isPlainInName (b : UInt8) : Bool :=
  isPlainInValue b && b != equals

/-- Bytes and a spelling of them, in which the bytes of a class may stand for themselves. -/
inductive Spelling (plain : UInt8 → Bool) : Bytes → Bytes → Prop where
  | nil : Spelling plain [] []
  | itself {b : UInt8} {s t : Bytes} (hb : plain b = true) (hrest : Spelling plain s t) :
      Spelling plain (b :: s) (b :: t)
  | space {s t : Bytes} (hrest : Spelling plain s t) : Spelling plain (space :: s) (plus :: t)
  | escape {b high low : UInt8} {s t : Bytes} (hhigh : IsHex (b.toNat / 16) high)
      (hlow : IsHex (b.toNat % 16) low) (hrest : Spelling plain s t) :
      Spelling plain (b :: s) (percent :: high :: low :: t)

instance (n : Nat) (digit : UInt8) : Decidable (IsHex n digit) := by
  unfold IsHex
  infer_instance

/-- Two digits in front stand for the halves of a byte. -/
def startsEscape (b : UInt8) : Bytes → Bool
  | high :: low :: _ => decide (IsHex (b.toNat / 16) high) && decide (IsHex (b.toNat % 16) low)
  | _ => false

theorem startsEscape_eq_true {b : UInt8} {t : Bytes} (h : startsEscape b t = true) :
    ∃ high low, IsHex (b.toNat / 16) high ∧ IsHex (b.toNat % 16) low ∧
      t = high :: low :: t.drop 2 := by
  match t with
  | high :: low :: rest =>
      rw [startsEscape, Bool.and_eq_true, decide_eq_true_eq, decide_eq_true_eq] at h
      exact ⟨high, low, h.1, h.2, rfl⟩

/-- Spellings are checked byte by byte. -/
def isSpelling (plain : UInt8 → Bool) : Bytes → Bytes → Bool
  | [], t => t.isEmpty
  | _ :: _, [] => false
  | b :: s, c :: t =>
    (b == c && plain b && isSpelling plain s t) ||
      (b == space && c == plus && isSpelling plain s t) ||
      (c == percent && startsEscape b t && isSpelling plain s (t.drop 2))

theorem isSpelling_eq_true_iff {plain : UInt8 → Bool} {s t : Bytes} :
    isSpelling plain s t = true ↔ Spelling plain s t := by
  constructor
  · intro h
    fun_induction isSpelling plain s t with
    | case1 t =>
        rw [List.isEmpty_iff.mp h]
        exact .nil
    | case2 => cases h
    | case3 b s c t ih ihEscape =>
        simp only [Bool.or_eq_true, Bool.and_eq_true, beq_iff_eq] at h
        rcases h with (⟨⟨rfl, hb⟩, hrest⟩ | ⟨⟨rfl, rfl⟩, hrest⟩) | ⟨⟨rfl, hdigits⟩, hrest⟩
        · exact .itself hb (ih hrest)
        · exact .space (ih hrest)
        · obtain ⟨high, low, hhigh, hlow, ht⟩ := startsEscape_eq_true hdigits
          rw [ht]
          exact .escape hhigh hlow (ihEscape hrest)
  · intro h
    induction h with
    | nil => rfl
    | itself hb hrest ih => simp [isSpelling, hb, ih]
    | space hrest ih => simp [isSpelling, ih]
    | escape hhigh hlow hrest ih => simp [isSpelling, startsEscape, hhigh, hlow, ih]

instance (plain : UInt8 → Bool) (s t : Bytes) : Decidable (Spelling plain s t) :=
  decidable_of_iff _ isSpelling_eq_true_iff

theorem hexValue?_of_isHex {n : Nat} (hn : n < 16) {digit : UInt8} (h : IsHex n digit) :
    hexValue? digit = some n := by
  have all : ∀ n < 16, hexValue? (hexDigit n) = some n := by decide
  rcases h with rfl | rfl
  · exact all n hn
  · exact Percent.hexValue?_upperHexDigit hn

/-- A digit is none of the bytes with a meaning in a form. -/
theorem IsHex.ne {n : Nat} (hn : n < 16) {digit : UInt8} (h : IsHex n digit) {b : UInt8}
    (hb : hexValue? b = none) : digit ≠ b := by
  rintro rfl
  rw [hexValue?_of_isHex hn h] at hb
  cases hb

/-- A byte as it stands when plus signs have been replaced. -/
def unplus (b : UInt8) : UInt8 :=
  if b = plus then space else b

theorem unplus_of_ne {b : UInt8} (h : b ≠ plus) : unplus b = b :=
  if_neg h

section

variable {plain : UInt8 → Bool} {s t : Bytes}

/-- The walk over a spelling finds one byte after another. -/
theorem Spelling.decodeOnto_eq (h : Spelling plain s t) (hpercent : plain percent = false)
    (hplus : plain plus = false) (done : Bytes) :
    Percent.decodeOnto done (t.map unplus) = done.reverse ++ s := by
  induction h generalizing done with
  | nil => exact (List.append_nil _).symm
  | @itself b s t hb hrest ih =>
      have hbPercent : b ≠ percent := by
        rintro rfl
        rw [hpercent] at hb
        cases hb
      have hbPlus : b ≠ plus := by
        rintro rfl
        rw [hplus] at hb
        cases hb
      rw [List.map_cons, unplus_of_ne hbPlus, Percent.decodeOnto_plain done hbPercent, ih,
        List.reverse_cons, List.append_assoc, List.singleton_append]
  | @space s t hrest ih =>
      have hspace : unplus plus = Ascii.space := rfl
      rw [List.map_cons, hspace, Percent.decodeOnto_plain done (by decide), ih, List.reverse_cons,
        List.append_assoc, List.singleton_append]
  | @escape b high low s t hhigh hlow hrest ih =>
      have hb := b.toNat_lt
      have hhigh16 : b.toNat / 16 < 16 := by omega
      have hlow16 : b.toNat % 16 < 16 := by omega
      have hplusHex : hexValue? plus = none := by decide
      rw [List.map_cons, List.map_cons, List.map_cons, unplus_of_ne (by decide),
        unplus_of_ne (hhigh.ne hhigh16 hplusHex), unplus_of_ne (hlow.ne hlow16 hplusHex),
        Percent.decodeOnto_escaped done (hexValue?_of_isHex hhigh16 hhigh)
          (hexValue?_of_isHex hlow16 hlow), ih, List.reverse_cons, List.append_assoc,
        List.singleton_append]

/-- A spelling is read as what it spells. -/
theorem Spelling.spelled_eq {text : String} (h : Spelling plain (Utf8.encode text) t)
    (hpercent : plain percent = false) (hplus : plain plus = false) : spelled t = text := by
  have hread : Percent.decode (t.map unplus) = Utf8.encode text :=
    h.decodeOnto_eq hpercent hplus []
  show Utf8.decode (Percent.decode (t.map unplus)) = text
  rw [hread, Utf8.decode_encode]

theorem Spelling.eq_nil (h : Spelling plain s []) : s = [] := by
  cases h
  rfl

/-- No byte stands in a spelling that may not stand for itself and has no part in escapes. -/
theorem Spelling.notMem (h : Spelling plain s t) {c : UInt8} (hc : plain c = false)
    (hplus : c ≠ plus) (hpercent : c ≠ percent) (hhex : hexValue? c = none) : c ∉ t := by
  induction h with
  | nil => exact List.not_mem_nil
  | @itself b s t hb hrest ih =>
      have hne : c ≠ b := by
        rintro rfl
        rw [hc] at hb
        cases hb
      exact List.not_mem_cons_of_ne_of_not_mem hne ih
  | @space s t hrest ih => exact List.not_mem_cons_of_ne_of_not_mem hplus ih
  | @escape b high low s t hhigh hlow hrest ih =>
      have hb := b.toNat_lt
      have hneHigh := (hhigh.ne (by omega) hhex).symm
      have hneLow := (hlow.ne (by omega) hhex).symm
      apply List.not_mem_cons_of_ne_of_not_mem hpercent
      apply List.not_mem_cons_of_ne_of_not_mem hneHigh
      exact List.not_mem_cons_of_ne_of_not_mem hneLow ih

end

/-! ## Spellings of a field -/

/-- A field and a segment that spells it.  An empty value needs no equals sign. -/
inductive FieldSpelling : Field → Bytes → Prop where
  | full {name value : String} {s t : Bytes} (hname : Spelling isPlainInName (Utf8.encode name) s)
      (hvalue : Spelling isPlainInValue (Utf8.encode value) t) :
      FieldSpelling (name, value) (s ++ equals :: t)
  | bare {name : String} {s : Bytes} (hname : Spelling isPlainInName (Utf8.encode name) s) :
      FieldSpelling (name, "") s

theorem notMem_equals {s t : Bytes} (h : Spelling isPlainInName s t) : equals ∉ t :=
  h.notMem (by decide) (by decide) (by decide) (by decide)

theorem bne_equals_of_notMem {s : Bytes} (h : equals ∉ s) : ∀ b ∈ s, (b != equals) = true := by
  intro b hb
  rw [bne_iff_ne]
  rintro rfl
  exact h hb

theorem splitField_append {s : Bytes} (h : equals ∉ s) (t : Bytes) :
    splitField (s ++ equals :: t) = (s, t) := by
  have hs := bne_equals_of_notMem h
  rw [splitField, List.takeWhile_append_of_pos hs, List.dropWhile_append_of_pos hs,
    List.takeWhile_cons_of_neg (by decide), List.dropWhile_cons_of_neg (by decide), List.append_nil]
  rfl

/-- The parts around the first equals sign make up the segment. -/
theorem append_splitField {s : Bytes} (h : equals ∈ s) :
    (splitField s).1 ++ equals :: (splitField s).2 = s := by
  obtain ⟨before, after, rfl, hbefore⟩ := List.eq_append_cons_of_mem h
  rw [splitField_append hbefore]

theorem splitField_of_notMem {s : Bytes} (h : equals ∉ s) : splitField s = (s, []) := by
  have hs := bne_equals_of_notMem h
  rw [splitField, List.takeWhile_eq_self_iff.mpr hs, List.dropWhile_eq_nil_iff.mpr hs]
  rfl

/-- A segment spells a field if the parts around its first equals sign spell name and value. -/
theorem fieldSpelling_iff {f : Field} {s : Bytes} :
    FieldSpelling f s ↔ Spelling isPlainInName (Utf8.encode f.1) (splitField s).1 ∧
      Spelling isPlainInValue (Utf8.encode f.2) (splitField s).2 := by
  constructor
  · intro h
    cases h with
    | full hname hvalue =>
        rw [splitField_append (notMem_equals hname)]
        exact ⟨hname, hvalue⟩
    | bare hname =>
        rw [splitField_of_notMem (notMem_equals hname)]
        exact ⟨hname, .nil⟩
  · rintro ⟨hname, hvalue⟩
    obtain ⟨name, value⟩ := f
    by_cases hs : equals ∈ s
    · rw [← append_splitField hs]
      exact .full hname hvalue
    · rw [splitField_of_notMem hs] at hname hvalue
      obtain rfl : value = "" := Utf8.encode_injective hvalue.eq_nil
      exact .bare hname

instance (f : Field) (s : Bytes) : Decidable (FieldSpelling f s) :=
  decidable_of_iff _ fieldSpelling_iff.symm

/-- A spelling of a field is read as the field. -/
theorem FieldSpelling.read {f : Field} {s : Bytes} (h : FieldSpelling f s) :
    key s = f.1 ∧ value s = f.2 := by
  obtain ⟨hname, hvalue⟩ := fieldSpelling_iff.mp h
  exact ⟨hname.spelled_eq (by decide) (by decide), hvalue.spelled_eq (by decide) (by decide)⟩

/-! ## What forms carry -/

/-- Forms carry some fields: each of them is spelled by a segment, and every segment is empty, or
spells one of them, or has a name that means nothing for a download. -/
structure Carries (sources : List Bytes) (given : List Field) : Prop where
  every : ∀ f ∈ given, ∃ s ∈ sources.flatMap segments, FieldSpelling f s
  only : ∀ s ∈ sources.flatMap segments,
    s = [] ∨ key s ∉ Download.fieldNames ∨ ∃ f ∈ given, FieldSpelling f s

variable {sources : List Bytes} {given : List Field} {name : String}

theorem carries_iff : Carries sources given ↔
    (∀ f ∈ given, ∃ s ∈ sources.flatMap segments, FieldSpelling f s) ∧
    ∀ s ∈ sources.flatMap segments,
      s = [] ∨ key s ∉ Download.fieldNames ∨ ∃ f ∈ given, FieldSpelling f s :=
  ⟨fun h => ⟨h.every, h.only⟩, fun h => ⟨h.1, h.2⟩⟩

instance : Decidable (Carries sources given) :=
  decidable_of_iff _ carries_iff.symm

/-- The first value of a name comes from a segment that gives it one. -/
theorem exists_of_firstValue? {v : String} (h : firstValue? sources name = some v) :
    ∃ s ∈ sources.flatMap segments, s ≠ [] ∧ key s = name ∧ value s = v := by
  obtain ⟨s, hs, hv⟩ := Option.map_eq_some_iff.mp h
  have hgives := List.find?_some hs
  rw [gives, Bool.and_eq_true, Bool.not_eq_true', List.isEmpty_eq_false_iff, beq_iff_eq] at hgives
  exact ⟨s, List.mem_of_find?_eq_some hs, hgives.1, hgives.2, hv⟩

/-- A name that a segment gives a value has a first value. -/
theorem firstValue?_ne_none {s : Bytes} (hs : s ∈ sources.flatMap segments) (hne : s ≠ [])
    (hkey : key s = name) : firstValue? sources name ≠ none := by
  intro hnone
  have hgives := List.find?_eq_none.mp (Option.map_eq_none_iff.mp hnone) s hs
  rw [gives, hkey, BEq.rfl, Bool.and_true, Bool.not_eq_true', List.isEmpty_eq_false_iff] at hgives
  exact hgives hne

/-- What has a value among the names of a download is carried. -/
theorem Carries.mem_of_firstValue? (h : Carries sources given) (hname : name ∈ Download.fieldNames)
    {v : String} (hv : firstValue? sources name = some v) : (name, v) ∈ given := by
  obtain ⟨s, hs, hne, rfl, rfl⟩ := exists_of_firstValue? hv
  rcases h.only s hs with hempty | hother | ⟨f, hf, hspelling⟩
  · exact absurd hempty hne
  · exact absurd hname hother
  · rwa [hspelling.read.1, hspelling.read.2]

/-- **The first values are those that are carried**, if these are given once. -/
theorem Carries.firstValue?_eq_lookup (h : Carries sources given)
    (hname : name ∈ Download.fieldNames)
    (honce : ∀ v w, (name, v) ∈ given → (name, w) ∈ given → v = w) :
    firstValue? sources name = given.lookup name := by
  cases hlookup : given.lookup name with
  | none =>
      by_contra hsome
      obtain ⟨v, hv⟩ := Option.ne_none_iff_exists'.mp hsome
      have hne := List.lookup_eq_none_iff.mp hlookup _ (h.mem_of_firstValue? hname hv)
      exact bne_iff_ne.mp hne rfl
  | some v =>
      obtain ⟨before, after, rfl, -⟩ := List.lookup_eq_some_iff.mp hlookup
      have hv : (name, v) ∈ before ++ (name, v) :: after :=
        List.mem_append_right before List.mem_cons_self
      obtain ⟨s, hs, hspelling⟩ := h.every _ hv
      have hne : s ≠ [] := by
        rintro rfl
        have hkey : key [] = name := hspelling.read.1
        rw [← hkey] at hname
        exact absurd hname (by decide +kernel)
      obtain ⟨w, hw⟩ := Option.ne_none_iff_exists'.mp (firstValue?_ne_none hs hne hspelling.read.1)
      rw [hw, honce w v (h.mem_of_firstValue? hname hw) hv]

end Form

namespace Download

open LiveDiagram.Form

/-! ## Downloads described by spellings -/

/-- The fields that describe a download, of which two can be left out. -/
def described (name data : String) (contentType encoding : Option String) : List Field :=
  ("filename", name) :: ("data", data) ::
    (contentType.toList.map ("content_type", ·) ++ encoding.toList.map ("encoding", ·))

variable {sources : List Bytes} {name data : String} {contentType encoding : Option String}

theorem firstValue?_described (h : Carries sources (described name data contentType encoding))
    {field : String} (hfield : field ∈ fieldNames) :
    firstValue? sources field = (described name data contentType encoding).lookup field := by
  apply h.firstValue?_eq_lookup hfield
  intro v w hv hw
  simp only [described, List.mem_cons, List.mem_append, List.mem_map, Option.mem_toList,
    Prod.mk.injEq] at hv hw
  simp only [fieldNames, List.mem_cons, List.not_mem_nil, or_false] at hfield
  grind

theorem lookup_described_contentType :
    (described name data contentType encoding).lookup "content_type" = contentType := by
  cases contentType <;> cases encoding <;> rfl

theorem lookup_described_encoding :
    (described name data contentType encoding).lookup "encoding" = encoding := by
  cases contentType <;> cases encoding <;> rfl

/-- **A download comes back as it was described**, in every spelling.  For every name with a character
that is not taken out, every data that is not empty, every printable type or none, and every encoding
but `base64` or none: whatever forms carry these fields, in whichever spellings and order, among
whatever else, a download is made, with the bytes of the data, with the type, or the usual one for an
empty one and for none, and with the name without its control characters, double quotes and
backslashes, of which something is left. -/
theorem round_trip_law (hname : ∃ c ∈ name.toList, isDropped c = false) (hdata : data ≠ "")
    (htype : ∀ t ∈ contentType, ∀ c ∈ t.toList, isPrintable c = true)
    (hencoding : encoding ≠ some "base64")
    (hcarries : Carries sources (described name data contentType encoding)) :
    ∃ d, ofForms sources = .ok d ∧ d.body = Utf8.encode data ∧
      d.contentType = (if contentType.getD "" = "" then "application/octet-stream"
        else contentType.getD "") ∧
      d.filename.toList = name.toList.filter (fun c => !isDropped c) ∧ d.filename ≠ "" := by
  have hfilename : firstValue? sources "filename" = some name :=
    firstValue?_described hcarries (by decide)
  have hgiven : firstValue? sources "data" = some data :=
    firstValue?_described hcarries (by decide)
  have hgivenType : firstValue? sources "content_type" = contentType := by
    rw [firstValue?_described hcarries (by decide), lookup_described_contentType]
  have hgivenEncoding : firstValue? sources "encoding" = encoding := by
    rw [firstValue?_described hcarries (by decide), lookup_described_encoding]
  obtain ⟨c, hc, hkept⟩ := hname
  have hname : name ≠ "" := by
    rintro rfl
    cases hc
  have hfile : StandsFor sources data (Utf8.encode data) := by
    rw [StandsFor, hgivenEncoding, if_neg hencoding]
  have hmade : ofForms sources = .ok ⟨clean name, offeredType sources, Utf8.encode data⟩ := by
    apply accepted_iff.mpr
    rw [hgivenType]
    exact ⟨name, data, _, hfilename, hname, hgiven, hdata, htype, hfile, rfl⟩
  refine ⟨_, hmade, rfl, ?_, ?_, ?_⟩
  · show offeredType sources = _
    rw [offeredType, value?_eq_ite, hgivenType]
    by_cases hempty : contentType.getD "" = ""
    · rw [if_pos hempty, if_pos hempty]
      rfl
    · rw [if_neg hempty, if_neg hempty]
      rfl
  · exact toList_clean name
  · intro hnothing
    rw [clean_eq_empty_iff.mp hnothing c hc] at hkept
    cases hkept

/-- A name with a quote and a foreign letter, spelled in both ways, and data with an ampersand, a plus
sign, a space and a percent sign, in two forms with other fields and an empty segment. -/
theorem round_trip_law_two_forms :
    let name := "\"é"
    let data := "a&b+c %"
    let body := Utf8.encode "da%74a=a%26b%2bc+%25&&note=1&encoding=Base64"
    let query := Utf8.encode "%zz=2&fil%65name=%22é&content_type"
    Carries [body, query] (described name data (some "") (some "Base64")) ∧
      ∃ d, ofForms [body, query] = .ok d ∧ d.body = Utf8.encode data ∧
        d.contentType = "application/octet-stream" ∧ d.filename.toList = ['é'] ∧
        d.filename ≠ "" := by
  intro name data body query
  have hcarries : Carries [body, query] (described name data (some "") (some "Base64")) := by
    decide +kernel
  have hname : ∃ c ∈ name.toList, isDropped c = false := ⟨'é', by decide +kernel, by decide +kernel⟩
  have hprintable : ∀ t ∈ some "", ∀ c ∈ t.toList, isPrintable c = true := by
    intro t ht c hc
    rw [← Option.mem_some_iff.mp ht] at hc
    cases hc
  have hletter : name.toList.filter (fun c => !isDropped c) = ['é'] := by decide +kernel
  obtain ⟨d, hd, hbody, htype, hfilename, hne⟩ := round_trip_law hname (by decide +kernel)
    hprintable (by decide +kernel) hcarries
  exact ⟨hcarries, d, hd, hbody, htype, hfilename.trans hletter, hne⟩

end Download

end LiveDiagram
