import Mathlib.Data.List.TakeWhile
import LiveDiagram.Download.Attachment

/-!
# The fields of several forms

A download is described by the fields of several forms, and of four of its names by the first value
only.  What the first value of a name is, is said about the segments between the ampersands: it is
spelled by the first segment, of the first form that holds one, whose name is spelled so.

Everything that a download can depend on is read off these four values, so that two lists of forms
with the same ones cannot be told apart, however they are cut, ordered or filled up.

## Main results

* `Form.lookup_flatMap_parse`: the reader of forms finds the first values.
* `Download.ofForms_of_missing`, `Download.ofForms_of_type`, `Download.ofForms_of_body`: what a
  download is made of.
* `Download.first_occurrence_law`: nothing but the first values counts.
-/

namespace LiveDiagram

open LiveDiagram.Ascii

namespace Form

/-! ## First values -/

/-- What stands between the ampersands of a form. -/
def segments (s : Bytes) : List Bytes :=
  pieces (· == ampersand) s

/-- The name that a segment spells. -/
def key (segment : Bytes) : String :=
  spelled (splitField segment).1

/-- The value that a segment spells. -/
def value (segment : Bytes) : String :=
  spelled (splitField segment).2

/-- A segment gives a value to a name. -/
def gives (name : String) (segment : Bytes) : Bool :=
  !segment.isEmpty && key segment == name

/-- The value of a name in the first segment that gives it one. -/
def firstValue? (sources : List Bytes) (name : String) : Option String :=
  ((sources.flatMap segments).find? (gives name)).map value

/-- The fields that segments spell. -/
def fields (segments : List Bytes) : List Field :=
  (segments.filter (!·.isEmpty)).map fun s => (key s, value s)

theorem fields_append (s t : List Bytes) : fields (s ++ t) = fields s ++ fields t := by
  rw [fields, List.filter_append, List.map_append]
  rfl

theorem flatMap_parse (sources : List Bytes) :
    sources.flatMap parse = fields (sources.flatMap segments) := by
  induction sources with
  | nil => rfl
  | cons s sources ih =>
      rw [List.flatMap_cons, List.flatMap_cons, fields_append, ih]
      rfl

theorem lookup_fields (segments : List Bytes) (name : String) :
    (fields segments).lookup name = (segments.find? (gives name)).map value := by
  induction segments with
  | nil => rfl
  | cons s rest ih =>
      by_cases hempty : s.isEmpty = true
      · have hskip : fields (s :: rest) = fields rest := by
          simp only [fields, List.filter_cons, hempty, Bool.not_true, Bool.false_eq_true, if_false]
        have hgives : gives name s = false := by rw [gives, hempty]; rfl
        rw [hskip, ih, List.find?_cons_of_neg (by simp [hgives])]
      · rw [Bool.not_eq_true] at hempty
        have hfield : fields (s :: rest) = (key s, value s) :: fields rest := by
          simp only [fields, List.filter_cons, hempty, Bool.not_false, if_true, List.map_cons]
        rw [hfield, List.lookup_cons]
        by_cases hname : key s = name
        · have hgives : gives name s = true := by rw [gives, hempty, hname]; simp
          rw [List.find?_cons_of_pos hgives, hname, BEq.rfl]
          rfl
        · have hgives : gives name s = false := by
            rw [gives, hempty, beq_eq_false_iff_ne.mpr hname]
            rfl
          rw [List.find?_cons_of_neg (by simp [hgives]), beq_eq_false_iff_ne.mpr (Ne.symm hname), ih]

/-- The reader of forms finds the first values. -/
theorem lookup_flatMap_parse (sources : List Bytes) (name : String) :
    (sources.flatMap parse).lookup name = firstValue? sources name := by
  rw [flatMap_parse, lookup_fields]
  rfl

theorem firstValue?_append (before after : List Bytes) (name : String) :
    firstValue? (before ++ after) name = (firstValue? before name).or (firstValue? after name) := by
  rw [firstValue?, List.flatMap_append, List.find?_append, Option.map_or]
  rfl

theorem firstValue?_cons (source : Bytes) (rest : List Bytes) (name : String) :
    firstValue? (source :: rest) name = (firstValue? [source] name).or (firstValue? rest name) :=
  firstValue?_append [source] rest name

theorem firstValue?_pair (s t : Bytes) (rest : List Bytes) (name : String) :
    firstValue? (s :: t :: rest) name =
      (firstValue? [s] name).or ((firstValue? [t] name).or (firstValue? rest name)) := by
  rw [firstValue?_cons s, firstValue?_cons t rest]

/-- A value that has been given is not taken back. -/
theorem firstValue?_append_of_given {before : List Bytes} {name : String}
    (h : firstValue? before name ≠ none) (after : List Bytes) :
    firstValue? (before ++ after) name = firstValue? before name := by
  obtain ⟨v, hv⟩ := Option.ne_none_iff_exists'.mp h
  rw [firstValue?_append, hv, Option.some_or]

/-! ## One form in place of several -/

/-- The fields of forms are those of one form with ampersands between them. -/
theorem parse_intercalate (sources : List Bytes) :
    parse ([ampersand].intercalate sources) = sources.flatMap parse := by
  induction sources with
  | nil => rfl
  | cons s sources ih =>
      cases sources with
      | nil => rw [List.flatMap_cons, List.flatMap_nil, List.append_nil, List.intercalate_singleton]
      | cons t sources =>
          rw [List.intercalate_cons_cons, List.append_assoc, List.singleton_append, parse_join, ih]
          rfl

theorem firstValue?_intercalate (sources : List Bytes) (name : String) :
    firstValue? [[ampersand].intercalate sources] name = firstValue? sources name := by
  rw [← lookup_flatMap_parse, ← lookup_flatMap_parse, List.flatMap_singleton, parse_intercalate]

end Form

namespace Download

open LiveDiagram.Form

/-! ## What a download is made of -/

/-- The names that describe a download. -/
def fieldNames : List String := ["filename", "content_type", "data", "encoding"]

/-- The first value of a name, unless it is empty. -/
def value? (sources : List Bytes) (name : String) : Option String :=
  (firstValue? sources name).filter (· ≠ "")

/-- The type under which a file is offered. -/
def offeredType (sources : List Bytes) : String :=
  (value? sources "content_type").getD defaultContentType

/-- The bytes of a file with this data. -/
def fileOf (sources : List Bytes) (data : String) : Except Fault Bytes :=
  if value? sources "encoding" = some "base64" then
    (Base64.decode (Utf8.encode data)).mapError Fault.base64
  else .ok (Utf8.encode data)

theorem nonEmpty?_flatMap_parse (sources : List Bytes) (name : String) :
    nonEmpty? (sources.flatMap parse) name = value? sources name := by
  rw [nonEmpty?, lookup_flatMap_parse]
  rfl

variable {sources : List Bytes} {filename data : String}

theorem ofForms_of_missing (h : value? sources "filename" = none ∨ value? sources "data" = none) :
    ofForms sources = .error .missing := by
  unfold ofForms ofFields
  rw [nonEmpty?_flatMap_parse, nonEmpty?_flatMap_parse]
  rcases h with h | h
  · rw [h]
  · rw [h]
    cases value? sources "filename" <;> rfl

theorem ofForms_of_type (hname : value? sources "filename" = some filename)
    (hdata : value? sources "data" = some data)
    (htype : ¬ ∀ c ∈ (offeredType sources).toList, isPrintable c = true) :
    ofForms sources = .error .contentType := by
  rw [← List.all_eq_true] at htype
  unfold ofForms ofFields
  simp only [nonEmpty?_flatMap_parse, hname, hdata]
  exact if_neg htype

theorem ofForms_of_body (hname : value? sources "filename" = some filename)
    (hdata : value? sources "data" = some data)
    (htype : ∀ c ∈ (offeredType sources).toList, isPrintable c = true) :
    ofForms sources =
      (fileOf sources data).map fun file => ⟨clean filename, offeredType sources, file⟩ := by
  rw [← List.all_eq_true] at htype
  unfold ofForms ofFields
  simp only [nonEmpty?_flatMap_parse, hname, hdata]
  exact if_pos htype

/-- What it takes for a download to be made. -/
theorem ofForms_eq_ok_iff {sources : List Bytes} {d : Download} :
    ofForms sources = .ok d ↔ ∃ filename data file,
      value? sources "filename" = some filename ∧ value? sources "data" = some data ∧
      (∀ c ∈ (offeredType sources).toList, isPrintable c = true) ∧
      fileOf sources data = .ok file ∧ d = ⟨clean filename, offeredType sources, file⟩ := by
  constructor
  · intro h
    by_cases hmissing : value? sources "filename" = none ∨ value? sources "data" = none
    · rw [ofForms_of_missing hmissing] at h
      cases h
    · rw [not_or] at hmissing
      obtain ⟨filename, hname⟩ := Option.ne_none_iff_exists'.mp hmissing.1
      obtain ⟨data, hdata⟩ := Option.ne_none_iff_exists'.mp hmissing.2
      by_cases htype : ∀ c ∈ (offeredType sources).toList, isPrintable c = true
      · rw [ofForms_of_body hname hdata htype] at h
        cases hfile : fileOf sources data with
        | error f =>
            rw [hfile] at h
            cases h
        | ok file =>
            rw [hfile] at h
            cases h
            exact ⟨filename, data, file, hname, hdata, htype, hfile, rfl⟩
      · rw [ofForms_of_type hname hdata htype] at h
        cases h
  · rintro ⟨filename, data, file, hname, hdata, htype, hfile, rfl⟩
    rw [ofForms_of_body hname hdata htype, hfile]
    rfl

/-- A download depends on the first values of its four names only. -/
theorem ofForms_congr {sources sources' : List Bytes}
    (h : ∀ name ∈ fieldNames, value? sources name = value? sources' name) :
    ofForms sources = ofForms sources' := by
  simp only [fieldNames, List.forall_mem_cons] at h
  obtain ⟨hname, htype, hdata, hencoding, -⟩ := h
  unfold ofForms ofFields
  simp only [nonEmpty?_flatMap_parse, hname, htype, hdata, hencoding]

/-! ## Nothing but the first values counts -/

/-- A value that is empty counts as none. -/
theorem value?_eq_ite (sources : List Bytes) (name : String) :
    value? sources name = if (firstValue? sources name).getD "" = "" then none
      else some ((firstValue? sources name).getD "") := by
  rw [value?]
  cases firstValue? sources name with
  | none => rfl
  | some v =>
      by_cases hv : v = ""
      · subst hv
        rfl
      · rw [Option.getD_some, if_neg hv, Option.filter_some, if_pos (decide_eq_true hv)]

theorem value?_congr {sources sources' : List Bytes} {name : String}
    (h : (firstValue? sources name).getD "" = (firstValue? sources' name).getD "") :
    value? sources name = value? sources' name := by
  rw [value?_eq_ite, value?_eq_ite, h]

/-- **The first occurrence counts, wherever it stands.**  For every list of forms, damaged ones
included:

* the download is that of the one form which has ampersands between them;
* it is that of any other list that gives the same first values to the four names, where an empty
  first value and none at all count alike;
* a form in between that gives no value to one of the names, unless a value for it (be it empty)
  stands before, makes no difference: so later duplicates, behind an empty value too, and fields of
  other names do not count;
* neither does the order of two forms that give no value to the same name;
* if the first value of the file name or of the data is empty, the download is refused as one that
  has none, whatever comes later. -/
theorem first_occurrence_law (sources : List Bytes) :
    ofForms sources = ofForms [[ampersand].intercalate sources] ∧
    (∀ sources', (∀ name ∈ fieldNames,
      (firstValue? sources name).getD "" = (firstValue? sources' name).getD "") →
        ofForms sources = ofForms sources') ∧
    (∀ before source after, sources = before ++ source :: after →
      (∀ name ∈ fieldNames, firstValue? [source] name = none ∨ firstValue? before name ≠ none) →
        ofForms sources = ofForms (before ++ after)) ∧
    (∀ before s t after, sources = before ++ s :: t :: after →
      (∀ name ∈ fieldNames, firstValue? [s] name = none ∨ firstValue? [t] name = none) →
        ofForms sources = ofForms (before ++ t :: s :: after)) ∧
    (firstValue? sources "filename" = some "" ∨ firstValue? sources "data" = some "" →
      ofForms sources = .error .missing) := by
  refine ⟨?_, ?_, ?_, ?_, ?_⟩
  · apply ofForms_congr
    intro name _
    rw [value?, value?, firstValue?_intercalate]
  · intro sources' hsame
    apply ofForms_congr
    intro name hname
    exact value?_congr (hsame name hname)
  · rintro before source after rfl hgiven
    apply ofForms_congr
    intro name hname
    rw [value?, value?]
    rcases hgiven name hname with hnone | hsome
    · rw [firstValue?_append, firstValue?_append, firstValue?_cons source, hnone, Option.none_or]
    · rw [firstValue?_append_of_given hsome, firstValue?_append_of_given hsome]
  · rintro before s t after rfl hapart
    apply ofForms_congr
    intro name hname
    rw [value?, value?, firstValue?_append, firstValue?_append, firstValue?_pair s t,
      firstValue?_pair t s]
    rcases hapart name hname with hnone | hnone
    · rw [hnone, Option.none_or, Option.none_or]
    · rw [hnone, Option.none_or, Option.none_or]
  · intro hempty
    apply ofForms_of_missing
    rw [value?, value?]
    rcases hempty with hempty | hempty
    · left
      rw [hempty]
      rfl
    · right
      rw [hempty]
      rfl

/-- A name spelled with an escape, damaged data, a second name behind them and an empty one. -/
theorem first_occurrence_law_repeated :
    let name := Utf8.encode "&%66ilename=a.txt&x%=1"
    let data := Utf8.encode "da%74a=%ff%2"
    let late := Utf8.encode "note=1&filename=late.txt"
    let plain := Utf8.encode "encoding=&data=%FF%2&filename=a.txt"
    ofForms [name, data, late] =
        .ok ⟨"a.txt", "application/octet-stream", Utf8.encode "\uFFFD%2"⟩ ∧
      ofForms [name, data, late] = ofForms [[ampersand].intercalate [name, data, late]] ∧
      ofForms [name, data, late] = ofForms [plain] ∧
      ofForms [name, data, late] = ofForms [name, data] ∧
      ofForms [name, data, late] = ofForms [data, name, late] ∧
      ofForms [Utf8.encode "filename=", late, data] = .error .missing := by
  intro name data late plain
  obtain ⟨hjoined, hsame, hlate, horder, -⟩ := first_occurrence_law [name, data, late]
  obtain ⟨-, -, -, -, hempty⟩ := first_occurrence_law [Utf8.encode "filename=", late, data]
  exact ⟨by decide +kernel, hjoined, hsame [plain] (by decide +kernel),
    hlate [name, data] late [] rfl (by decide +kernel),
    horder [] name data [late] rfl (by decide +kernel), hempty (.inl (by decide +kernel))⟩

end Download

end LiveDiagram
