import LiveDiagram.Proofs.Download.Base64
import LiveDiagram.Proofs.Download.Fields

/-!
# What forms make

Whether forms make a download, and which one, is settled by their first values and by what the data
stands for: itself, or the file of which it is the standard Base64 text.

The emptiness of a name is asked before the name is cleaned.  So the data and the type of a download
are never empty, but of a name that consists of characters that are taken out nothing is left.

## Main results

* `accepted_iff`: which forms make a download.
* `base64_law`: data in Base64 is taken exactly.
* `emptiness_law`: what is never empty, and when the name is.
-/

namespace LiveDiagram.Download

open LiveDiagram.Form

/-! ## Values and files -/

variable {sources : List Bytes}

theorem value?_eq_some_iff {name v : String} :
    value? sources name = some v ↔ firstValue? sources name = some v ∧ v ≠ "" := by
  rw [value?, Option.filter_eq_some_iff, decide_eq_true_iff]

/-- A file for which data stands: the one of which it is the standard text, if the encoding says so,
or else its own bytes. -/
def StandsFor (sources : List Bytes) (data : String) (file : Bytes) : Prop :=
  if firstValue? sources "encoding" = some "base64" then Base64.IsTextOf file (Utf8.encode data)
  else file = Utf8.encode data

theorem fileOf_eq_ok_iff {data : String} {file : Bytes} :
    fileOf sources data = .ok file ↔ StandsFor sources data file := by
  have hasked : value? sources "encoding" = some "base64" ↔
      firstValue? sources "encoding" = some "base64" := by
    rw [value?_eq_some_iff]
    exact and_iff_left (by decide)
  rw [fileOf, StandsFor]
  by_cases hencoding : firstValue? sources "encoding" = some "base64"
  · rw [if_pos (hasked.mpr hencoding), if_pos hencoding, Base64.isTextOf_iff,
      ← Base64.decode_eq_ok_iff]
    cases Base64.decode (Utf8.encode data) with
    | error f =>
        show Except.error (Fault.base64 f) = Except.ok file ↔ Except.error f = Except.ok file
        simp only [reduceCtorEq]
    | ok b =>
        show Except.ok b = Except.ok file ↔ Except.ok b = Except.ok file
        simp only [Except.ok.injEq]
  · rw [if_neg (fun h => hencoding (hasked.mp h)), if_neg hencoding, Except.ok.injEq]
    exact eq_comm

theorem offeredType_ne_empty (sources : List Bytes) : offeredType sources ≠ "" := by
  rw [offeredType]
  cases htype : value? sources "content_type" with
  | none => decide
  | some t => exact (value?_eq_some_iff.mp htype).2

/-- The type under which a file is offered is printable if the one given is, and so is the one that
stands in for none. -/
theorem offeredType_printable_iff :
    (∀ c ∈ (offeredType sources).toList, isPrintable c = true) ↔
      ∀ t ∈ firstValue? sources "content_type", ∀ c ∈ t.toList, isPrintable c = true := by
  have hdefault : ∀ c ∈ defaultContentType.toList, isPrintable c = true :=
    List.all_eq_true.mp (by decide)
  rw [offeredType, value?_eq_ite]
  cases firstValue? sources "content_type" with
  | none => simpa using hdefault
  | some t =>
      rw [Option.getD_some]
      by_cases ht : t = ""
      · subst ht
        simpa using hdefault
      · rw [if_neg ht]
        simp only [Option.getD_some, Option.mem_some_iff, forall_eq']

/-- **Which forms make a download**, and which one. -/
theorem accepted_iff {d : Download} :
    ofForms sources = .ok d ↔ ∃ filename data file,
      firstValue? sources "filename" = some filename ∧ filename ≠ "" ∧
      firstValue? sources "data" = some data ∧ data ≠ "" ∧
      (∀ t ∈ firstValue? sources "content_type", ∀ c ∈ t.toList, isPrintable c = true) ∧
      StandsFor sources data file ∧ d = ⟨clean filename, offeredType sources, file⟩ := by
  rw [ofForms_eq_ok_iff]
  simp only [value?_eq_some_iff, offeredType_printable_iff, fileOf_eq_ok_iff, and_assoc]

/-! ## Data in Base64 -/

/-- The first values ask for the file of which a text is the Base64 form. -/
structure AsksBase64 (sources : List Bytes) (name text : String) : Prop where
  filename : firstValue? sources "filename" = some name
  name_ne : name ≠ ""
  data : firstValue? sources "data" = some text
  text_ne : text ≠ ""
  contentType : ∀ t ∈ firstValue? sources "content_type", ∀ c ∈ t.toList, isPrintable c = true
  encoding : firstValue? sources "encoding" = some "base64"

variable {name text : String}

theorem AsksBase64.ofForms_eq_ok_iff (h : AsksBase64 sources name text) {d : Download} :
    ofForms sources = .ok d ↔ ∃ file, Base64.IsTextOf file (Utf8.encode text) ∧
      d = ⟨clean name, offeredType sources, file⟩ := by
  have hstands : ∀ file, StandsFor sources text file ↔
      Base64.IsTextOf file (Utf8.encode text) := by
    intro file
    rw [StandsFor, if_pos h.encoding]
  rw [accepted_iff]
  constructor
  · rintro ⟨name', text', file, hname, -, htext, -, -, hfile, hd⟩
    rw [h.filename, Option.some.injEq] at hname
    rw [h.data, Option.some.injEq] at htext
    subst hname htext
    exact ⟨file, (hstands file).mp hfile, hd⟩
  · rintro ⟨file, hfile, hd⟩
    exact ⟨name, text, file, h.filename, h.name_ne, h.data, h.text_ne, h.contentType,
      (hstands file).mpr hfile, hd⟩

/-- What is not accepted is reported as a fault of the data. -/
theorem AsksBase64.refused (h : AsksBase64 sources name text)
    (hno : ∀ file, ¬ Base64.IsTextOf file (Utf8.encode text)) :
    ∃ cause, ofForms sources = .error (.base64 cause) := by
  have hname : value? sources "filename" = some name :=
    value?_eq_some_iff.mpr ⟨h.filename, h.name_ne⟩
  have htext : value? sources "data" = some text := value?_eq_some_iff.mpr ⟨h.data, h.text_ne⟩
  have hasked : value? sources "encoding" = some "base64" :=
    value?_eq_some_iff.mpr ⟨h.encoding, by decide⟩
  rw [ofForms_of_body hname htext (offeredType_printable_iff.mpr h.contentType), fileOf,
    if_pos hasked]
  cases hdecode : Base64.decode (Utf8.encode text) with
  | error cause => exact ⟨cause, rfl⟩
  | ok file =>
      have hfile := Base64.isTextOf_iff.mpr (Base64.decode_eq_ok_iff.mp hdecode)
      exact absurd hfile (hno file)

/-- Every file that is not empty can be sent. -/
theorem exists_text_of {file : Bytes} (h : file ≠ []) :
    ∃ sent : String, sent ≠ "" ∧ Base64.IsTextOf file (Utf8.encode sent) := by
  have hbytes : Utf8.encode (Ascii.text (Base64.encode file)) = Base64.encode file :=
    Ascii.encode_text Base64.toNat_lt_of_mem_encode
  refine ⟨Ascii.text (Base64.encode file), ?_, Base64.isTextOf_iff.mpr hbytes⟩
  intro hempty
  rw [hempty] at hbytes
  exact h (Base64.encode_injective (hbytes.symm : Base64.encode file = Base64.encode []))

/-- **Data in Base64 is taken exactly.**  For every list of forms whose first values are a name and a
text that are not empty, a printable type or none, and the encoding `base64`:

* a download is made if and only if the text is the standard Base64 text of some file, and then its
  body is that file;
* any other text is refused, as a fault of the data;
* every file that is not empty can be sent, and comes back byte for byte;
* two different texts never make the same body. -/
theorem base64_law (h : AsksBase64 sources name text) :
    (∀ d, ofForms sources = .ok d ↔ ∃ file, Base64.IsTextOf file (Utf8.encode text) ∧
      d = ⟨clean name, offeredType sources, file⟩) ∧
    ((∀ file, ¬ Base64.IsTextOf file (Utf8.encode text)) →
      ∃ cause, ofForms sources = .error (.base64 cause)) ∧
    (∀ file, file ≠ [] → ∃ sent, sent ≠ "" ∧ Base64.IsTextOf file (Utf8.encode sent) ∧
      ∀ sources' name', AsksBase64 sources' name' sent →
        ofForms sources' = .ok ⟨clean name', offeredType sources', file⟩) ∧
    ∀ sources' name' text', AsksBase64 sources' name' text' → ∀ d d', ofForms sources = .ok d →
      ofForms sources' = .ok d' → d.body = d'.body → text = text' := by
  refine ⟨fun d => h.ofForms_eq_ok_iff, h.refused, ?_, ?_⟩
  · intro file hfile
    obtain ⟨sent, hsent, htext⟩ := exists_text_of hfile
    exact ⟨sent, hsent, htext, fun sources' name' h' => h'.ofForms_eq_ok_iff.mpr ⟨file, htext, rfl⟩⟩
  · intro sources' name' text' h' d d' hd hd' hbody
    obtain ⟨file, hfile, rfl⟩ := h.ofForms_eq_ok_iff.mp hd
    obtain ⟨file', hfile', rfl⟩ := h'.ofForms_eq_ok_iff.mp hd'
    change file = file' at hbody
    apply Utf8.encode_injective
    rw [Base64.isTextOf_iff.mp hfile, Base64.isTextOf_iff.mp hfile', hbody]

/-- Two bytes that are sent back, and the same text with filling bits that are not zero. -/
theorem base64_law_filling_bits :
    let sent := [Utf8.encode "filename=a.bin&encoding=base64&data=//4%3D"]
    let damaged := [Utf8.encode "filename=a.bin&encoding=base64&data=//5%3D"]
    AsksBase64 sent "a.bin" "//4=" ∧ AsksBase64 damaged "a.bin" "//5=" ∧
      ofForms sent = .ok ⟨"a.bin", "application/octet-stream", [0xFF, 0xFE]⟩ ∧
      ∃ cause, ofForms damaged = .error (.base64 cause) := by
  intro sent damaged
  have hsent : AsksBase64 sent "a.bin" "//4=" :=
    ⟨by decide +kernel, by decide, by decide +kernel, by decide, by decide +kernel, by decide +kernel⟩
  have hdamaged : AsksBase64 damaged "a.bin" "//5=" :=
    ⟨by decide +kernel, by decide, by decide +kernel, by decide, by decide +kernel, by decide +kernel⟩
  refine ⟨hsent, hdamaged, ?_, ?_⟩
  · have htext : Base64.IsTextOf [0xFF, 0xFE] (Utf8.encode "//4=") :=
      Base64.isTextOf_iff.mpr (by decide)
    exact ((base64_law hsent).1 _).mpr ⟨[0xFF, 0xFE], htext, by decide +kernel⟩
  · have hread : Base64.decode (Utf8.encode "//5=") = .error (.lastSymbol 0x35 2) := by
      decide +kernel
    exact (base64_law hdamaged).2.1 (Base64.not_isTextOf_of_decode hread)

/-! ## What is never empty -/

/-- A character that is taken out of a name. -/
def isDropped (c : Char) : Bool :=
  isControl c || c == '"' || c == '\\'

/-- What is left of a name. -/
theorem toList_clean (name : String) :
    (clean name).toList = name.toList.filter fun c => !isDropped c := by
  rw [clean, String.toList_ofList]
  apply List.filter_congr
  intro c _
  rw [isDropped]
  grind

theorem clean_eq_empty_iff : clean name = "" ↔ ∀ c ∈ name.toList, isDropped c = true := by
  rw [← String.toList_eq_nil_iff, toList_clean, List.filter_eq_nil_iff]
  simp only [Bool.not_eq_true', Bool.not_eq_false]

/-- Data stands for an empty file only if it is empty. -/
theorem StandsFor.ne_nil_iff {file : Bytes} (h : StandsFor sources text file) :
    file ≠ [] ↔ text ≠ "" := by
  have hencode : Utf8.encode text = [] ↔ text = "" :=
    ⟨fun hnil => Utf8.encode_injective hnil, fun hempty => by rw [hempty]; rfl⟩
  rw [ne_eq, ne_eq, ← hencode, not_iff_not]
  rw [StandsFor] at h
  split at h
  · rw [Base64.isTextOf_iff.mp h]
    exact ⟨fun hnil => by rw [hnil]; rfl, fun hnil => Base64.encode_injective hnil⟩
  · rw [h]

/-- Forms that do not make a download lack a name, or data that stands for a file with anything in
it, or give a type that is not printable. -/
theorem refused_iff : (∃ fault, ofForms sources = .error fault) ↔
    (∀ name, firstValue? sources "filename" = some name → name = "") ∨
    (∀ text file, firstValue? sources "data" = some text → StandsFor sources text file →
      file = []) ∨
    ∃ t ∈ firstValue? sources "content_type", ∃ c ∈ t.toList, isPrintable c = false := by
  constructor
  · rintro ⟨fault, hfault⟩
    by_contra hnot
    simp only [not_or, not_forall, not_exists, not_and, Bool.not_eq_false] at hnot
    obtain ⟨⟨name, hname, hne⟩, ⟨text, file, htext, hfile, hfull⟩, htype⟩ := hnot
    have hmade := accepted_iff.mpr
      ⟨name, text, file, hname, hne, htext, hfile.ne_nil_iff.mp hfull, htype, hfile, rfl⟩
    rw [hfault] at hmade
    cases hmade
  · intro hlacking
    cases hmade : ofForms sources with
    | error fault => exact ⟨fault, rfl⟩
    | ok d =>
        obtain ⟨name, text, file, hname, hne, htext, htextne, htype, hfile, -⟩ :=
          accepted_iff.mp hmade
        rcases hlacking with hnoName | hnoFile | ⟨t, ht, c, hc, hbad⟩
        · exact absurd (hnoName name hname) hne
        · exact absurd (hnoFile text file htext hfile) (hfile.ne_nil_iff.mpr htextne)
        · rw [htype t ht c hc] at hbad
          cases hbad

/-- **What is never empty.**  For every list of forms:

* the type and the body of a download that is made are not empty; its name is what is left of a first
  value that is not empty, and is empty itself only if, and always if, that value consists of control
  characters, double quotes and backslashes;
* nothing is made if and only if there is no such value, or no data that stands for a file with
  anything in it, or a type that is not printable. -/
theorem emptiness_law (sources : List Bytes) :
    (∀ d, ofForms sources = .ok d → d.contentType ≠ "" ∧ d.body ≠ [] ∧
      ∃ name, firstValue? sources "filename" = some name ∧ name ≠ "" ∧ d.filename = clean name ∧
        (d.filename = "" ↔ ∀ c ∈ name.toList, isDropped c = true)) ∧
    ((∃ fault, ofForms sources = .error fault) ↔
      (∀ name, firstValue? sources "filename" = some name → name = "") ∨
      (∀ text file, firstValue? sources "data" = some text → StandsFor sources text file →
        file = []) ∨
      ∃ t ∈ firstValue? sources "content_type", ∃ c ∈ t.toList, isPrintable c = false) := by
  refine ⟨?_, refused_iff⟩
  intro d hd
  obtain ⟨name, text, file, hname, hne, -, htext, -, hfile, rfl⟩ := accepted_iff.mp hd
  exact ⟨offeredType_ne_empty sources, hfile.ne_nil_iff.mpr htext, name, hname, hne, rfl,
    clean_eq_empty_iff⟩

/-- A name that has something left, and a text that is no Base64. -/
theorem emptiness_law_quoted_name :
    let made := [Utf8.encode "filename=%22a%22&data=x"]
    let refused := [Utf8.encode "filename=a&data=x&encoding=base64"]
    (ofForms made = .ok ⟨"a", "application/octet-stream", [0x78]⟩ ∧
      ∃ name, firstValue? made "filename" = some name ∧
        ("a" = "" ↔ ∀ c ∈ name.toList, isDropped c = true)) ∧
      ∃ fault, ofForms refused = .error fault := by
  intro made refused
  have hmade : ofForms made = .ok ⟨"a", "application/octet-stream", [0x78]⟩ := by decide +kernel
  obtain ⟨-, -, name, hname, -, -, hleft⟩ := (emptiness_law made).1 _ hmade
  refine ⟨⟨hmade, name, hname, hleft⟩, (emptiness_law refused).2.mpr (.inr (.inl ?_))⟩
  intro text file htext hfile
  have hx : firstValue? refused "data" = some "x" := by decide +kernel
  have hasked : firstValue? refused "encoding" = some "base64" := by decide +kernel
  rw [hx, Option.some.injEq] at htext
  subst htext
  rw [StandsFor, if_pos hasked] at hfile
  have hread : Base64.decode (Utf8.encode "x") = .error (.length 1) := by decide +kernel
  exact absurd hfile (Base64.not_isTextOf_of_decode hread file)

/-- A name of one double quote is a name when it is asked for, and no longer when it is offered. -/
theorem quote_offered_nameless :
    let sources := [Utf8.encode "filename=%22&data=x"]
    let nameless : Download := ⟨"", "application/octet-stream", [0x78]⟩
    ofForms sources = .ok nameless ∧ nameless.disposition = "attachment; filename=\"\"" ∧
      ¬ ∀ sources d, ofForms sources = .ok d → d.filename ≠ "" := by
  intro sources nameless
  have hmade : ofForms sources = .ok nameless := by decide +kernel
  exact ⟨hmade, by decide +kernel, fun hnever => hnever sources nameless hmade rfl⟩

end LiveDiagram.Download
