import LiveDiagram.Proofs.Download.Disposition
import LiveDiagram.Proofs.Http.Routes

/-!
# The headers of a download

What a client names and types goes into two headers of the answer.  Neither can be broken by it: what
is left of a name when it has been cleaned stands between quotes as it is, and a foreign character
stands there as an underscore and, behind an escape, in a second parameter.

A receiver finds the name again, and so two names are never offered in the same words.

## Main results

* `Download.tidy_of_ofForms`: what a form can leave in a name and in a type.
* `Download.read_disposition`: what a receiver reads.
* `Download.headers_law`: the headers are safe and faithful.
-/

namespace LiveDiagram.Download

open LiveDiagram.Ascii LiveDiagram.Disposition

/-! ## What forms leave -/

/-- Nothing in a name or a type can end or break a header. -/
structure Tidy (d : Download) : Prop where
  contentType : ∀ c ∈ d.contentType.toList, isPrintable c = true
  filename : ∀ c ∈ d.filename.toList, isControl c = false ∧ c ≠ '"' ∧ c ≠ '\\'

theorem of_mem_clean {name : String} {c : Char} (hc : c ∈ (clean name).toList) :
    isControl c = false ∧ c ≠ '"' ∧ c ≠ '\\' := by
  rw [clean, String.toList_ofList, List.mem_filter] at hc
  simpa [and_assoc] using hc.2

theorem tidy_of_ofForms {sources : List Bytes} {d : Download} (h : ofForms sources = .ok d) :
    d.Tidy := by
  unfold ofForms ofFields at h
  split at h
  · next filename data hfilename hdata =>
      dsimp only at h
      split at h
      · next htype =>
          have hbody : ∀ body : Except Fault Bytes,
              (body.map fun b => Download.mk (clean filename) ((Form.nonEmpty?
                (sources.flatMap Form.parse) "content_type").getD defaultContentType) b) = .ok d →
                  d.Tidy := by
            intro body hd
            cases body with
            | error f => cases hd
            | ok b =>
                cases hd
                exact ⟨List.all_eq_true.mp htype, fun c hc => of_mem_clean hc⟩
          exact hbody _ h
      · cases h
  · cases h

/-! ## The plain name -/

/-- The name with an underscore for each foreign character. -/
def plainName (d : Download) : String :=
  String.ofList (d.filename.toList.map fun c => if isAscii c then c else '_')

theorem plainName_of_isAscii {d : Download} (h : ∀ c ∈ d.filename.toList, isAscii c = true) :
    d.plainName = d.filename := by
  have hmap : (d.filename.toList.map fun c => if isAscii c then c else '_') = d.filename.toList := by
    rw [List.map_congr_left (g := id) fun c hc => by rw [if_pos (h c hc)]; rfl, List.map_id]
  rw [plainName, hmap, String.ofList_toList]

/-- What is left of a name in ASCII is printable. -/
theorem isPrintable_of_isAscii {c : Char} (hascii : isAscii c = true)
    (hcontrol : isControl c = false) : isPrintable c = true := by
  simp only [isAscii, decide_eq_true_eq] at hascii
  simp only [isControl, Bool.or_eq_false_iff, decide_eq_false_iff_not, Bool.and_eq_false_iff]
    at hcontrol
  simp only [isPrintable, Bool.and_eq_true, decide_eq_true_eq]
  omega

theorem isQuotedCharacter_of_isPrintable {c : Char} (h : isPrintable c = true) (hquote : c ≠ '"')
    (hbackslash : c ≠ '\\') : isQuotedCharacter c = true := by
  simp only [isPrintable] at h
  simp only [isQuotedCharacter, h, Bool.true_and, Bool.or_eq_true, Bool.and_eq_true, bne_iff_ne]
  exact Or.inr ⟨hquote, hbackslash⟩

/-- The plain name is printable, and stands between quotes as it is. -/
theorem Tidy.of_mem_plainName {d : Download} (h : d.Tidy) :
    ∀ c ∈ d.plainName.toList, isPrintable c = true ∧ isQuotedCharacter c = true := by
  intro c hc
  rw [plainName, String.toList_ofList] at hc
  obtain ⟨b, hb, rfl⟩ := List.mem_map.mp hc
  obtain ⟨hcontrol, hquote, hbackslash⟩ := h.filename b hb
  by_cases hascii : isAscii b = true
  · rw [if_pos hascii]
    have hprintable := isPrintable_of_isAscii hascii hcontrol
    exact ⟨hprintable, isQuotedCharacter_of_isPrintable hprintable hquote hbackslash⟩
  · rw [if_neg hascii]
    decide

/-! ## The escaped name -/

/-- The name as it stands in the extended parameter. -/
def escapedName (d : Download) : String :=
  Percent.encode isAttributeByte d.filename

theorem isAttributeCharacter_of_isAttributeByte {b : UInt8} (h : isAttributeByte b = true) :
    isAttributeCharacter (Char.ofNat b.toNat) = true := by
  refine forall_lt (k := 0x100) (P := fun b => isAttributeByte b = true →
    isAttributeCharacter (Char.ofNat b.toNat) = true) ?_ b.toNat_lt h
  decide +kernel

theorem isHexDigit_upperHexDigit {n : Nat} (h : n < 16) :
    isHexDigit (Char.ofNat (upperHexDigit n).toNat) = true := by
  have all : ∀ n < 16, isHexDigit (Char.ofNat (upperHexDigit n).toNat) = true := by decide
  exact all n h

theorem extended_escape (s : Bytes) :
    Extended ((Percent.escape isAttributeByte s).map fun x => Char.ofNat x.toNat) := by
  induction s with
  | nil => exact .nil
  | cons b s ih =>
      have hcons : Percent.escape isAttributeByte (b :: s) =
          Percent.escapeByte isAttributeByte b ++ Percent.escape isAttributeByte s := rfl
      have hb := b.toNat_lt
      rw [hcons, Percent.escapeByte]
      split
      · next hplain => exact .plain (isAttributeCharacter_of_isAttributeByte hplain) ih
      · exact .escape (isHexDigit_upperHexDigit (by omega)) (isHexDigit_upperHexDigit (by omega)) ih

theorem extended_escapedName (d : Download) : Extended d.escapedName.toList := by
  rw [escapedName, Percent.encode, text, String.toList_ofList]
  exact extended_escape _

/-- The bytes of an escaped name are ASCII. -/
theorem lt_of_mem_escape {s : Bytes} {x : UInt8} (hx : x ∈ Percent.escape isAttributeByte s) :
    x.toNat < 0x80 := by
  have hattribute : ∀ b : UInt8, isAttributeByte b = true → b.toNat < 0x80 := by
    intro b hb
    refine forall_lt (k := 0x100) (P := fun b => isAttributeByte b = true → b.toNat < 0x80) ?_
      b.toNat_lt hb
    decide +kernel
  have hdigit : ∀ n < 16, (upperHexDigit n).toNat < 0x80 := by decide
  obtain ⟨b, -, hb⟩ := List.mem_flatMap.mp hx
  have hlt := b.toNat_lt
  rw [Percent.escapeByte] at hb
  split at hb
  · next hplain =>
      rw [List.mem_singleton.mp hb]
      exact hattribute b hplain
  · simp only [List.mem_cons, List.not_mem_nil, or_false] at hb
    rcases hb with rfl | rfl | rfl
    · decide
    · exact hdigit _ (by omega)
    · exact hdigit _ (by omega)

/-- The name comes back out of its escapes. -/
theorem decode_escapedName (d : Download) :
    Utf8.decode? (Percent.decode (Utf8.encode d.escapedName)) = some d.filename := by
  rw [escapedName, Percent.encode, encode_text fun x hx => lt_of_mem_escape hx,
    Percent.decode_escape (by decide +kernel), Utf8.decode?_encode]

/-- Letters and digits lie between the first digit and the last letter. -/
theorem bounds_of_isAlphanum {c : Char} (h : c.isAlphanum = true) :
    0x30 ≤ c.toNat ∧ c.toNat ≤ 0x7A := by
  have hupper : c.isUpper = true → 0x41 ≤ c.toNat ∧ c.toNat ≤ 0x5A := of_decide_eq_true
  have hlower : c.isLower = true → 0x61 ≤ c.toNat ∧ c.toNat ≤ 0x7A := fun h =>
    (Bool.and_eq_true_iff.mp h).imp of_decide_eq_true of_decide_eq_true
  have hdigit : c.isDigit = true → 0x30 ≤ c.toNat ∧ c.toNat ≤ 0x39 := fun h =>
    (Bool.and_eq_true_iff.mp h).imp of_decide_eq_true of_decide_eq_true
  rcases Bool.or_eq_true_iff.mp h with hletter | h
  · rcases Bool.or_eq_true_iff.mp hletter with h | h
    · have hbounds := hupper h
      omega
    · have hbounds := hlower h
      omega
  · have hbounds := hdigit h
    omega

theorem isPrintable_of_isTokenCharacter {c : Char} (h : isTokenCharacter c = true) :
    isPrintable c = true := by
  have hsigns : ∀ c ∈ "!#$%&'*+-.^_\x60|~".toList, isPrintable c = true :=
    List.all_eq_true.mp (by decide)
  rcases Bool.or_eq_true_iff.mp h with h | h
  · have hbounds := bounds_of_isAlphanum h
    simp only [isPrintable, Bool.and_eq_true, decide_eq_true_eq]
    omega
  · exact hsigns c (List.contains_iff_mem.mp h)

theorem isTokenCharacter_of_isAttributeCharacter {c : Char} (h : isAttributeCharacter c = true) :
    isTokenCharacter c = true := by
  have hsigns : ∀ c ∈ "!#$&+-.^_\x60|~".toList, isTokenCharacter c = true :=
    List.all_eq_true.mp (by decide)
  rcases Bool.or_eq_true_iff.mp h with h | h
  · rw [isTokenCharacter, h, Bool.true_or]
  · exact hsigns c (List.contains_iff_mem.mp h)

theorem isTokenCharacter_of_isHexDigit {c : Char} (h : isHexDigit c = true) :
    isTokenCharacter c = true := by
  have hletters : ∀ c ∈ "ABCDEFabcdef".toList, isTokenCharacter c = true :=
    List.all_eq_true.mp (by decide)
  rcases Bool.or_eq_true_iff.mp h with h | h
  · rw [isTokenCharacter, Char.isAlphanum, h, Bool.or_true, Bool.true_or]
  · exact hletters c (List.contains_iff_mem.mp h)

/-- An extended value is one word. -/
theorem isTokenCharacter_of_extended {s : List Char} (h : Extended s) :
    ∀ c ∈ s, isTokenCharacter c = true := by
  induction h with
  | nil =>
      intro c hc
      cases hc
  | plain hplain hrest ih =>
      rw [List.forall_mem_cons]
      exact ⟨isTokenCharacter_of_isAttributeCharacter hplain, ih⟩
  | escape hhigh hlow hrest ih =>
      rw [List.forall_mem_cons, List.forall_mem_cons, List.forall_mem_cons]
      exact ⟨by decide, isTokenCharacter_of_isHexDigit hhigh, isTokenCharacter_of_isHexDigit hlow, ih⟩

/-! ## What is read -/

theorem isTokenCharacter_of_mem_attachment :
    ∀ c ∈ "attachment".toList, isTokenCharacter c = true :=
  List.all_eq_true.mp (by decide)

theorem isTokenCharacter_of_mem_filename : ∀ c ∈ "filename".toList, isTokenCharacter c = true :=
  List.all_eq_true.mp (by decide)

theorem isTokenCharacter_of_mem_extendedFilename :
    ∀ c ∈ "filename*".toList, isTokenCharacter c = true :=
  List.all_eq_true.mp (by decide)

/-- The parameter that gives a foreign name exactly. -/
def extendedParameters (d : Download) : List Parameter :=
  if d.filename.toList.all isAscii then []
  else [("filename*", .token (charset ++ d.escapedName))]

/-- The characters of that parameter. -/
def extendedText (d : Download) : List Char :=
  if d.filename.toList.all isAscii then []
  else ';' :: ' ' :: ("filename*".toList ++ '=' :: (charset ++ d.escapedName).toList)

theorem toList_disposition (d : Download) :
    d.disposition.toList = "attachment".toList ++ ';' :: ' ' :: ("filename".toList ++ '=' :: '"' ::
      (d.plainName.toList ++ '"' :: d.extendedText)) := by
  rw [disposition, extendedText]
  split
  · next hascii =>
      rw [plainName_of_isAscii (List.all_eq_true.mp hascii), String.toList_append,
        String.toList_append, List.append_assoc]
      rfl
  · rw [plainName, escapedName]
    simp only [String.toList_append, List.append_assoc]
    rfl

theorem isTokenCharacter_of_mem_charset (d : Download) :
    ∀ c ∈ (charset ++ d.escapedName).toList, isTokenCharacter c = true := by
  have hcharset : ∀ c ∈ charset.toList, isTokenCharacter c = true :=
    List.all_eq_true.mp (by decide)
  intro c hc
  rw [String.toList_append, List.mem_append] at hc
  rcases hc with hc | hc
  · exact hcharset c hc
  · exact isTokenCharacter_of_extended d.extended_escapedName c hc

/-- No blank stands in front of a name. -/
theorem isBlank_of_head? (s : List Char) :
    ∀ c ∈ ("filename".toList ++ s).head?, isBlank c = false := by
  intro c hc
  obtain rfl : 'f' = c := Option.some.inj hc
  decide

theorem readParameters_extendedText (d : Download) :
    readParameters d.extendedText = some d.extendedParameters := by
  rw [extendedText, extendedParameters]
  split
  · exact readParameters_nil
  · have hword : (charset ++ d.escapedName).toList ≠ [] := by
      rw [String.toList_append]
      exact List.append_ne_nil_of_left_ne_nil (by decide) _
    have hvalue : readValue (charset ++ d.escapedName).toList =
        some (.token (charset ++ d.escapedName), []) := by
      have hread := readValue_token hword d.isTokenCharacter_of_mem_charset
        (fun c (hc : c ∈ [].head?) => by cases hc)
      rwa [List.append_nil, String.ofList_toList] at hread
    have hfront : ∀ c ∈ ("filename*".toList ++ '=' :: (charset ++ d.escapedName).toList).head?,
        isBlank c = false := isBlank_of_head? ('*' :: _)
    have hread := readParameter_of_value (by decide) isTokenCharacter_of_mem_extendedFilename hvalue
    rw [readParameters_cons hfront hread, readParameters_nil]
    rfl

/-- **What a receiver reads**: the word that says what to do with the file, the plain name between
quotes, and the exact name if it is not ASCII. -/
theorem read_disposition {d : Download} (h : d.Tidy) :
    read d.disposition =
      some ⟨"attachment", ("filename", .quoted d.plainName) :: d.extendedParameters⟩ := by
  have hword := isTokenCharacter_of_mem_attachment
  have hquoted := readValue_quoted (fun c hc => (h.of_mem_plainName c hc).2) d.extendedText
  have hparameter := readParameter_of_value (by decide) isTokenCharacter_of_mem_filename hquoted
  rw [String.ofList_toList, String.ofList_toList] at hparameter
  have hstop : ∀ s, ∀ c ∈ (';' :: s).head?, isTokenCharacter c = false := by
    intro s c hc
    obtain rfl : ';' = c := Option.some.inj hc
    decide
  rw [Disposition.read, toList_disposition, takeWhile_append_of_stop hword (hstop _),
    dropWhile_append_of_stop hword (hstop _), if_neg (by decide),
    readParameters_cons (isBlank_of_head? _) hparameter, readParameters_extendedText]
  rfl

theorem extendedText?_charset (s : String) :
    extendedText? (charset ++ s) = Utf8.decode? (Percent.decode (Utf8.encode s)) := by
  have hprefix : charset.toList.isPrefixOf (charset ++ s).toList = true := by
    rw [String.toList_append]
    exact List.isPrefixOf_iff_prefix.mpr (List.prefix_append _ _)
  have hdrop : (charset ++ s).toList.drop charset.length = s.toList := by
    rw [String.toList_append]
    exact List.drop_left
  rw [extendedText?, if_pos hprefix, hdrop, String.ofList_toList]

/-- A receiver takes the name that was meant. -/
theorem filename?_disposition {d : Download} (h : d.Tidy) :
    (Disposition.read d.disposition).bind Header.filename? = some d.filename := by
  rw [read_disposition h, extendedParameters, Option.bind_some]
  split
  · next hascii =>
      rw [← plainName_of_isAscii (List.all_eq_true.mp hascii)]
      rfl
  · have hname : Header.filename? ⟨"attachment", [("filename", .quoted d.plainName),
        ("filename*", .token (charset ++ d.escapedName))]⟩ =
          extendedText? (charset ++ d.escapedName) := rfl
    rw [hname, extendedText?_charset, decode_escapedName]

/-! ## The law -/

theorem isPrintable_of_mem_extendedText {d : Download} {c : Char} (hc : c ∈ d.extendedText) :
    isPrintable c = true := by
  rw [extendedText] at hc
  split at hc
  · cases hc
  · simp only [List.mem_cons, List.mem_append] at hc
    rcases hc with rfl | rfl | hc | rfl | hc
    · decide
    · decide
    · exact isPrintable_of_isTokenCharacter (isTokenCharacter_of_mem_extendedFilename c hc)
    · decide
    · exact isPrintable_of_isTokenCharacter (d.isTokenCharacter_of_mem_charset c hc)

theorem Tidy.isPrintable_disposition {d : Download} (h : d.Tidy) :
    ∀ c ∈ d.disposition.toList, isPrintable c = true := by
  intro c hc
  rw [toList_disposition] at hc
  simp only [List.mem_cons, List.mem_append] at hc
  rcases hc with hc | rfl | rfl | hc | rfl | rfl | hc | rfl | hc
  · exact isPrintable_of_isTokenCharacter (isTokenCharacter_of_mem_attachment c hc)
  · decide
  · decide
  · exact isPrintable_of_isTokenCharacter (isTokenCharacter_of_mem_filename c hc)
  · decide
  · decide
  · exact (h.of_mem_plainName c hc).1
  · decide
  · exact isPrintable_of_mem_extendedText hc

theorem isAscii_of_isPrintable {c : Char} (h : isPrintable c = true) : isAscii c = true := by
  simp only [isPrintable, Bool.and_eq_true, decide_eq_true_eq] at h
  simp only [isAscii, decide_eq_true_eq]
  omega

/-- The answer that offers a file. -/
def answer (d : Download) : Response :=
  ⟨200, some d.contentType, some d.disposition, d.body⟩

/-- Where every text in ASCII is accepted as a header, a tidy file is offered. -/
theorem Tidy.offer_eq {d : Download} (h : d.Tidy) {accepts : String → Bool}
    (haccepts : ∀ v : String, (∀ c ∈ v.toList, isAscii c = true) → accepts v = true) :
    Response.offer accepts d = d.answer := by
  have htype := haccepts d.contentType fun c hc => isAscii_of_isPrintable (h.contentType c hc)
  have hdisposition := haccepts d.disposition fun c hc =>
    isAscii_of_isPrintable (h.isPrintable_disposition c hc)
  rw [Response.offer]
  simp only [Response.headerValue, htype, hdisposition, if_true]
  rfl

/-- **The headers of a download are safe and faithful.**  For every list of forms that makes a file:

* its type and its disposition are printable ASCII;
* wherever every text in ASCII is accepted as a header, the file is offered under both, and so it is
  by the gateway, to a request of which the body and the query make the file;
* a receiver reads the disposition as an attachment with one quoted name; only if the name is not
  ASCII, and then always, an extended one stands behind it, spelled in characters that need no escape
  and in escapes;
* the name is found again: between the quotes if it is ASCII, else in the extended parameter;
* two files with different names are never offered in the same words. -/
theorem headers_law {sources : List Bytes} {d : Download} (h : ofForms sources = .ok d) :
    (∀ c ∈ d.contentType.toList ++ d.disposition.toList, isPrintable c = true) ∧
    (∀ accepts : String → Bool,
      (∀ v : String, (∀ c ∈ v.toList, isAscii c = true) → accepts v = true) →
        Response.offer accepts d = d.answer) ∧
    (∀ (g : Gateway) (r : Request), g.triggered = false → r.method = "POST" →
      r.path = "/api/download" → sources = [r.body, Utf8.encode r.query] →
        g.handle r = (.response d.answer, g)) ∧
    ((∀ c ∈ d.filename.toList, isAscii c = true) →
      Disposition.read d.disposition = some ⟨"attachment", [("filename", .quoted d.filename)]⟩) ∧
    (¬ (∀ c ∈ d.filename.toList, isAscii c = true) → ∃ plain escaped,
      Disposition.read d.disposition = some ⟨"attachment",
        [("filename", .quoted plain), ("filename*", .token (charset ++ escaped))]⟩ ∧
      Extended escaped.toList ∧
      Utf8.decode? (Percent.decode (Utf8.encode escaped)) = some d.filename) ∧
    (Disposition.read d.disposition).bind Header.filename? = some d.filename ∧
    ∀ sources' d', ofForms sources' = .ok d' → d'.disposition = d.disposition →
      d'.filename = d.filename := by
  have htidy := tidy_of_ofForms h
  refine ⟨?_, fun accepts => htidy.offer_eq, ?_, ?_, ?_, filename?_disposition htidy, ?_⟩
  · intro c hc
    rcases List.mem_append.mp hc with hc | hc
    · exact htidy.contentType c hc
    · exact htidy.isPrintable_disposition c hc
  · intro g r hopen hmethod hpath hsources
    have hroute := Request.route_eq_download_iff.mpr ⟨hmethod, hpath⟩
    have hoffer : Response.offer Response.isHeaderText d = d.answer :=
      htidy.offer_eq fun v hv => List.all_eq_true.mpr hv
    rw [hsources] at h
    simp only [Gateway.handle, hopen, hroute, Gateway.download, h, hoffer, Bool.false_eq_true,
      if_false]
  · intro hascii
    rw [read_disposition htidy, extendedParameters, if_pos (List.all_eq_true.mpr hascii),
      plainName_of_isAscii hascii]
  · intro hforeign
    refine ⟨d.plainName, d.escapedName, ?_, d.extended_escapedName, d.decode_escapedName⟩
    rw [read_disposition htidy, extendedParameters,
      if_neg fun hall => hforeign (List.all_eq_true.mp hall)]
  · intro sources' d' h' hsame
    have hname := filename?_disposition (tidy_of_ofForms h')
    rw [hsame, filename?_disposition htidy] at hname
    exact (Option.some.inj hname).symm

/-- A name with a quote and a foreign letter, and one with neither. -/
theorem headers_law_foreign_letter :
    let body := Utf8.encode "filename=a%22%C3%A9.svg&data=x"
    let other := Utf8.encode "filename=a.svg&data=x"
    let foreign : Download := ⟨"aé.svg", "application/octet-stream", [0x78]⟩
    let plain : Download := ⟨"a.svg", "application/octet-stream", [0x78]⟩
    let g := Gateway.new (.new "precious" 16) .empty ⟨[]⟩
    let r : Request := ⟨"POST", "/api/download", body⟩
    ofForms [r.body, Utf8.encode r.query] = .ok foreign ∧ ofForms [other] = .ok plain ∧
      g.triggered = false ∧ r.path = "/api/download" ∧ g.handle r = (.response foreign.answer, g) ∧
      Response.offer Response.isHeaderText foreign = foreign.answer ∧
      ¬ (∀ c ∈ foreign.filename.toList, isAscii c = true) ∧
      (∃ name escaped, Disposition.read foreign.disposition = some ⟨"attachment",
          [("filename", .quoted name), ("filename*", .token (charset ++ escaped))]⟩ ∧
        Extended escaped.toList ∧
        Utf8.decode? (Percent.decode (Utf8.encode escaped)) = some "aé.svg") ∧
      (∀ c ∈ plain.filename.toList, isAscii c = true) ∧
      Disposition.read plain.disposition = some ⟨"attachment", [("filename", .quoted "a.svg")]⟩ := by
  intro body other foreign plain g r
  have hforeign : ofForms [r.body, Utf8.encode r.query] = .ok foreign := by decide +kernel
  have hplain : ofForms [other] = .ok plain := by decide +kernel
  have hpath : r.path = "/api/download" := by decide +kernel
  have hletter : ¬ (∀ c ∈ foreign.filename.toList, isAscii c = true) := fun hall =>
    absurd (List.all_eq_true.mpr hall) (by decide)
  have hascii : ∀ c ∈ plain.filename.toList, isAscii c = true := List.all_eq_true.mp (by decide)
  obtain ⟨-, hoffer, hhandle, -, hread, -, -⟩ := headers_law hforeign
  exact ⟨hforeign, hplain, rfl, hpath, hhandle g r rfl rfl hpath rfl,
    hoffer _ fun v hv => List.all_eq_true.mpr hv, hletter, hread hletter, hascii,
    (headers_law hplain).2.2.2.1 hascii⟩

end LiveDiagram.Download
