import LiveDiagram.Proofs.Http.Routes
import LiveDiagram.Proofs.Json.Truncation

/-!
# Uploads that were cut short

A body may end before its time, when a connection breaks or a length is announced too small.  What
has arrived is then no write and no preferences, wherever it was cut: in a text, between the bytes of
a character, in an escape, in a number or in a member that is only passed over.  A write takes
defaults for the fields it does not find, and still it does not take a part of itself for the whole.

## Main results

* `cut_upload_law`: an upload that is not whole is refused, and changes nothing.
-/

namespace LiveDiagram

open LiveDiagram.Json

/-! ## Writes and preferences -/

section

variable {kept lost : Bytes}

/-- A write that was cut short is refused. -/
theorem WriteRequest.exists_error_of_cut {w : WriteRequest}
    (haccepted : WriteRequest.parse (kept ++ lost) = .ok w) (hlost : ∃ b ∈ lost, isBlank b = false) :
    ∃ e, WriteRequest.parse kept = .error e := by
  cases hfields : WriteRequest.shape.parse (kept ++ lost) with
  | error e =>
      rw [WriteRequest.parse, hfields] at haccepted
      cases haccepted
  | ok fields =>
      obtain ⟨e, he⟩ := WriteRequest.shape.exists_error_of_cut hfields hlost
      refine ⟨e, ?_⟩
      rw [WriteRequest.parse, he]
      rfl

/-- What is stored is an object. -/
theorem Preferences.exists_members_of_saveRaw {p : Preferences} {t : FileTree} {body : Bytes}
    (haccepted : (p.saveRaw t body).1 = .ok ()) : ∃ m, Members.parse body = .ok m := by
  cases hbody : Members.parse body with
  | ok m => exact ⟨m, rfl⟩
  | error e =>
      rw [Preferences.saveRaw, hbody] at haccepted
      cases haccepted

/-- Preferences that were cut short are refused, for every directory and whatever is stored. -/
theorem Preferences.exists_error_of_cut {m : Members}
    (haccepted : Members.parse (kept ++ lost) = .ok m) (hlost : ∃ b ∈ lost, isBlank b = false) :
    ∃ e, ∀ (p : Preferences) (t : FileTree), p.saveRaw t kept = (.error (.invalidJson e), t) := by
  obtain ⟨e, he⟩ := Members.exists_error_of_cut haccepted hlost
  refine ⟨e, fun p t => ?_⟩
  rw [Preferences.saveRaw, he]

end

/-! ## Requests -/

namespace Gateway

/-- A request whose body was refused. -/
structure Refuses (g : Gateway) (r : Request) (e : Json.Error) : Prop where
  answer : (g.handle r).1 = .response (.failure (.invalidJson e))
  status : (Response.failure (.invalidJson e)).status = 400
  unchanged : (g.handle r).2 = g

/-- **An upload that was cut short never lands.**  Of a body that is accepted, as a write or as
preferences, let more than blanks be missing at the end.  What is left is refused as invalid, and a
request with it is answered as a bad request: text, version and queues stay as they are, and so do
the files. -/
theorem cut_upload_law {kept lost : Bytes} (hlost : ∃ b ∈ lost, isBlank b = false) :
    ((∃ w, WriteRequest.parse (kept ++ lost) = .ok w) →
      ∃ e, WriteRequest.parse kept = .error e ∧
        ∀ (g : Gateway) (r : Request), g.triggered = false → r.method = "PUT" →
          r.path = "/api/diagram" → r.body = kept → g.Refuses r e) ∧
    ((∃ (p : Preferences) (t : FileTree), (p.saveRaw t (kept ++ lost)).1 = .ok ()) →
      ∃ e, (∀ (p : Preferences) (t : FileTree), p.saveRaw t kept = (.error (.invalidJson e), t)) ∧
        ∀ (g : Gateway) (r : Request), g.triggered = false → r.method = "PUT" →
          r.path = "/api/preferences" → r.body = kept → g.Refuses r e) := by
  constructor
  · rintro ⟨w, hw⟩
    obtain ⟨e, he⟩ := WriteRequest.exists_error_of_cut hw hlost
    refine ⟨e, he, ?_⟩
    intro g r hopen hmethod hpath hbody
    have hhandle := handle_writeDocument hopen
      (Request.route_eq_writeDocument_iff.mpr ⟨hmethod, hpath⟩)
    rw [hbody, writeDocument, he] at hhandle
    exact ⟨congrArg Prod.fst hhandle, rfl, congrArg Prod.snd hhandle⟩
  · rintro ⟨p, t, hsaved⟩
    obtain ⟨m, hm⟩ := Preferences.exists_members_of_saveRaw hsaved
    obtain ⟨e, he⟩ := Preferences.exists_error_of_cut hm hlost
    refine ⟨e, he, ?_⟩
    intro g r hopen hmethod hpath hbody
    have hhandle := handle_writePreferences hopen
      (Request.route_eq_writePreferences_iff.mpr ⟨hmethod, hpath⟩)
    rw [hbody, writePreferences, he] at hhandle
    exact ⟨congrArg Prod.fst hhandle, rfl, congrArg Prod.snd hhandle⟩

/-- A body that was cut between the two bytes of a character. -/
theorem cut_upload_law_half_character :
    let body := Utf8.encode "\x7b\"content\":\"é\"\x7d"
    let g := Gateway.new (.new "precious" 16) .empty ⟨[]⟩
    let write : Request := ⟨"PUT", "/api/diagram", body.take 13⟩
    let settings : Request := ⟨"PUT", "/api/preferences", body.take 13⟩
    (∃ b ∈ body.drop 13, isBlank b = false) ∧ (∃ w, WriteRequest.parse body = .ok w) ∧
      (∃ (p : Preferences) (t : FileTree), (p.saveRaw t body).1 = .ok ()) ∧
      write.path = "/api/diagram" ∧ settings.path = "/api/preferences" ∧
      (∃ e, WriteRequest.parse (body.take 13) = .error e ∧ g.Refuses write e) ∧
      ∃ e, g.preferences.saveRaw g.files (body.take 13) = (.error (.invalidJson e), g.files) ∧
        g.Refuses settings e := by
  intro body g write settings
  have hlost : ∃ b ∈ body.drop 13, isBlank b = false :=
    ⟨Ascii.closeBrace, by decide +kernel, by decide⟩
  have hwrite : ∃ w, WriteRequest.parse (body.take 13 ++ body.drop 13) = .ok w :=
    ⟨⟨"é", none⟩, by rfl⟩
  have hsaved : ∃ (p : Preferences) (t : FileTree),
      (p.saveRaw t (body.take 13 ++ body.drop 13)).1 = .ok () := ⟨⟨⟨[]⟩⟩, .empty, by rfl⟩
  have hdiagram : write.path = "/api/diagram" := by decide +kernel
  have hsettings : settings.path = "/api/preferences" := by decide +kernel
  obtain ⟨hdocument, hpreferences⟩ := cut_upload_law hlost
  obtain ⟨e, he, hrefused⟩ := hdocument hwrite
  obtain ⟨e', he', hrefused'⟩ := hpreferences hsaved
  rw [List.take_append_drop] at hwrite hsaved
  exact ⟨hlost, hwrite, hsaved, hdiagram, hsettings,
    ⟨e, he, hrefused g write rfl rfl hdiagram rfl⟩,
    ⟨e', he' _ _, hrefused' g settings rfl rfl hsettings rfl⟩⟩

end Gateway

end LiveDiagram
