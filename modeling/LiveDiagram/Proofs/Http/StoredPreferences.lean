import LiveDiagram.Proofs.Files.Saving
import LiveDiagram.Proofs.Http.Routes

/-!
# Preferences over HTTP

A save that fails is answered as a failure and can be seen nowhere else: no file has changed, and
getting the preferences gives what it gave before.  What may be left in the state directory's place are
directories that were to hold it.

Getting the preferences never fails.  It gives the bytes of the file, and only if there are none that
can be read, an empty object: nobody asks whether the bytes are an object, so a file that was damaged
is handed on as it is.

## Main results

* `Gateway.save_law`: what a request to save does to the files, whether it succeeds or not.
* `Gateway.stored_text_law`: what a request for the preferences is answered with.
-/

namespace LiveDiagram

open LiveDiagram.Json LiveDiagram.FileTree

namespace Gateway

/-! ## Reading -/

/-- What can be read is given as it is. -/
theorem readPreferences_of_read {g : Gateway} {data : Bytes}
    (h : g.files.read g.preferences.path = .ok data) : g.readPreferences = .json data := by
  simp only [readPreferences, Preferences.loadRaw, h]

/-- In place of what cannot be read there is an empty object. -/
theorem readPreferences_of_unreadable {g : Gateway}
    (h : ∀ data, g.files.read g.preferences.path ≠ .ok data) :
    g.readPreferences = .json Preferences.unsaved := by
  unfold readPreferences Preferences.loadRaw
  cases hread : g.files.read g.preferences.path with
  | ok data => exact absurd hread (h data)
  | error e => cases e <;> rfl

/-! ## Saving -/

/-- A save that fails is answered with the status of the failure. -/
theorem status_writePreferences {g : Gateway} {body : Bytes} {e : Error} {t : FileTree}
    (h : g.preferences.saveRaw g.files body = (.error e, t)) :
    (g.writePreferences body).1.status = e.status ∧ (e.status = 400 ∨ e.status = 500) := by
  unfold writePreferences
  rw [h]
  rcases Preferences.saveRaw_eq_error h with ⟨cause, rfl, -⟩ | ⟨m, hsave⟩
  · exact ⟨rfl, .inl rfl⟩
  · obtain ⟨cause, rfl, -⟩ := Preferences.save_eq_error hsave
    exact ⟨rfl, .inr rfl⟩

/-- After a save that failed, the preferences are what they were. -/
theorem readPreferences_of_refused {g : Gateway} {body : Bytes} {e : Error} {t : FileTree}
    (h : g.preferences.saveRaw g.files body = (.error e, t)) :
    readPreferences { g with files := t } = g.readPreferences := by
  rcases Preferences.saveRaw_eq_error h with ⟨cause, rfl, rfl⟩ | ⟨m, hsave⟩
  · rfl
  · have hunreadable := Preferences.read_ne_ok_of_save_eq_error hsave
    rw [readPreferences_of_unreadable fun data => (hunreadable data).1,
      readPreferences_of_unreadable fun data => (hunreadable data).2]

/-- **Saving preferences**, at any path of the state directory and in any tree, with any body.

If it fails, the answer has status 400 or 500, getting the preferences gives what it gave before, and no
file is made, changed or taken away.  At most, directories are new, on the way to the state directory,
and even they only if something in the path is too long or the path turns back behind a missing
directory; never if the body is at fault.

If it succeeds, the file holds the text of the object, which is what is loaded then, and nothing else
has changed but that missing directories on the way have been made. -/
theorem save_law {g : Gateway} {put get : Request} (hopen : g.triggered = false)
    (hput : put.method = "PUT" ∧ put.path = "/api/preferences")
    (hget : get.method = "GET" ∧ get.path = "/api/preferences") (htree : g.files.IsTree) :
    let p := g.preferences
    let t := g.files
    let g' := (g.handle put).2
    let t' := g'.files
    (p.saveRaw t put.body).2 = t' ∧ t'.IsTree ∧
    (∀ e, (p.saveRaw t put.body).1 = .error e →
      (∃ x, (g.handle put).1 = .response x ∧ x.status = e.status ∧
        (x.status = 400 ∨ x.status = 500)) ∧
      (g'.handle get).1 = (g.handle get).1 ∧
      t'.contents = t.contents ∧ Adds (OnTheWay t' p.directory) t t' ∧
      (t' = t ∨ ∃ cause, e = .io cause ∧ (cause = .nameTooLong ∨ t.TurnsBack p.directory))) ∧
    ((p.saveRaw t put.body).1 = .ok () →
      ∃ m l number, Members.parse put.body = .ok m ∧ p.loadRaw t' = .ok m.write ∧
        t'.resolve p.path = .ok l ∧ t.lookup l ≠ some .directory ∧
        t'.lookup l = some (.file number m.write) ∧
        ∀ k, k ≠ l → t'.lookup k = t.lookup k ∨
          t.lookup k = none ∧ t'.lookup k = some .directory ∧ OnTheWay t' p.directory k) := by
  intro p t g' t'
  have hhandle := handle_writePreferences hopen (Request.route_eq_writePreferences_iff.mpr hput)
  have hg' : g' = { g with files := (p.saveRaw t put.body).2 } := congrArg Prod.snd hhandle
  have hfiles : (p.saveRaw t put.body).2 = t' := congrArg Gateway.files hg'.symm
  refine ⟨hfiles, hfiles ▸ Preferences.isTree_saveRaw htree p put.body, ?_, ?_⟩
  · intro e he
    have hsave : p.saveRaw t put.body = (.error e, t') := Prod.ext he hfiles
    obtain ⟨hstatus, hcodes⟩ := status_writePreferences hsave
    refine ⟨⟨_, congrArg Prod.fst hhandle, hstatus, hstatus ▸ hcodes⟩, ?_,
      Preferences.contents_of_refused hsave, ?_, ?_⟩
    · have hroute := Request.route_eq_readPreferences_iff.mpr hget
      have hopen' : g'.triggered = false := hg' ▸ hopen
      rw [handle_readPreferences hopen hroute, handle_readPreferences hopen' hroute, hg', hfiles,
        readPreferences_of_refused hsave]
    · rcases Preferences.saveRaw_eq_error hsave with ⟨cause, -, hsame⟩ | ⟨m, hfailed⟩
      · rw [hsame]
        exact .refl t
      · exact Preferences.adds_of_save_eq_error hfailed
    · rcases Preferences.saveRaw_eq_error hsave with ⟨cause, -, hsame⟩ | ⟨m, hfailed⟩
      · exact .inl hsame
      · obtain ⟨cause, rfl, -⟩ := Preferences.save_eq_error hfailed
        refine (Preferences.eq_or_turnsBack_of_save_eq_error htree hfailed).imp_right fun h => ?_
        exact ⟨cause, rfl, h.imp_left fun heq => Error.io.inj heq⟩
  · intro hok
    have hsave : p.saveRaw t put.body = (.ok (), t') := Prod.ext hok hfiles
    unfold Preferences.saveRaw at hsave
    split at hsave
    · cases hsave
    · next m hparse =>
        obtain ⟨l, number, hplace, hfree, hfile, hothers⟩ :=
          Preferences.exists_changes_of_save_eq_ok hsave
        exact ⟨m, l, number, hparse, (Preferences.save_eq_ok hsave).1, hplace, hfree, hfile, hothers⟩

/-- A directory in the file's place, and a state directory that is missing two levels deep. -/
theorem save_law_blocked_and_fresh :
    let put : Request := ⟨"PUT", "/api/preferences", Utf8.encode "\x7b \"a\": 1 \x7d"⟩
    let get : Request := ⟨"GET", "/api/preferences", []⟩
    let blocked := Gateway.new (.new "" 16)
      (FileTree.empty.makeDirectories ⟨["state", "preferences.json"]⟩).2 ⟨["state"]⟩
    let fresh := Gateway.new (.new "" 16) .empty ⟨["home", "state"]⟩
    blocked.files.IsTree ∧ fresh.files.IsTree ∧
      (blocked.preferences.saveRaw blocked.files put.body).1 = .error (.io .isDirectory) ∧
      (fresh.preferences.saveRaw fresh.files put.body).1 = .ok () ∧
      ((blocked.handle put).2.handle get).1 = (blocked.handle get).1 ∧
      (blocked.handle put).2.files.contents = blocked.files.contents ∧
      fresh.preferences.loadRaw (fresh.handle put).2.files =
        .ok (Utf8.encode "\x7b\"a\":1\x7d") := by
  intro put get blocked fresh
  have hput : put.method = "PUT" ∧ put.path = "/api/preferences" := ⟨rfl, by decide +kernel⟩
  have hget : get.method = "GET" ∧ get.path = "/api/preferences" := ⟨rfl, by decide +kernel⟩
  have hblocked : blocked.files.IsTree := isTree_empty.makeDirectories _
  have hfresh : fresh.files.IsTree := isTree_empty
  have hrefused : (blocked.preferences.saveRaw blocked.files put.body).1 =
      .error (.io .isDirectory) := by decide +kernel
  have hsaved : (fresh.preferences.saveRaw fresh.files put.body).1 = .ok () := by decide +kernel
  have hparse : Members.parse put.body = .ok [("a", .number (.integer 1))] := by rfl
  obtain ⟨-, -, hfailed, -⟩ := save_law rfl hput hget hblocked
  obtain ⟨-, hsame, hcontents, -, -⟩ := hfailed _ hrefused
  obtain ⟨-, -, -, hdone⟩ := save_law rfl hput hget hfresh
  obtain ⟨m, l, number, hm, hload, -⟩ := hdone hsaved
  rw [hparse] at hm
  cases hm
  exact ⟨hblocked, hfresh, hrefused, hsaved, hsame, hcontents, hload.trans (by decide +kernel)⟩

/-- Saves that fail and leave a directory behind: one whose path turns back to a file, and one whose
path has a name that is too long. -/
theorem failed_save_adds_directory :
    let t := FileTree.empty.put ["notes"] (.file 0 [])
    let name := String.ofList (List.replicate 256 'a')
    let turning : Preferences := ⟨⟨["new", "..", "notes", "state"]⟩⟩
    let long : Preferences := ⟨⟨["new", name]⟩⟩
    t.IsTree ∧ t.lookup ["new"] = none ∧
      (turning.saveRaw t Preferences.unsaved).1 = .error (.io .exists) ∧
      (turning.saveRaw t Preferences.unsaved).2.lookup ["new"] = some .directory ∧
      (turning.saveRaw t Preferences.unsaved).2 ≠ t ∧
      (long.saveRaw t Preferences.unsaved).1 = .error (.io .nameTooLong) ∧
      (long.saveRaw t Preferences.unsaved).2.lookup ["new"] = some .directory ∧
      (long.saveRaw t Preferences.unsaved).2 ≠ t := by
  intro t name turning long
  have htree : t.IsTree :=
    isTree_empty.of_lookup (l := ["notes"]) rfl (by decide) fun m hm => lookup_put_ne _ hm _
  have hnone : t.lookup ["new"] = none := by decide
  have hmade : (t.put ["new"] .directory).lookup ["new"] = some .directory := by decide
  have hother : t.put ["new"] .directory ≠ t := by decide
  have hturning : turning.saveRaw t Preferences.unsaved =
      (.error (.io .exists), t.put ["new"] .directory) := by decide +kernel
  have hnul : (Path.mk ["new", String.ofList (List.replicate 256 'a')]).hasNul = false := by
    simp only [Path.hasNul, List.any_cons, String.toList_ofList]
    decide +kernel
  have hnew : Path.IsName "new" := ⟨by decide, by decide, by decide, by decide⟩
  have hlong : long.saveRaw t Preferences.unsaved =
      (.error (.io .nameTooLong), t.put ["new"] .directory) :=
    Preferences.save_of_long_name htree hnew hnone (by decide +kernel) (by decide +kernel)
      (by decide +kernel) hnul (by decide +kernel) []
  rw [hturning, hlong]
  exact ⟨htree, hnone, rfl, hmade, hother, rfl, hmade, hother⟩

/-! ## The stored text -/

/-- **Getting preferences**, in any state of the files.  The answer is always the same but for its body,
and nothing changes.

The body is what the file holds, byte for byte, if there is a file that can be read; otherwise, whether
there is nothing, a directory, or no way to get there, it is the empty object.  So the body is an object
if there is no such file or if the file holds an object, which it then denotes; and it is none if the
file holds none. -/
theorem stored_text_law {g : Gateway} {get : Request} (hopen : g.triggered = false)
    (hget : get.method = "GET" ∧ get.path = "/api/preferences") :
    ∃ body, g.handle get = (.response ⟨200, some "application/json", none, body⟩, g) ∧
      (∀ data, g.files.read g.preferences.path = .ok data → body = data) ∧
      ((∀ data, g.files.read g.preferences.path ≠ .ok data) →
        body = Utf8.encode "\x7b\x7d" ∧ Members.parse body = .ok []) ∧
      ((∃ m, Members.parse body = .ok m) ↔
        ∀ data, g.files.read g.preferences.path = .ok data → ∃ m, Members.parse data = .ok m) := by
  have hhandle := handle_readPreferences hopen (Request.route_eq_readPreferences_iff.mpr hget)
  have hunsaved : Members.parse (Utf8.encode "\x7b\x7d") = .ok [] := by rfl
  cases hread : g.files.read g.preferences.path with
  | ok data =>
      rw [readPreferences_of_read hread] at hhandle
      refine ⟨data, hhandle, ?_, ?_, ?_⟩
      · intro data' heq
        exact Except.ok.inj heq
      · intro hnone
        exact absurd rfl (hnone data)
      · constructor
        · intro hobject data' heq
          cases heq
          exact hobject
        · intro hobject
          exact hobject data rfl
  | error e =>
      have hunreadable : ∀ data, g.files.read g.preferences.path ≠ .ok data := by simp [hread]
      rw [readPreferences_of_unreadable hunreadable] at hhandle
      refine ⟨_, hhandle, ?_, ?_, ?_⟩
      · intro data heq
        cases heq
      · intro hnone
        exact ⟨rfl, hunsaved⟩
      · constructor
        · intro hobject data heq
          cases heq
        · intro hobject
          exact ⟨[], hunsaved⟩

/-- A file in the place of the state directory. -/
theorem stored_text_law_no_way :
    let get : Request := ⟨"GET", "/api/preferences?now", []⟩
    let g := Gateway.new (.new "" 16) (FileTree.empty.put ["state"] (.file 0 [])) ⟨["state"]⟩
    get.path = "/api/preferences" ∧ g.files.read g.preferences.path = .error .notDirectory ∧
      ∃ body, g.handle get = (.response ⟨200, some "application/json", none, body⟩, g) ∧
        Members.parse body = .ok [] := by
  intro get g
  have hpath : get.path = "/api/preferences" := by decide +kernel
  have hread : g.files.read g.preferences.path = .error .notDirectory := by decide +kernel
  obtain ⟨body, hhandle, -, hnone, -⟩ := stored_text_law (g := g) rfl ⟨rfl, hpath⟩
  exact ⟨hpath, hread, body, hhandle, (hnone fun data => by simp [hread]).2⟩

/-- The empty file that a crash may leave behind is handed on, and is no object. -/
theorem empty_file_served :
    let get : Request := ⟨"GET", "/api/preferences", []⟩
    let t := (FileTree.empty.put ["state"] .directory).put ["state", "preferences.json"] (.file 0 [])
    let g := Gateway.new (.new "" 16) t ⟨["state"]⟩
    t.IsTree ∧ g.files.read g.preferences.path = .ok [] ∧
      g.handle get = (.response ⟨200, some "application/json", none, []⟩, g) ∧
      ¬ ∃ m, Members.parse [] = .ok m := by
  intro get t g
  have hstate : (FileTree.empty.put ["state"] .directory).IsTree :=
    isTree_empty.makeDirectory (p := ⟨["state"]⟩) (by decide +kernel)
  have htree : t.IsTree :=
    hstate.of_lookup (l := ["state", "preferences.json"]) (by decide +kernel) (by decide +kernel)
      fun m hm => lookup_put_ne _ hm _
  have hget : get.method = "GET" ∧ get.path = "/api/preferences" := ⟨rfl, by decide +kernel⟩
  have hread : g.files.read g.preferences.path = .ok [] := by decide +kernel
  have hhandle : g.handle get = (.response ⟨200, some "application/json", none, []⟩, g) := by
    rw [handle_readPreferences rfl (Request.route_eq_readPreferences_iff.mpr hget),
      readPreferences_of_read hread]
    rfl
  refine ⟨htree, hread, hhandle, ?_⟩
  rintro ⟨m, hm⟩
  cases hm

end Gateway

end LiveDiagram
