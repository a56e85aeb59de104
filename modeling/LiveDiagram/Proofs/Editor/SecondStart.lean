import LiveDiagram.Editor.Program
import LiveDiagram.Proofs.Editor.Forwarding

/-!
# A second start

A process that finds the state directory owned says where the owner is and ends.  If it was given a
file, it sends the text of the file first, and the owner takes it as a write from the command line.

Whether to send is decided by the text alone.  A file that is empty says the same as no file, so it
is not sent, and the owner keeps the text it has.  Everything else about a second start depends on
what the arguments say and what is on the disk.

## Main results

* `Program.push_of_runs`: a document that is sent arrives, and nothing else changes.
* `Program.second_start_law`: what a second start does, for every text but the empty one, without a
  file, and with a file that cannot be read.
* `Program.empty_file_not_sent`: an empty file that is passed over.
-/

namespace LiveDiagram

open Instance

namespace Program

/-- This editor owns a state directory, has published its port there and can be reached at it. -/
structure Runs (w : World) (directory : Path) (e : Editor) : Prop where
  housed : ∃ base, Housed w.disk.files directory base e.lock.file
  locked : e.lock.file ∈ w.disk.locked
  published : publishedPort? w.disk.files directory = some e.address.port
  reached : connection w (url e.address.port) = .ok e
  running : e.gateway.triggered = false

section

variable {w : World} {directory : Path} {e : Editor}

/-! ## Claims beside a running editor -/

theorem Runs.claim_eq (h : Runs w directory e) :
    claim w.disk directory = (.ok (.running (url e.address.port)), w.disk) := by
  obtain ⟨base, hhoused⟩ := h.housed
  rw [claim, tryLock_of_housed hhoused, if_pos h.locked]
  simp only [locate, h.published]

theorem Runs.begin_eq (settings : Settings)
    (h : Runs w (Path.ofText settings.stateDirectory) e) :
    begin w settings = join w (url e.address.port) settings.initialContent := by
  rw [begin, h.claim_eq]

/-! ## Sending -/

/-- An editor after a document was sent to it. -/
def sent (w : World) (e : Editor) (content : String) : Editor :=
  { e with gateway := { e.gateway with files := w.disk.files }.forwarded content }

theorem find?_updated {address : String} {e' : Editor} (haddress : e'.address = e.address)
    {es : List Editor} (h : es.find? (fun x => x.address.url = address) = some e) :
    (es.map fun x => if x.lock = e.lock then e' else x).find? (fun x => x.address.url = address) =
      some e' := by
  have hurl : e'.address.url = address := by
    rw [haddress]
    simpa using List.find?_some h
  induction es with
  | nil => cases h
  | cons x es ih =>
      rw [List.map_cons]
      by_cases hx : x.lock = e.lock
      · rw [if_pos hx]
        exact List.find?_cons_of_pos (by simp [hurl])
      · have hother : ¬ x.address.url = address := by
          intro hfound
          rw [List.find?_cons_of_pos (by simp [hfound])] at h
          exact hx (congrArg Editor.lock (Option.some.inj h))
        rw [if_neg hx]
        rw [List.find?_cons_of_neg (by simp [hother])] at h ⊢
        exact ih h

/-- An editor that has answered is found where it was. -/
theorem connection_updateEditor {address : String} {e' : Editor}
    (h : connection w address = .ok e) (hlock : e'.lock = e.lock)
    (haddress : e'.address = e.address) : connection (updateEditor w e') address = .ok e' := by
  unfold connection at h ⊢
  split at h
  · cases h
  · next hloopback =>
      split at h <;> cases h
      next hfind =>
        simp only [updateEditor, hloopback, hlock, find?_updated haddress hfind]

/-- A document sent to a running editor arrives, whatever it is. -/
theorem push_of_runs (h : Runs w directory e) (content : String) :
    push w (url e.address.port) content =
      (.ok e.gateway.store.version.next, updateEditor w (sent w e content)) := by
  have hroute : (Forward.request (Url.ofPort e.address.port) content).route = .writeDocument :=
    Request.route_eq_writeDocument_iff.mpr ⟨rfl, Forward.path_request_ofPort e.address.port content⟩
  have hopen : { e.gateway with files := w.disk.files }.triggered = false := h.running
  have hrequest : request w e (Forward.request (Url.ofPort e.address.port) content) =
      (.response (.json (WriteReceipt.write ⟨e.gateway.store.version.next⟩)),
        updateEditor w (sent w e content)) := by
    rw [request, Gateway.handle_writeDocument hopen hroute, Forward.writeDocument_request]
    rfl
  rw [push, Forward.target_url]
  simp only [h.reached, hrequest, Forward.outcome_receipt]

/-- The editor that has taken a document runs on, and the disk is what it was. -/
theorem Runs.sent (h : Runs w directory e) (content : String) :
    Runs (updateEditor w (sent w e content)) directory (sent w e content) where
  housed := h.housed
  locked := h.locked
  published := h.published
  reached := connection_updateEditor h.reached rfl rfl
  running := h.running

/-! ## The law -/

/-- The last word of a start beside a running editor that has nothing more to say. -/
def joined (e : Editor) : Launch :=
  .exited 0 (runningLine (url e.address.port)) ""

theorem join_of_runs (h : Runs w directory e) {content : String} (hcontent : content ≠ "") :
    join w (url e.address.port) content = (joined e, updateEditor w (Program.sent w e content)) := by
  rw [join, if_neg hcontent, push_of_runs h]
  rfl

/-- What a start beside a running editor does with a text. -/
theorem begin_of_runs (o : Options) (default content : String)
    (h : Runs w (Path.ofText (o.stateDirectory.getD default)) e) :
    begin w (o.settings content default) = join w (url e.address.port) content :=
  Runs.begin_eq (o.settings content default) h

/-- **A second start with a file.**  Beside an editor that owns the state directory, has published its
port and can be reached, a start of the program ends well:

* if it names a file with a text that is not empty, the editor holds that text afterwards, under the
  next version; every listener with room has the event of it, from the command line; the editor runs
  on, and the disk is what it was;
* if the file is empty, or no file is named, nothing changes.

And wherever it is started, with a file that cannot be read it fails before it looks at the state
directory, and changes nothing. -/
theorem second_start_law {w : World} {arguments : List String} (default : String) {o : Options}
    {e : Editor} (hstart : CommandLine.parse arguments = .start o)
    (hruns : Runs w (Path.ofText (o.stateDirectory.getD default)) e) :
    (∀ file content, o.file = some file → readDocument w.disk.files file = .ok content →
      content ≠ "" → ∃ e' w', run w arguments default = (joined e, w') ∧
        Runs w' (Path.ofText (o.stateDirectory.getD default)) e' ∧ e'.address = e.address ∧
        e'.gateway.store.snapshot = ⟨content, e.gateway.store.version.next⟩ ∧
        e.gateway.store.registry.Informed e'.gateway.store.registry
          ⟨content, "cli", e.gateway.store.version.next⟩ ∧
        w'.disk = w.disk) ∧
    (∀ file, o.file = some file → readDocument w.disk.files file = .ok "" →
      run w arguments default = (joined e, w)) ∧
    (o.file = none → run w arguments default = (joined e, w)) ∧
    ∀ (v : World) (file reason : String), o.file = some file →
      readDocument v.disk.files file = .error reason →
        run v arguments default = (.exited 1 "" (reportUnreadable file reason), v) := by
  have hrun : ∀ v, run v arguments default = launch v o default := by
    intro v
    rw [run, hstart]
  refine ⟨?_, ?_, ?_, ?_⟩
  · intro file content hfile hread hcontent
    refine ⟨sent w e content, updateEditor w (sent w e content), ?_, hruns.sent content, rfl, rfl,
      e.gateway.store.registry.informed_broadcast _, rfl⟩
    rw [hrun, launch, hfile]
    simp only [hread]
    rw [begin_of_runs _ _ _ hruns, join_of_runs hruns hcontent]
  · intro file hfile hread
    rw [hrun, launch, hfile]
    simp only [hread]
    rw [begin_of_runs _ _ _ hruns]
    rfl
  · intro hfile
    rw [hrun, launch, hfile]
    simp only [begin_of_runs _ _ _ hruns]
    rfl
  · intro v file reason hfile hread
    rw [hrun, launch, hfile]
    simp only [hread]

end

/-- An editor that holds a text. -/
def loneEditor : Editor where
  gateway := Gateway.new (Store.new "precious" 16) .empty ⟨["state"]⟩
  lock := ⟨0, ⟨["state", "port"]⟩⟩
  address := ⟨"127.0.0.1", 8080⟩

/-- The machine on which it runs, with three files beside those of its state directory: a text, an
empty one and no text at all. -/
def loneWorld : World where
  disk :=
    { files :=
        { entries := [(["state"], .directory), (["state", "instance.lock"], .file 0 []),
            (["state", "port"], .file 1 (Utf8.encode "8080")),
            (["new.mmd"], .file 2 (Utf8.encode "graph LR")), (["empty.mmd"], .file 3 []),
            (["image.png"], .file 4 [0x89])]
          nextNumber := 5 }
      locked := [0] }
  ports := { taken := fun _ => false, ephemeral := 49152 }
  loopback := .ok ()
  editors := [loneEditor]

theorem runs_loneEditor : Runs loneWorld (Path.ofText "state") loneEditor where
  housed := ⟨["state"], by decide +kernel, [], by decide +kernel⟩
  locked := by decide
  published := by decide +kernel
  reached := by
    have hurl : loneEditor.address.url = url loneEditor.address.port := by decide +kernel
    simp only [connection, loneWorld, List.find?_cons, hurl, decide_true]
  running := rfl

/-- A text, an empty file, no file and a file that is no text, beside an editor with a text of its
own. -/
theorem second_start_law_lone_editor :
    let o (file : Option String) : Options := ⟨file, none, none, none, false⟩
    let reason := "stream did not contain valid UTF-8"
    (CommandLine.parse ["new.mmd"] = .start (o (some "new.mmd")) ∧
      readDocument loneWorld.disk.files "new.mmd" = .ok "graph LR" ∧
      ∃ e' w', run loneWorld ["new.mmd"] "state" = (joined loneEditor, w') ∧
        Runs w' (Path.ofText "state") e' ∧ e'.gateway.store.snapshot = ⟨"graph LR", ⟨2⟩⟩) ∧
    run loneWorld ["empty.mmd"] "state" = (joined loneEditor, loneWorld) ∧
    run loneWorld [] "state" = (joined loneEditor, loneWorld) ∧
    run loneWorld ["image.png"] "state" =
      (.exited 1 "" (reportUnreadable "image.png" reason), loneWorld) := by
  intro o reason
  have htext : CommandLine.parse ["new.mmd"] = .start (o (some "new.mmd")) := by decide +kernel
  have hempty : CommandLine.parse ["empty.mmd"] = .start (o (some "empty.mmd")) := by decide +kernel
  have hnone : CommandLine.parse [] = .start (o none) := by decide +kernel
  have himage : CommandLine.parse ["image.png"] = .start (o (some "image.png")) := by decide +kernel
  have hread : readDocument loneWorld.disk.files "new.mmd" = .ok "graph LR" := by decide +kernel
  have hnothing : readDocument loneWorld.disk.files "empty.mmd" = .ok "" := by decide +kernel
  have hunreadable : readDocument loneWorld.disk.files "image.png" = .error reason := by
    decide +kernel
  obtain ⟨e', w', hrun, hruns, -, hsnapshot, -⟩ :=
    (second_start_law "state" htext runs_loneEditor).1 "new.mmd" "graph LR" rfl hread
      (by decide)
  refine ⟨⟨htext, hread, e', w', hrun, hruns, hsnapshot⟩, ?_, ?_, ?_⟩
  · exact (second_start_law "state" hempty runs_loneEditor).2.1 _ rfl hnothing
  · exact (second_start_law "state" hnone runs_loneEditor).2.2.1 rfl
  · exact (second_start_law "state" himage runs_loneEditor).2.2.2 _ _ _ rfl hunreadable

/-- An empty file is passed over: the start ends well, and the editor still has its text, under the
version that it had. -/
theorem empty_file_not_sent :
    let o : Options := ⟨some "empty.mmd", none, none, none, false⟩
    CommandLine.parse ["empty.mmd"] = .start o ∧
      Runs loneWorld (Path.ofText (o.stateDirectory.getD "state")) loneEditor ∧
      readDocument loneWorld.disk.files "empty.mmd" = .ok "" ∧
      run loneWorld ["empty.mmd"] "state" = (joined loneEditor, loneWorld) ∧
      connection loneWorld (url loneEditor.address.port) = .ok loneEditor ∧
      loneEditor.gateway.store.snapshot ≠ ⟨"", loneEditor.gateway.store.version.next⟩ := by
  intro o
  have hstart : CommandLine.parse ["empty.mmd"] = .start o := by decide +kernel
  have hread : readDocument loneWorld.disk.files "empty.mmd" = .ok "" := by decide +kernel
  refine ⟨hstart, runs_loneEditor, hread, ?_, runs_loneEditor.reached, by decide⟩
  rw [run, hstart]
  simp only [launch, o, hread]
  rw [begin_of_runs o "state" _ runs_loneEditor]
  rfl

end Program

end LiveDiagram
