import LiveDiagram.Proofs.Files.Contents
import LiveDiagram.Proofs.Http.Routes
import LiveDiagram.Proofs.Stream.Serving

/-!
# What exchanges and streams leave behind

A write of the document that is answered with its receipt is one write of the store; a save of the
preferences that is answered as done replaces one file; a request for the stream subscribes.
Everything else, whatever its method, its address and its body, leaves no trace.

A stream that was opened changes nothing but the registry, and there it only takes away: nobody's queue
grows by what it does.

## Main results

* `Gateway.store_handle`, `Gateway.contents_handle`, `Gateway.triggered_handle`: what one request does
  to the document, to the files and to the gateway itself.
* `EventStream.Does.store_eq`: what one step of a stream does to the document.
* `Exchange.unfed_leaves`, `EventStream.Step.unfed_leaves`: only a write feeds a queue.
-/

namespace LiveDiagram

/-! ## Exchanges -/

/-- The status of an answer that is no stream. -/
def Answer.status? : Answer → Option Nat
  | .response r => some r.status
  | .stream _ => none

/-- The stream that an answer opens.  It has subscribed. -/
def Answer.opened : Answer → List EventStream.Stage
  | .response _ => []
  | .stream id => [EventStream.Stage.opening.after (.subscribed id)]

/-- A request with its answer. -/
abbrev Exchange := Request × Answer

namespace Exchange

/-- A write of the document that was answered with its receipt. -/
def isWrite (x : Exchange) : Bool :=
  x.1.method = "PUT" ∧ x.1.path = "/api/diagram" ∧ x.2.status? = some 200

/-- A save of the preferences that was answered as done. -/
def isSave (x : Exchange) : Bool :=
  x.1.method = "PUT" ∧ x.1.path = "/api/preferences" ∧ x.2.status? = some 204

theorem isWrite_eq_true_iff {r : Request} {x : Answer} :
    isWrite (r, x) = true ↔ r.route = .writeDocument ∧ x.status? = some 200 := by
  rw [Request.route_eq_writeDocument_iff, isWrite, decide_eq_true_eq, and_assoc]

theorem isSave_eq_true_iff {r : Request} {x : Answer} :
    isSave (r, x) = true ↔ r.route = .writePreferences ∧ x.status? = some 204 := by
  rw [Request.route_eq_writePreferences_iff, isSave, decide_eq_true_eq, and_assoc]

/-- What an exchange leaves of the store. -/
def leaves (s : Store) (x : Exchange) : Store :=
  if x.isWrite then (s.perform (.write x.1.body)).2
  else
    match x.2 with
    | .stream _ => s.subscribe.2
    | .response _ => s

end Exchange

namespace Gateway

/-- What a gateway that was not told to stop makes of a write: it is refused, and nothing has
changed, or it is carried out, and answered with its receipt. -/
theorem writeDocument_cases (g : Gateway) (body : Bytes) :
    ((g.writeDocument body).1.status = 400 ∧ (g.writeDocument body).2 = g) ∨
      ∃ w, WriteRequest.parse body = .ok w ∧
        (g.writeDocument body).1 = .json (WriteReceipt.write ⟨g.store.version.next⟩) ∧
        (g.writeDocument body).2 = { g with store := (g.store.set w.content w.sourceName).2 } := by
  unfold writeDocument
  cases WriteRequest.parse body with
  | error e => exact Or.inl ⟨rfl, rfl⟩
  | ok w => exact Or.inr ⟨w, rfl, rfl, rfl⟩

/-- A save of the preferences that is not done has changed no file. -/
theorem writePreferences_cases (g : Gateway) (body : Bytes) :
    (g.writePreferences body).1.status = 204 ∨
      (g.writePreferences body).2.files.contents = g.files.contents := by
  unfold writePreferences
  cases hsave : g.preferences.saveRaw g.files body with
  | mk saved files =>
      cases saved with
      | ok done => exact Or.inl rfl
      | error e => exact Or.inr (Preferences.contents_of_refused hsave)

/-- What one request does to the document: a write that is carried out is performed, and a request for
the stream subscribes. -/
theorem store_handle (g : Gateway) (r : Request) :
    (g.handle r).2.store = Exchange.leaves g.store (r, (g.handle r).1) := by
  unfold Exchange.leaves
  cases hopen : g.triggered
  · have hiff := Exchange.isWrite_eq_true_iff (r := r) (x := (g.handle r).1)
    cases hroute : r.route with
    | writeDocument =>
        rw [handle_writeDocument hopen hroute] at hiff ⊢
        rcases g.writeDocument_cases r.body with ⟨hstatus, hsame⟩ | ⟨w, hw, hreceipt, hset⟩
        · rw [if_neg (by simp [hiff, Answer.status?, hstatus]), hsame]
        · rw [if_pos (hiff.mpr ⟨hroute, by rw [hreceipt]; rfl⟩), hset]
          simp only [Store.perform, hw]
          rfl
    | _ =>
        rw [if_neg (by simp [hiff, hroute])]
        simp [handle, hopen, hroute, writePreferences]
  · rw [handle_triggered hopen, if_neg]
    simp [Exchange.isWrite_eq_true_iff, Answer.status?, Response.ofStatus]

/-- A write that is answered with a receipt was carried out, and the receipt names its version. -/
theorem receipt_of_isWrite {g : Gateway} {r : Request}
    (h : Exchange.isWrite (r, (g.handle r).1) = true) :
    ∃ w, WriteRequest.parse r.body = .ok w ∧
      (g.handle r).1 = .response (.json (WriteReceipt.write ⟨g.store.version.next⟩)) ∧
      (g.handle r).2.store = (g.store.apply w).2 := by
  obtain ⟨hroute, hstatus⟩ := Exchange.isWrite_eq_true_iff.mp h
  cases hopen : g.triggered
  · rw [handle_writeDocument hopen hroute] at hstatus ⊢
    rcases g.writeDocument_cases r.body with ⟨hrefused, -⟩ | ⟨w, hw, hreceipt, hset⟩
    · simp [Answer.status?, hrefused] at hstatus
    · exact ⟨w, hw, congrArg Answer.response hreceipt, congrArg Gateway.store hset⟩
  · rw [handle_triggered hopen] at hstatus
    simp [Answer.status?, Response.ofStatus] at hstatus

/-- What one request does to the files: nothing, unless it is a save that is done. -/
theorem contents_handle {g : Gateway} {r : Request}
    (h : Exchange.isSave (r, (g.handle r).1) = false) :
    (g.handle r).2.files.contents = g.files.contents := by
  rw [← Bool.not_eq_true, Exchange.isSave_eq_true_iff] at h
  cases hopen : g.triggered
  · by_cases hroute : r.route = .writePreferences
    · rw [handle_writePreferences hopen hroute] at h ⊢
      rcases g.writePreferences_cases r.body with hstatus | hsame
      · exact absurd ⟨hroute, congrArg some hstatus⟩ h
      · exact hsame
    · rw [snd_handle hopen]
      cases hcase : r.route with
      | writePreferences => exact absurd hcase hroute
      | writeDocument =>
          rcases g.writeDocument_cases r.body with ⟨-, hsame⟩ | ⟨w, -, -, hset⟩
          · rw [hsame]
          · rw [hset]
      | _ => rfl
  · rw [handle_triggered hopen]

/-- Whether a gateway was told to stop changes only by telling it. -/
theorem triggered_handle (g : Gateway) (r : Request) :
    (g.handle r).2.triggered = true ↔
      g.triggered = true ∨ r.method = "POST" ∧ r.path = "/api/quit" := by
  rw [← Request.route_eq_quit_iff]
  cases hopen : g.triggered
  · rw [snd_handle hopen]
    cases r.route with
    | writeDocument =>
        rcases g.writeDocument_cases r.body with ⟨-, hsame⟩ | ⟨w, -, -, hset⟩
        · simp [hsame, hopen]
        · simp [hset, hopen]
    | writePreferences => simp [writePreferences, hopen]
    | _ => simp [hopen]
  · rw [handle_triggered hopen]
    simp [hopen]

end Gateway

/-! ## Steps of streams -/

namespace EventStream

/-- What a step of a stream leaves of the store. -/
def Step.leaves (s : Store) : Step → Store
  | .subscribed _ => s.subscribe.2
  | .took id _ _ | .skipped id _ _ => { s with registry := (s.registry.receive id).2 }
  | .released id => s.release id
  | _ => s

/-- Whatever a look finds, only an event is taken out. -/
theorem look_snd (s : Store) (id : SubscriptionId) (cancelled cancelFirst : Bool) :
    (look s id cancelled cancelFirst).2 =
      match (look s id cancelled cancelFirst).1 with
      | .event _ => { s with registry := (s.registry.receive id).2 }
      | _ => s := by
  unfold look
  split
  · rfl
  · split
    · next hreceive => rw [hreceive]
    · cases cancelled <;> rfl
    · rfl

theorem Does.store_eq {s s' : Surroundings} {stage stage' : Stage} {y : Step}
    (does : Does s stage y s' stage') : s'.store = y.leaves s.store := by
  cases does with
  | @took id cancelFirst e store hlook | @idled id cancelFirst store hlook
  | @dismissed id cancelFirst store hlook | @stopped id cancelFirst store hlook =>
      have hsnd := look_snd s.store id s.cancelled cancelFirst
      rw [hlook] at hsnd
      exact hsnd
  | _ => rfl

end EventStream

/-- From the one store to the other nothing was written, and nobody's queue has grown. -/
def Store.Unfed (s s' : Store) : Prop :=
  s'.snapshot = s.snapshot ∧
    ∀ t ∈ s'.registry.subscriptions, t.queue = [] ∨
      ∃ u ∈ s.registry.subscriptions, u.id = t.id ∧ t.queue <:+ u.queue

theorem Store.Unfed.refl (s : Store) : s.Unfed s :=
  ⟨rfl, fun t ht => Or.inr ⟨t, ht, rfl, List.suffix_rfl⟩⟩

theorem Store.unfed_subscribe (s : Store) : s.Unfed s.subscribe.2 := by
  refine ⟨rfl, fun t ht => ?_⟩
  rcases List.mem_append.mp ht with hold | hnew
  · exact Or.inr ⟨t, hold, rfl, List.suffix_rfl⟩
  · rw [List.mem_singleton.mp hnew]
    exact Or.inl rfl

theorem Store.unfed_receive (s : Store) (id : SubscriptionId) :
    s.Unfed { s with registry := (s.registry.receive id).2 } := by
  cases hfind : s.registry.find? id with
  | none =>
      rw [Registry.receive_of_none hfind]
      exact .refl s
  | some u =>
      have hu := List.mem_of_find?_eq_some hfind
      have hfound := List.find?_some hfind
      have hid : u.id = id := by
        rw [Bool.and_eq_true, decide_eq_true_eq] at hfound
        exact hfound.1
      cases hqueue : u.queue with
      | nil =>
          rw [Registry.receive_of_nil hfind hqueue]
          exact .refl s
      | cons e rest =>
          rw [Registry.receive_of_cons hfind hqueue]
          refine ⟨rfl, fun t ht => Or.inr ?_⟩
          obtain ⟨v, hv, rfl⟩ := Registry.exists_of_mem_change ht
          by_cases hvid : v.id = id
          · rw [if_pos hvid]
            refine ⟨u, hu, hid.trans hvid.symm, ?_⟩
            rw [hqueue]
            exact List.suffix_cons e rest
          · rw [if_neg hvid]
            exact ⟨v, hv, rfl, List.suffix_rfl⟩

theorem Store.unfed_release (s : Store) (id : SubscriptionId) : s.Unfed (s.release id) := by
  refine ⟨rfl, fun t ht => ?_⟩
  obtain ⟨v, hv, rfl⟩ := Registry.exists_of_mem_change ht
  by_cases hvid : v.id = id
  · rw [if_pos hvid]
    exact Or.inl rfl
  · rw [if_neg hvid]
    exact Or.inr ⟨v, hv, rfl, List.suffix_rfl⟩

/-- A request that is not carried out as a write does not write, or feed a queue. -/
theorem Exchange.unfed_leaves (s : Store) {x : Exchange} (h : x.isWrite = false) :
    s.Unfed (x.leaves s) := by
  obtain ⟨r, answer⟩ := x
  rw [Exchange.leaves, h]
  cases answer with
  | response response => exact .refl s
  | stream id => exact s.unfed_subscribe

/-- If it does not open a stream either, it leaves the store as it is. -/
theorem Exchange.leaves_eq_self (s : Store) {x : Exchange} (h : x.isWrite = false)
    (hopened : x.2.opened = []) : x.leaves s = s := by
  obtain ⟨r, answer⟩ := x
  rw [Exchange.leaves, h]
  cases answer with
  | response response => rfl
  | stream id => cases hopened

/-- No step of a stream writes, or feeds a queue. -/
theorem EventStream.Step.unfed_leaves (s : Store) (y : EventStream.Step) : s.Unfed (y.leaves s) := by
  cases y with
  | subscribed id => exact s.unfed_subscribe
  | took id e block => exact s.unfed_receive id
  | skipped id e reason => exact s.unfed_receive id
  | released id => exact s.unfed_release id
  | _ => exact .refl s

end LiveDiagram
