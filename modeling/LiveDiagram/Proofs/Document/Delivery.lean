import Mathlib.Data.List.Infix
import LiveDiagram.Proofs.Document.Writes

/-!
# Exact delivery

What a listener receives, followed by what is still in its queue, is the list its reference keeps:
no event is lost, doubled, reordered or invented on the way.  A queue that is given up unread ends
with its handle, so the law counts what it held at that moment.

The reference reads nothing but the listener's own steps, and hence so does everything the listener
is told.

## Main results

* `Tracks.got_append_lastQueue`: received and left over make up what was kept.
* `announcements_in_order`: sets that do not overlap are announced in the order of their commits.
* `exact_delivery`: the law for every run of the registry and every schedule of a store.
-/

namespace LiveDiagram

namespace Listener

/-- Without a handle only the entry can change. -/
theorem step_of_not_alive (capacity : Nat) {l : Listener} (hdead : l.alive = false) {o : Step}
    (ho : o ≠ .subscribe) :
    (l.step capacity o).alive = false ∧ (l.step capacity o).kept = l.kept ∧
      (l.step capacity o).taken = l.taken := by
  cases o with
  | subscribe => exact absurd rfl ho
  | broadcast e => simp [step, hdead]
  | receive => simp [step, hdead]
  | drain => simp [step, hdead]
  | pending => exact ⟨hdead, rfl, rfl⟩
  | unsubscribe => exact ⟨hdead, rfl, rfl⟩
  | discard => exact ⟨rfl, rfl, rfl⟩

theorem run_of_not_alive (capacity : Nat) {l : Listener} (hdead : l.alive = false)
    {steps : List Step} (hsteps : .subscribe ∉ steps) :
    (l.run capacity steps).kept = l.kept ∧ (l.run capacity steps).taken = l.taken := by
  induction steps generalizing l with
  | nil => exact ⟨rfl, rfl⟩
  | cons o os ih =>
      rw [List.mem_cons, not_or] at hsteps
      obtain ⟨hne, hrest⟩ := hsteps
      obtain ⟨hgone, hkept, htaken⟩ := step_of_not_alive capacity hdead (Ne.symm hne)
      obtain ⟨hkeptRest, htakenRest⟩ := ih hgone hrest
      exact ⟨hkeptRest.trans hkept, htakenRest.trans htaken⟩

/-- A handle is given up by discarding it. -/
theorem eq_discard_of_given_up {capacity : Nat} {l : Listener} {o : Step}
    (halive : l.alive = true) (hgone : (l.step capacity o).alive = false) : o = .discard := by
  by_cases hsubscribe : o = .subscribe
  · subst hsubscribe
    cases hgone
  · by_cases hdiscard : o = .discard
    · exact hdiscard
    · rw [alive_step capacity l hsubscribe hdiscard, halive] at hgone
      cases hgone

/-- The step by which a handle is given up keeps nothing more and takes nothing more. -/
theorem run_of_given_up {capacity : Nat} {l : Listener} {o : Option Step}
    (halive : l.alive = true) (hgone : (l.run capacity o.toList).alive = false) :
    (l.run capacity o.toList).kept = l.kept ∧ (l.run capacity o.toList).taken = l.taken := by
  cases o with
  | none => exact ⟨rfl, rfl⟩
  | some o =>
      obtain rfl : o = .discard := eq_discard_of_given_up halive hgone
      exact ⟨rfl, rfl⟩

end Listener

namespace Registry

/-! ## What is left in a queue -/

/-- What the queue behind an id holds at the end of a run, or held when its handle was given up. -/
def lastQueue (id : SubscriptionId) (r : Registry) : List Command → List ChangeEvent
  | [] => r.waiting id
  | c :: cs =>
    if (r.find? id).isSome ∧ ((r.perform c).2.find? id).isNone then r.waiting id
    else lastQueue id (r.perform c).2 cs

theorem Tracks.waiting_eq {id : SubscriptionId} {r : Registry} {l : Listener}
    (ht : Tracks id r l) : r.waiting id = if l.alive then l.waiting else [] := by
  rw [waiting, ht.map_queue]
  cases l.alive <;> rfl

theorem Tracks.isSome_find? {id : SubscriptionId} {r : Registry} {l : Listener}
    (ht : Tracks id r l) : (r.find? id).isSome = l.alive := by
  cases halive : l.alive
  · rw [ht.absent halive]
    rfl
  · obtain ⟨s, hs, -, -⟩ := ht.present halive
    rw [hs]
    rfl

/-- An id is given out once. -/
theorem subscribe_notMem_ownSteps {id : SubscriptionId} {r : Registry} (hid : id < r.nextId)
    (cs : List Command) : .subscribe ∉ ownSteps id (r.performAll cs).1 := by
  induction cs generalizing r with
  | nil => exact List.not_mem_nil
  | cons c cs ih =>
      have hrest := ih (Nat.lt_of_lt_of_le hid (nextId_le_perform r c))
      rw [performAll_cons, ownSteps_cons, List.mem_append, not_or, Option.mem_toList]
      refine ⟨?_, hrest⟩
      intro hown
      cases c with
      | subscribe tied =>
          have hother : ¬ r.nextId = id := Nat.ne_of_gt hid
          simp only [own?, perform, subscribe, if_neg hother] at hown
          cases hown
      | broadcast e => cases hown
      | count => cases hown
      | capacity => cases hown
      | _ =>
          simp only [own?] at hown
          split at hown <;> cases hown

/-- Received and left over make up what was kept. -/
theorem Tracks.got_append_lastQueue {id : SubscriptionId} {r : Registry} {l : Listener}
    (h : r.WellFormed) (ht : Tracks id r l) (hopen : l.alive = true ∨ l.kept = [])
    (cs : List Command) :
    (l.run r.capacity (ownSteps id (r.performAll cs).1)).got ++ lastQueue id r cs =
      (l.run r.capacity (ownSteps id (r.performAll cs).1)).kept := by
  induction cs generalizing r l with
  | nil =>
      show l.got ++ r.waiting id = l.kept
      rw [ht.waiting_eq]
      rcases hopen with halive | hkept
      · rw [if_pos halive, l.got_append_waiting]
      · simp [Listener.got, Listener.waiting, hkept]
  | cons c cs ih =>
      have htracks := ht.perform h c
      rw [performAll_cons, ownSteps_cons, Listener.run_append, lastQueue, ht.isSome_find?,
        ← Option.not_isSome, htracks.isSome_find?]
      by_cases hgone : l.alive = true ∧
          (!(l.run r.capacity (own? id (c, (r.perform c).1)).toList).alive) = true
      · -- The handle is given up here, and no later step brings it back.
        rw [if_pos hgone]
        obtain ⟨halive, hdead⟩ := hgone
        rw [Bool.not_eq_true'] at hdead
        have hissued := Nat.lt_of_lt_of_le (ht.issued h halive) (nextId_le_perform r c)
        obtain ⟨hkeptRest, htakenRest⟩ := Listener.run_of_not_alive r.capacity hdead
          (subscribe_notMem_ownSteps hissued cs)
        obtain ⟨hkept, htaken⟩ := Listener.run_of_given_up halive hdead
        rw [Listener.got, hkeptRest, htakenRest, hkept, htaken, ht.waiting_eq, if_pos halive]
        exact l.got_append_waiting
      · rw [if_neg hgone]
        have hrest := ih (wellFormed_perform h c) htracks
        rw [capacity_perform] at hrest
        apply hrest
        cases halive : l.alive
        · by_cases hsubscribe : .subscribe ∈ (own? id (c, (r.perform c).1)).toList
          · rw [Option.mem_toList.mp hsubscribe]
            exact Or.inl rfl
          · have hkept := hopen.resolve_left (by rw [halive]; decide)
            exact Or.inr
              ((Listener.run_of_not_alive r.capacity halive hsubscribe).1.trans hkept)
        · rw [halive, Bool.not_eq_true'] at hgone
          exact Or.inl (by simpa using hgone)

/-! ## What the others do -/

/-- The event that a command broadcasts. -/
def Command.event? : Command → Option ChangeEvent
  | .broadcast e => some e
  | _ => none

/-- Every listener witnesses every broadcast, whether it keeps the event or not. -/
theorem filterMap_event?_ownSteps (id : SubscriptionId) (r : Registry) (cs : List Command) :
    (ownSteps id (r.performAll cs).1).filterMap Listener.Step.event? =
      cs.filterMap Command.event? := by
  induction cs generalizing r with
  | nil => rfl
  | cons c cs ih =>
      have hown : (own? id (c, (r.perform c).1)).toList.filterMap Listener.Step.event? =
          c.event?.toList := by
        cases c with
        | broadcast e => rfl
        | count => rfl
        | capacity => rfl
        | subscribe tied =>
            simp only [own?, perform]
            split <;> rfl
        | _ =>
            simp only [own?]
            split <;> rfl
      rw [performAll_cons, ownSteps_cons, List.filterMap_append, hown, ih]
      cases hevent : c.event? <;> simp [hevent]

/-- What is received and what is left over are the reference's. -/
theorem received_append_lastQueue (id : SubscriptionId) (buffer : Nat) (cs : List Command) :
    received id ((empty buffer).performAll cs).1 ++ lastQueue id (empty buffer) cs =
      (Listener.stranger.run (max buffer 1)
        (ownSteps id ((empty buffer).performAll cs).1)).kept := by
  rw [received_performAll]
  exact (tracks_empty id buffer).got_append_lastQueue (wellFormed_empty buffer) (Or.inr rfl) cs

/-- Events come out in the order of their broadcasts. -/
theorem kept_sublist (id : SubscriptionId) (buffer : Nat) (cs : List Command) :
    (Listener.stranger.run (max buffer 1)
      (ownSteps id ((empty buffer).performAll cs).1)).kept.Sublist
        (cs.filterMap Command.event?) := by
  have hkept := Listener.kept_sublist_run (max buffer 1) Listener.stranger
    (ownSteps id ((empty buffer).performAll cs).1)
  rwa [filterMap_event?_ownSteps] at hkept

/-- While the handle is held, what is left over is what waits in the queue. -/
theorem queue_eq_lastQueue (id : SubscriptionId) (buffer : Nat) (cs : List Command) :
    (((empty buffer).performAll cs).2.find? id).map (·.queue) =
      if (Listener.stranger.run (max buffer 1)
          (ownSteps id ((empty buffer).performAll cs).1)).alive then
        some (lastQueue id (empty buffer) cs)
      else none := by
  have hleft := received_append_lastQueue id buffer cs
  rw [received_performAll, ← Listener.got_append_waiting] at hleft
  rw [List.append_cancel_left hleft]
  exact (tracks_performAll (wellFormed_empty buffer) (tracks_empty id buffer) cs).map_queue

theorem received_sublist (id : SubscriptionId) (buffer : Nat) (cs : List Command) :
    (received id ((empty buffer).performAll cs).1).Sublist (cs.filterMap Command.event?) := by
  have hkept := kept_sublist id buffer cs
  rw [← received_append_lastQueue] at hkept
  exact (List.sublist_append_left _ _).trans hkept

/-- A listener is told the same in all runs with the same steps of its own. -/
theorem told_eq_of_ownSteps_eq {buffer : Nat} {cs cs' : List Command} {id id' : SubscriptionId}
    (h : ownSteps id' ((empty buffer).performAll cs').1 =
      ownSteps id ((empty buffer).performAll cs).1) :
    told id' ((empty buffer).performAll cs').1 = told id ((empty buffer).performAll cs).1 ∧
      lastQueue id' (empty buffer) cs' = lastQueue id (empty buffer) cs := by
  have htold : told id' ((empty buffer).performAll cs').1 =
      told id ((empty buffer).performAll cs).1 := by
    rw [told_performAll (wellFormed_empty buffer) (tracks_empty id' buffer), h,
      told_performAll (wellFormed_empty buffer) (tracks_empty id buffer)]
  refine ⟨htold, ?_⟩
  -- The same was kept and the same was received, so the same is left.
  have hleft := received_append_lastQueue id' buffer cs'
  rw [h, ← received_append_lastQueue id buffer cs, received, htold] at hleft
  exact List.append_cancel_left hleft

/-- Taking an entry out leaves every queue to its handle. -/
theorem queue_unsubscribe {r : Registry} (h : r.WellFormed) (i id : SubscriptionId) :
    ((r.unsubscribe i).find? id).map (·.queue) = (r.find? id).map (·.queue) := by
  by_cases hid : id = i
  · subst hid
    rw [find?_unsubscribe_self h, Option.map_map]
    rfl
  · rw [unsubscribe, (properAt_unsubscribe h i).find?_changeAt_ne h hid]

/-- The end is told only to a listener that has heard everything. -/
theorem receive_eq_disconnected_iff (r : Registry) (id : SubscriptionId) :
    (r.receive id).1 = some .disconnected ↔
      ∃ s, r.find? id = some s ∧ s.registered = false ∧ s.queue = [] := by
  cases hfind : r.find? id with
  | none => simp [receive_of_none hfind]
  | some s =>
      simp only [Option.some.injEq, exists_eq_left']
      cases hqueue : s.queue with
      | nil =>
          rw [receive_of_nil hfind hqueue]
          cases s.registered <;> simp
      | cons e rest => simp [receive_of_cons hfind hqueue]

end Registry

namespace Shared

/-! ## Sets that do not overlap -/

/-- At no time is more than one set between its commit and its announcement. -/
def Sequential (h : History) : Prop :=
  ∀ past ∈ h.inits, (writes past).length ≤ (announced past).length + 1

instance (h : History) : Decidable (Sequential h) :=
  inferInstanceAs (Decidable (∀ past ∈ h.inits, _))

/-- Sets that do not overlap are announced in the order of their commits. -/
theorem announcements_in_order {initial : String} {buffer : Nat} {x : Shared}
    (hx : Reachable initial buffer x) :
    Sequential x.history →
      (writes x.history).map Write.event = announced x.history ++ x.underway.map (·.2) := by
  refine Recorder.run_induction (R := recorder) (P := fun x => Sequential x.history →
    (writes x.history).map Write.event = announced x.history ++ x.underway.map (·.2))
    (fun _ => rfl) ?_ hx
  intro x y x' hreach _ ih h hsequential
  have hpast : x.history <+: x'.history := by
    rw [h.history_eq]
    exact List.prefix_append _ _
  have horder := ih fun past hmem => hsequential past
    ((List.mem_inits _ _).mpr (((List.mem_inits _ _).mp hmem).trans hpast))
  have hlength := congrArg List.length horder
  rw [List.length_map, List.length_append, List.length_map] at hlength
  have hbefore := hsequential x.history ((List.mem_inits _ _).mpr hpast)
  have hafter := hsequential x'.history ((List.mem_inits _ _).mpr List.prefix_rfl)
  rw [h.writes_eq, h.announced_eq] at hafter ⊢
  cases h with
  | commit t content source idle =>
      have hnone : x.underway = [] := by
        rw [List.length_append, List.length_append] at hafter
        simp only [Step.write?, Step.announced?, Option.toList_some, Option.toList_none,
          List.length_singleton, List.length_nil] at hafter
        exact List.eq_nil_of_length_eq_zero (by omega)
      rw [hnone] at horder
      simp only [Step.write?, Step.announced?, Option.toList_some, Option.toList_none,
        List.map_append, List.append_nil, commit, hnone, horder, List.map_nil, List.map_cons]
      rfl
  | announce t e busy =>
      have hone : x.underway = [(t, e)] := by
        have hmem := mem_underway_of_event?_eq_some busy
        have hshort : x.underway.length ≤ 1 := by omega
        cases hunderway : x.underway with
        | nil =>
            rw [hunderway] at hmem
            cases hmem
        | cons p rest =>
            rw [hunderway] at hmem hshort
            obtain rfl : rest = [] :=
              List.eq_nil_of_length_eq_zero (Nat.le_zero.mp (Nat.le_of_succ_le_succ hshort))
            rw [List.mem_singleton.mp hmem]
      simp [Step.write?, Step.announced?, announce, hone, horder]
  | get t => simpa [Step.write?, Step.announced?, get] using horder
  | version t => simpa [Step.write?, Step.announced?, version] using horder
  | listen t c quiet => simpa [Step.write?, Step.announced?, listen] using horder

/-- The events of a store's announcements are all its listeners can hear. -/
theorem filterMap_event?_registryLog {initial : String} {buffer : Nat} {x : Shared}
    (hx : Reachable initial buffer x) :
    ((registryLog x.history).map (·.1)).filterMap Registry.Command.event? =
      announced x.history := by
  refine Recorder.run_induction (R := recorder) (P := fun x =>
    ((registryLog x.history).map (·.1)).filterMap Registry.Command.event? =
      announced x.history) rfl ?_ hx
  intro x y x' _ _ ih h
  rw [h.registryLog_eq, h.announced_eq, List.map_append, List.filterMap_append, ih]
  cases h with
  | listen t c quiet =>
      cases c with
      | broadcast e => exact absurd rfl (quiet e)
      | _ => rfl
  | _ => rfl

/-- Sets that do not overlap reach every listener in the order of their versions. -/
theorem received_versions_increase {initial : String} {buffer : Nat} {x : Shared}
    (hx : Reachable initial buffer x) (hsequential : Sequential x.history)
    (hN : (writes x.history).length + 1 < UInt64.size) (id : SubscriptionId) :
    ((Registry.received id (registryLog x.history)).map (·.version.number)).Pairwise
      (· < ·) := by
  have hreceived := Registry.received_sublist id buffer ((registryLog x.history).map (·.1))
  rw [registry_eq_performAll hx, filterMap_event?_registryLog hx] at hreceived
  have hincrease := (coherent_of_reachable hx).versions_increase hN
  have hevents : (writes x.history).map (·.version.number) =
      ((writes x.history).map Write.event).map (·.version.number) := by
    rw [List.map_map]
    rfl
  rw [hevents, announcements_in_order hx hsequential, List.map_append] at hincrease
  exact (List.pairwise_append.mp hincrease).1.sublist (hreceived.map _)

end Shared

/-! ## The law -/

/-- **Exact delivery**, for every buffer and every listener.  After any commands to a registry:

* the events received, followed by those left in the queue, are the list the reference keeps, and
  while the handle is held those are the ones that wait in the queue;
* the listener is registered, holds its handle and has events waiting as the reference says, so
  the reference decides by what the queue really holds;
* what is kept comes in the order of the broadcasts;
* no queue is longer than the buffer, which counts at least one;
* unsubscribing anyone takes nothing out of the queue;
* a look at the queue reports the end only once the entry is gone and the queue is empty;
* in every other run with the same steps of its own, a listener is told the same and has the
  same left over, whatever the others did.

A run of a store is a run of its registry, and when its sets do not overlap, the versions received
are strictly increasing. -/
theorem exact_delivery (buffer : Nat) (id : SubscriptionId) :
    (∀ cs : List Registry.Command,
      let log := ((Registry.empty buffer).performAll cs).1
      let r := ((Registry.empty buffer).performAll cs).2
      let reference := Listener.stranger.run (max buffer 1) (Registry.ownSteps id log)
      Registry.received id log ++ Registry.lastQueue id (.empty buffer) cs = reference.kept ∧
      (r.find? id).map (·.queue) =
        (if reference.alive then some (Registry.lastQueue id (.empty buffer) cs) else none) ∧
      (r.find? id).map (fun s => (s.registered, s.queue)) =
        (if reference.alive then some (reference.registered, reference.waiting) else none) ∧
      reference.kept.Sublist (cs.filterMap Registry.Command.event?) ∧
      (∀ s ∈ r.subscriptions, s.queue.length ≤ max buffer 1) ∧
      (∀ i, ((r.unsubscribe i).find? id).map (·.queue) = (r.find? id).map (·.queue)) ∧
      ((r.receive id).1 = some .disconnected ↔
        ∃ s, r.find? id = some s ∧ s.registered = false ∧ s.queue = []) ∧
      ∀ cs' id', Registry.ownSteps id' ((Registry.empty buffer).performAll cs').1 =
          Registry.ownSteps id log →
        Registry.told id' ((Registry.empty buffer).performAll cs').1 = Registry.told id log ∧
        Registry.lastQueue id' (.empty buffer) cs' = Registry.lastQueue id (.empty buffer) cs) ∧
    ∀ (initial : String) (schedule : List (Shared.Thread × Shared.Request)),
      let x := Shared.run initial buffer schedule
      let log := Shared.registryLog x.history
      (Registry.empty buffer).performAll (log.map (·.1)) = (log, x.store.registry) ∧
      (Shared.Sequential x.history → (Shared.writes x.history).length + 1 < UInt64.size →
        ((Registry.received id log).map (·.version.number)).Pairwise (· < ·)) := by
  constructor
  · intro cs log r reference
    have hwf : r.WellFormed := Registry.wellFormed_performAll (Registry.wellFormed_empty buffer) cs
    have htracks : Registry.Tracks id r reference := Registry.tracks_performAll
      (Registry.wellFormed_empty buffer) (Registry.tracks_empty id buffer) cs
    have hcapacity : r.capacity = max buffer 1 :=
      Registry.capacity_performAll (Registry.empty buffer) cs
    refine ⟨Registry.received_append_lastQueue id buffer cs, Registry.queue_eq_lastQueue id buffer cs,
      ?_, Registry.kept_sublist id buffer cs, ?_, fun i => Registry.queue_unsubscribe hwf i id,
      Registry.receive_eq_disconnected_iff r id, ?_⟩
    · cases halive : reference.alive
      · rw [htracks.absent halive]
        rfl
      · obtain ⟨s, hs, hregistered, hqueue⟩ := htracks.present halive
        rw [hs, Option.map_some, hregistered, hqueue]
        rfl
    · intro s hs
      rw [← hcapacity]
      exact (hwf.sound s hs).bounded
    · intro cs' id' hown
      exact Registry.told_eq_of_ownSteps_eq hown
  · intro initial schedule x log
    have hx : Shared.Reachable initial buffer x := ⟨schedule, rfl⟩
    exact ⟨Shared.registry_eq_performAll hx,
      fun hsequential hN => Shared.received_versions_increase hx hsequential hN id⟩

/-- A listener with room for one event, which finds the second of three sets too many; and the same
listener beside another one. -/
theorem exact_delivery_full_queue :
    let schedule : List (Shared.Thread × Shared.Request) :=
      [(1, .listen (.subscribe false)), (2, .commit "b" "left"), (2, .announce),
        (3, .commit "c" "right"), (3, .announce), (1, .listen (.receive 1)),
        (2, .commit "d" "left"), (2, .announce), (1, .listen (.drain 1))]
    let x := Shared.run "a" 0 schedule
    let log := Shared.registryLog x.history
    let beside : List Registry.Command :=
      [.subscribe true, .subscribe false, .broadcast ⟨"b", "left", ⟨2⟩⟩, .receive 1,
        .broadcast ⟨"c", "right", ⟨3⟩⟩, .receive 2, .unsubscribe 7, .broadcast ⟨"d", "left", ⟨4⟩⟩,
        .discard 1, .drain 2]
    Shared.Sequential x.history ∧ (Shared.writes x.history).length + 1 < UInt64.size ∧
      ((Registry.received 1 log).map (·.version.number)).Pairwise (· < ·) ∧
      Registry.told 2 ((Registry.empty 0).performAll beside).1 =
        Registry.told 1 ((Registry.empty 0).performAll (log.map (·.1))).1 :=
  ⟨by decide, by decide, ((exact_delivery 0 1).2 "a" _).2 (by decide) (by decide),
    (((exact_delivery 0 1).1 _).2.2.2.2.2.2.2 _ 2 (by decide)).1⟩

end LiveDiagram
