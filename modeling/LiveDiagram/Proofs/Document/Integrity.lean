import LiveDiagram.Proofs.Document.Delivery

/-!
# Events are intact and never ahead of the text

Content, source and version of an event are put together under the lock of the text and sent under
that of the registry, with any number of other writes in between.  Still each event heard is that of
one single set, and by the time anyone hears it the text it tells of can be read.

The link between what is heard and the state of the store is that a listener hears nothing but
announced events, and each of these was committed first.

## Main results

* `heard_sublist_announced`: a listener hears announced events, each once, in their order.
* `events_intact_and_fresh`: the law for every schedule.
-/

namespace LiveDiagram

namespace Registry

/-- What waits behind a handle is what its entry has queued, also when the handle is gone. -/
theorem waiting_of_mem {r : Registry} (h : r.WellFormed) {s : Subscription}
    (hs : s ∈ r.subscriptions) : r.waiting s.id = s.queue := by
  have hbehind : r.behind? s.id = some s := (behind?_eq_some_iff h s.id s).mpr ⟨hs, rfl⟩
  rw [waiting, find?_eq h, hbehind]
  cases hheld : s.held
  · simp [Option.filter, hheld, (h.sound s hs).givenUp hheld]
  · simp [Option.filter, hheld]

end Registry

namespace Shared

/-! ## What a listener hears -/

/-- The reference of the listener behind an id. -/
def reference (buffer : Nat) (id : SubscriptionId) (h : History) : Listener :=
  Listener.stranger.run (max buffer 1) (Registry.ownSteps id (registryLog h))

/-- The events that a listener has received or that wait for it. -/
def heard (id : SubscriptionId) (x : Shared) : List ChangeEvent :=
  Registry.received id (registryLog x.history) ++ x.store.registry.waiting id

theorem wellFormed_registry {initial : String} {buffer : Nat} {x : Shared}
    (hx : Reachable initial buffer x) : x.store.registry.WellFormed := by
  have hwf := Registry.wellFormed_performAll (Registry.wellFormed_empty buffer)
    ((registryLog x.history).map (·.1))
  rwa [registry_eq_performAll hx] at hwf

theorem capacity_registry {initial : String} {buffer : Nat} {x : Shared}
    (hx : Reachable initial buffer x) : x.store.registry.capacity = max buffer 1 := by
  have hcapacity := Registry.capacity_performAll (Registry.empty buffer)
    ((registryLog x.history).map (·.1))
  rwa [registry_eq_performAll hx] at hcapacity

theorem tracks_reference {initial : String} {buffer : Nat} {x : Shared}
    (hx : Reachable initial buffer x) (id : SubscriptionId) :
    Registry.Tracks id x.store.registry (reference buffer id x.history) := by
  have htracks := Registry.tracks_performAll (Registry.wellFormed_empty buffer)
    (Registry.tracks_empty id buffer) ((registryLog x.history).map (·.1))
  rwa [registry_eq_performAll hx] at htracks

theorem heard_eq {initial : String} {buffer : Nat} {x : Shared}
    (hx : Reachable initial buffer x) (id : SubscriptionId) :
    heard id x = (reference buffer id x.history).got ++
      if (reference buffer id x.history).alive then (reference buffer id x.history).waiting
      else [] := by
  have hreceived := Registry.received_performAll id buffer ((registryLog x.history).map (·.1))
  rw [registry_eq_performAll hx] at hreceived
  rw [heard, hreceived, (tracks_reference hx id).waiting_eq]
  rfl

/-- Whoever holds the handle has heard all that was kept. -/
theorem heard_of_alive {initial : String} {buffer : Nat} {x : Shared}
    (hx : Reachable initial buffer x) {id : SubscriptionId}
    (halive : (reference buffer id x.history).alive = true) :
    heard id x = (reference buffer id x.history).kept := by
  rw [heard_eq hx, if_pos halive, Listener.got_append_waiting]

/-- A listener hears announced events, each once, in their order. -/
theorem heard_sublist_announced {initial : String} {buffer : Nat} {x : Shared}
    (hx : Reachable initial buffer x) (id : SubscriptionId) :
    (heard id x).Sublist (announced x.history) := by
  have hkept := Registry.kept_sublist id buffer ((registryLog x.history).map (·.1))
  rw [registry_eq_performAll hx, filterMap_event?_registryLog hx] at hkept
  refine List.Sublist.trans ?_ hkept
  rw [heard_eq hx]
  split
  · rw [Listener.got_append_waiting]
    exact List.Sublist.refl _
  · rw [List.append_nil]
    exact List.take_sublist _ _

/-! ## Where an event comes from -/

/-- What was announced was committed by the same thread. -/
theorem exists_set_of_announced {initial : String} {buffer : Nat} {x : Shared}
    (hx : Reachable initial buffer x) {e : ChangeEvent} (he : e ∈ announced x.history) :
    ∃ t offers w, (t, Step.commit w) ∈ x.history ∧ (t, Step.announce e offers) ∈ x.history ∧
      e = w.event := by
  obtain ⟨t, offers, hannounce⟩ := mem_announced_iff.mp he
  have hown : e ∈ announced (ofThread t x.history) :=
    mem_announced_iff.mpr ⟨t, offers, List.mem_filter.mpr ⟨hannounce, by simp⟩⟩
  have hcalls := (accounted_of_reachable hx).calls t
  have hcommitted : e ∈ (writes (ofThread t x.history)).map Write.event := by
    rw [hcalls]
    exact List.mem_append_left _ hown
  obtain ⟨w, hw, rfl⟩ := List.mem_map.mp hcommitted
  obtain ⟨u, hcommit⟩ := mem_writes_iff.mp hw
  obtain ⟨hmem, hthread⟩ := List.mem_filter.mp hcommit
  obtain rfl : u = t := by simpa using hthread
  exact ⟨u, offers, w, hmem, hannounce, rfl⟩

/-- The text of the store is that of the write with its version. -/
theorem Coherent.snapshot_of_version_eq {initial : String} {x : Shared}
    (hc : Coherent initial x) (hN : (writes x.history).length + 1 < UInt64.size) {w : Write}
    (hw : w ∈ writes x.history) (h : w.version = x.store.version) :
    w.snapshot = x.store.snapshot := by
  rcases latest_cases initial (writes x.history) with ⟨hnone, _⟩ | ⟨last, hlast, hlatest⟩
  · rw [hnone] at hw
    cases hw
  · have hsnapshot : x.store.snapshot = last.snapshot := hc.snapshot.trans hlatest
    have hversion : w.version = last.version := h.trans (congrArg Snapshot.version hsnapshot)
    rw [hsnapshot, hc.eq_of_version_eq hN hw hlast hversion]

/-- An event with the version of the store tells of the text that the store holds. -/
theorem snapshot_of_announced {initial : String} {buffer : Nat} {x : Shared}
    (hx : Reachable initial buffer x) (hN : (writes x.history).length + 1 < UInt64.size)
    {e : ChangeEvent} (he : e ∈ announced x.history) (h : e.version = x.store.version) :
    ⟨e.content, e.version⟩ = x.store.snapshot := by
  obtain ⟨w, hw, rfl⟩ := (accounted_of_reachable hx).exists_write (List.mem_append_left _ he)
  exact (coherent_of_reachable hx).snapshot_of_version_eq hN hw h

/-- The store is never behind an event that was announced. -/
theorem version_le_of_announced {initial : String} {buffer : Nat} {x : Shared}
    (hx : Reachable initial buffer x) (hN : (writes x.history).length + 1 < UInt64.size)
    {e : ChangeEvent} (he : e ∈ announced x.history) :
    e.version.number ≤ x.store.version.number := by
  obtain ⟨t, offers, hmem⟩ := mem_announced_iff.mp he
  exact known_le_version hx hN hmem rfl

/-- The events that a step handed out. -/
def Step.received : Step → List ChangeEvent
  | .listen (.receive _) reply => reply.events
  | .listen (.drain _) reply => reply.events
  | _ => []

/-- What a step handed out, some listener has received. -/
theorem exists_mem_heard_of_received {x : Shared} {y : Thread × Step} (hy : y ∈ x.history)
    {e : ChangeEvent} (he : e ∈ y.2.received) : ∃ id, e ∈ heard id x := by
  obtain ⟨t, step⟩ := y
  have hheard : ∀ id c reply, Step.logged? step = some (c, reply) →
      Registry.told? id (c, reply) = some reply → e ∈ reply.events → e ∈ heard id x := by
    intro id c reply hlogged htold hevent
    refine List.mem_append_left _ (List.mem_flatMap.mpr ⟨reply, ?_, hevent⟩)
    refine List.mem_filterMap.mpr ⟨(c, reply), ?_, htold⟩
    exact List.mem_filterMap.mpr ⟨(t, step), hy, hlogged⟩
  cases step with
  | listen c reply =>
      cases c with
      | receive id => exact ⟨id, hheard id _ reply rfl (if_pos rfl) he⟩
      | drain id => exact ⟨id, hheard id _ reply rfl (if_pos rfl) he⟩
      | _ => cases he
  | _ => cases he

/-- Whoever reads after receiving an event reads no older text. -/
theorem pairwise_received_read {initial : String} {buffer : Nat} {x : Shared}
    (hx : Reachable initial buffer x) (hN : (writes x.history).length + 1 < UInt64.size) :
    x.history.Pairwise fun a b => ∀ e ∈ a.2.received, ∀ v, b.2.read? = some v →
      e.version.number ≤ v.number := by
  have hall := pairwise_read (K := fun y v => ∃ e ∈ y.received, e.version = v) ?_ hx hN
  · exact hall.imp fun h e he v hv => h e.version v ⟨e, he, rfl⟩ hv
  · rintro x hx hN y hy v ⟨e, he, rfl⟩
    obtain ⟨id, hheard⟩ := exists_mem_heard_of_received hy he
    exact version_le_of_announced hx hN ((heard_sublist_announced hx id).subset hheard)

/-! ## The law -/

/-- **Intact and fresh events**, after every schedule.  What a listener has heard are the events it
received and those in its queue; the queue is that of its entry, held or not.

* Each event heard is the content, the source and the version of one set, which its thread
  committed and announced.

As long as versions are told apart, that is with fewer writes than a word can count:

* nobody hears a version twice;
* no other set has the event's version, the store is at that version or past it, and if it is at
  it, it holds the event's content;
* whoever reads after receiving an event reads that version or a later one. -/
theorem events_intact_and_fresh (initial : String) (buffer : Nat)
    (schedule : List (Thread × Request)) :
    let x := run initial buffer schedule
    (∀ s ∈ x.store.registry.subscriptions, x.store.registry.waiting s.id = s.queue) ∧
    (∀ id, ∀ e ∈ heard id x, ∃ t offers w, (t, Step.commit w) ∈ x.history ∧
      (t, Step.announce e offers) ∈ x.history ∧ e = w.event) ∧
    ((writes x.history).length + 1 < UInt64.size →
      (∀ id, ((heard id x).map (·.version)).Nodup) ∧
      (∀ id, ∀ e ∈ heard id x,
        (∀ w ∈ writes x.history, w.version = e.version → e = w.event) ∧
        e.version.number ≤ x.store.version.number ∧
        (e.version = x.store.version → e.content = x.store.content)) ∧
      x.history.Pairwise fun a b => ∀ e ∈ a.2.received, ∀ v, b.2.read? = some v →
        e.version.number ≤ v.number) := by
  intro x
  have hx : Reachable initial buffer x := ⟨schedule, rfl⟩
  have hannounced : ∀ id, ∀ e ∈ heard id x, e ∈ announced x.history :=
    fun id e he => (heard_sublist_announced hx id).subset he
  refine ⟨fun s hs => Registry.waiting_of_mem (wellFormed_registry hx) hs,
    fun id e he => exists_set_of_announced hx (hannounced id e he), ?_⟩
  intro hN
  have hc := coherent_of_reachable hx
  refine ⟨?_, ?_, pairwise_received_read hx hN⟩
  · intro id
    have hall := announced_nodup hc (accounted_of_reachable hx) hN
    rw [List.map_append] at hall
    exact (List.nodup_append.mp hall).1.sublist ((heard_sublist_announced hx id).map _)
  · intro id e he
    refine ⟨?_, version_le_of_announced hx hN (hannounced id e he), ?_⟩
    · obtain ⟨w, hw, rfl⟩ := (accounted_of_reachable hx).exists_write
        (List.mem_append_left _ (hannounced id e he))
      intro w' hw' hversion
      rw [hc.eq_of_version_eq hN hw' hw hversion]
    · intro hversion
      exact congrArg Snapshot.content
        (snapshot_of_announced hx hN (hannounced id e he) hversion)

/-- Of two sets that overlap the later is announced first; its listener then reads the text. -/
theorem events_intact_overlapping_sets :
    let schedule : List (Thread × Request) :=
      [(1, .listen (.subscribe false)), (2, .commit "b" "left"), (3, .commit "c" "right"),
        (3, .announce), (1, .listen (.receive 1)), (1, .get), (2, .announce)]
    let x := run "a" 4 schedule
    let e : ChangeEvent := ⟨"c", "right", ⟨3⟩⟩
    (writes x.history).length + 1 < UInt64.size ∧ e ∈ heard 1 x ∧
      e.version = x.store.version ∧ e.content = x.store.content :=
  ⟨by decide, by decide, by decide,
    (((events_intact_and_fresh "a" 4 _).2.2 (by decide)).2.1 1 _ (by decide)).2.2 (by decide)⟩

end Shared

end LiveDiagram
