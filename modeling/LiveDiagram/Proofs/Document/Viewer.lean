import LiveDiagram.Proofs.Document.Integrity

/-!
# No window for lost updates

A viewer subscribes first and reads second.  Whatever was committed before the read is in the text it
read, and whatever is committed later is announced later still, when the viewer is subscribed.  A
set that straddles the read is announced late: its event is offered although the viewer has read its
text already, which does no harm.

So as long as no event is dropped, the newest of all that a viewer has in hand is the text of the
store, in whatever order it arrived.

## Main results

* `Registry.Tracks.mem_offers_iff`: what a broadcast offers to a listener that is still there.
* `offered_of_lt`: every later version is offered to a viewer.
* `no_lost_update`: the law for every schedule.
-/

namespace LiveDiagram

namespace Listener

/-- Once subscribed, a listener stays until it leaves. -/
theorem run_of_staying (capacity : Nat) {l : Listener} (hregistered : l.registered = true)
    (halive : l.alive = true) {steps : List Step} (hunsubscribe : .unsubscribe ∉ steps)
    (hdiscard : .discard ∉ steps) :
    (l.run capacity steps).registered = true ∧ (l.run capacity steps).alive = true := by
  induction steps generalizing l with
  | nil => exact ⟨hregistered, halive⟩
  | cons o os ih =>
      rw [List.mem_cons, not_or] at hunsubscribe hdiscard
      have hstep : (l.step capacity o).registered = true ∧ (l.step capacity o).alive = true := by
        by_cases hsubscribe : o = .subscribe
        · subst hsubscribe
          exact ⟨rfl, rfl⟩
        · rw [registered_step capacity l hsubscribe (Ne.symm hunsubscribe.1),
            alive_step capacity l hsubscribe (Ne.symm hdiscard.1)]
          exact ⟨hregistered, halive⟩
      exact ih hstep.1 hstep.2 hunsubscribe.2 hdiscard.2

end Listener

namespace Registry

/-- What a broadcast offers to a listener that is still there. -/
theorem Tracks.mem_offers_iff {id : SubscriptionId} {r : Registry} {l : Listener}
    (h : r.WellFormed) (ht : Tracks id r l) (hregistered : l.registered = true)
    (halive : l.alive = true) (o : Offer) :
    (id, o) ∈ r.offers ↔
      o = if l.waiting.length < r.capacity then .delivered else .dropped := by
  obtain ⟨s, hs, hentry, hqueue⟩ := ht.present halive
  obtain ⟨hbehind, hheld⟩ := (find?_eq_some_iff h id s).mp hs
  obtain ⟨hmem, hid⟩ := (behind?_eq_some_iff h id s).mp hbehind
  have hoffer : s.offer r.capacity =
      if l.waiting.length < r.capacity then .delivered else .dropped := by
    simp [Subscription.offer, hentry, hregistered, hheld, hqueue]
  rw [← hoffer, offers, List.mem_map]
  constructor
  · rintro ⟨t, ht, hpair⟩
    obtain ⟨htid, rfl⟩ := Prod.mk.inj hpair
    have hsame := (behind?_eq_some_iff h id t).mpr ⟨ht, htid⟩
    rw [Option.some.inj (hbehind.symm.trans hsame)]
  · rintro rfl
    exact ⟨s, hmem, by rw [hid]⟩

end Registry

namespace Shared

/-! ## A listener that stays -/

/-- The subscription that a step ends, at either end. -/
def Step.left? : Step → Option SubscriptionId
  | .listen (.unsubscribe id) _ => some id
  | .listen (.discard id) _ => some id
  | _ => none

/-- Someone subscribed, then read the text, and has not left since. -/
def Views (h : History) (id : SubscriptionId) (seen : Snapshot) : Prop :=
  ∃ before t tied between u after,
    h = before ++ (t, .listen (.subscribe tied) (.subscribed id)) :: between ++
      (u, .get seen) :: after ∧
    ∀ y ∈ between ++ after, y.2.left? ≠ some id

theorem reference_append (buffer : Nat) (id : SubscriptionId) (a b : History) :
    reference buffer id (a ++ b) = (reference buffer id a).run (max buffer 1)
      (Registry.ownSteps id (registryLog b)) := by
  rw [reference, registryLog_append, Registry.ownSteps, List.filterMap_append,
    Listener.run_append]
  rfl

/-- A step that leaves nobody is no step by which its listener leaves. -/
theorem own?_of_staying {id : SubscriptionId} {y : Step} (hstay : y.left? ≠ some id)
    {z : Registry.Command × Registry.Reply} (hz : y.logged? = some z) :
    Registry.own? id z ≠ some .unsubscribe ∧ Registry.own? id z ≠ some .discard := by
  cases y with
  | announce e offers =>
      cases hz
      constructor <;> intro heq <;> cases heq
  | listen c reply =>
      cases hz
      cases c with
      | unsubscribe i =>
          have hother : ¬ i = id := fun heq => hstay (congrArg some heq)
          simp [Registry.own?, hother]
      | discard i =>
          have hother : ¬ i = id := fun heq => hstay (congrArg some heq)
          simp [Registry.own?, hother]
      | subscribe tied =>
          cases reply with
          | subscribed i => by_cases hid : i = id <;> simp [Registry.own?, hid]
          | _ => constructor <;> intro heq <;> cases heq
      | receive i => by_cases hid : i = id <;> simp [Registry.own?, hid]
      | drain i => by_cases hid : i = id <;> simp [Registry.own?, hid]
      | pending i => by_cases hid : i = id <;> simp [Registry.own?, hid]
      | _ => constructor <;> intro heq <;> cases heq
  | _ => cases hz

theorem notMem_ownSteps_of_staying {id : SubscriptionId} {h : History}
    (hstay : ∀ y ∈ h, y.2.left? ≠ some id) :
    .unsubscribe ∉ Registry.ownSteps id (registryLog h) ∧
      .discard ∉ Registry.ownSteps id (registryLog h) := by
  have hno : ∀ o ∈ Registry.ownSteps id (registryLog h), o ≠ .unsubscribe ∧ o ≠ .discard := by
    intro o ho
    obtain ⟨z, hz, hown⟩ := List.mem_filterMap.mp ho
    obtain ⟨y, hy, hlogged⟩ := List.mem_filterMap.mp hz
    obtain ⟨hunsubscribe, hdiscard⟩ := own?_of_staying (hstay y hy) hlogged
    rw [hown] at hunsubscribe hdiscard
    exact ⟨fun heq => hunsubscribe (congrArg some heq), fun heq => hdiscard (congrArg some heq)⟩
  exact ⟨fun hmem => (hno _ hmem).1 rfl, fun hmem => (hno _ hmem).2 rfl⟩

theorem Views.exists_get {h : History} {id : SubscriptionId} {seen : Snapshot}
    (hviews : Views h id seen) : ∃ t, (t, Step.get seen) ∈ h := by
  obtain ⟨before, t, tied, between, u, after, rfl, -⟩ := hviews
  exact ⟨u, List.mem_append_right _ List.mem_cons_self⟩

/-- A viewer is registered and holds its handle. -/
theorem Views.registered_and_alive {h : History} {id : SubscriptionId} {seen : Snapshot}
    (hviews : Views h id seen) (buffer : Nat) :
    (reference buffer id h).registered = true ∧ (reference buffer id h).alive = true := by
  obtain ⟨before, t, tied, between, u, after, rfl, hstay⟩ := hviews
  have hrest : ∀ y ∈ between ++ (u, .get seen) :: after, y.2.left? ≠ some id := by
    intro y hy
    rcases List.mem_append.mp hy with hbetween | hread
    · exact hstay y (List.mem_append_left _ hbetween)
    · rcases List.mem_cons.mp hread with rfl | hafter
      · intro hleft
        cases hleft
      · exact hstay y (List.mem_append_right _ hafter)
  have hlog : registryLog ((t, .listen (.subscribe tied) (.subscribed id)) ::
      (between ++ (u, .get seen) :: after)) =
        (.subscribe tied, .subscribed id) :: registryLog (between ++ (u, .get seen) :: after) :=
    rfl
  rw [List.append_assoc, List.cons_append, reference_append, hlog, Registry.ownSteps_cons,
    Listener.run_append, Registry.own?, if_pos rfl]
  obtain ⟨hunsubscribe, hdiscard⟩ := notMem_ownSteps_of_staying hrest
  exact Listener.run_of_staying (max buffer 1) rfl rfl hunsubscribe hdiscard

/-! ## Every later version is offered -/

/-- A step by which more becomes known than was read follows the read. -/
theorem mem_after_of_lt {initial : String} {buffer : Nat} {x : Shared}
    (hx : Reachable initial buffer x) (hN : (writes x.history).length + 1 < UInt64.size)
    {past after : History} {u : Thread} {seen : Snapshot}
    (hhistory : x.history = past ++ (u, .get seen) :: after) {y : Thread × Step}
    (hy : y ∈ x.history) {v : Version} (hknown : y.2.known? = some v)
    (hlt : seen.version.number < v.number) : y ∈ after := by
  have hordered := ordered_of_reachable hx hN
  rw [hhistory] at hordered hy
  rcases List.mem_append.mp hy with hpast | hrest
  · have hle := (List.pairwise_append.mp hordered).2.2 y hpast _ List.mem_cons_self v seen.version
      hknown rfl
    exact absurd hlt (UInt64.not_lt.mpr hle)
  · rcases List.mem_cons.mp hrest with rfl | hafter
    · cases hknown
      exact absurd hlt (UInt64.lt_irrefl _)
    · exact hafter

/-- An event that finds room is kept. -/
theorem mem_kept_of_room (capacity : Nat) {l : Listener} (hregistered : l.registered = true)
    (halive : l.alive = true) (hroom : l.waiting.length < capacity) (id : SubscriptionId)
    (t : Thread) (e : ChangeEvent) (offers : List (SubscriptionId × Offer)) (later : History) :
    e ∈ (l.run capacity
      (Registry.ownSteps id (registryLog ((t, .announce e offers) :: later)))).kept := by
  have hlog : registryLog ((t, .announce e offers) :: later) =
      (.broadcast e, .broadcast (.ofOffers offers)) :: registryLog later := rfl
  have hkept : (l.step capacity (.broadcast e)).kept = l.kept ++ [e] := by
    rw [Listener.step, if_pos ⟨hregistered, halive, hroom⟩]
  have hprefix := Listener.kept_isPrefix_run capacity (l.step capacity (.broadcast e))
    (Registry.ownSteps id (registryLog later))
  rw [hlog, Registry.ownSteps_cons, Listener.run_append]
  apply hprefix.subset
  rw [hkept]
  exact List.mem_append_right _ (List.mem_singleton_self e)

/-- Every later version is offered to a viewer, which hears it unless its queue is full. -/
theorem offered_of_lt {initial : String} {buffer : Nat} {x : Shared}
    (hx : Reachable initial buffer x) (hN : (writes x.history).length + 1 < UInt64.size)
    {id : SubscriptionId} {seen : Snapshot} (hviews : Views x.history id seen) {t : Thread}
    {e : ChangeEvent} {offers : List (SubscriptionId × Offer)}
    (hannounce : (t, Step.announce e offers) ∈ x.history)
    (hlt : seen.version.number < e.version.number) :
    ((id, .delivered) ∈ offers ∧ e ∈ heard id x) ∨ (id, .dropped) ∈ offers := by
  have hstill := hviews.registered_and_alive buffer
  obtain ⟨before, s, tied, between, u, after, hhistory, hstay⟩ := hviews
  have hmem := mem_after_of_lt hx hN hhistory hannounce rfl hlt
  obtain ⟨soon, later, rfl⟩ := List.append_of_mem hmem
  -- The announcement was a move from a state in which the viewer was there already.
  have hsplit : x.history = (before ++ (s, .listen (.subscribe tied) (.subscribed id)) :: between ++
      (u, .get seen) :: soon) ++ (t, .announce e offers) :: later := by
    rw [hhistory, List.append_assoc _ _ (_ :: later)]
    rfl
  obtain ⟨p, q, hp, hmove, hpast⟩ := exists_move hx hsplit
  rw [← hpast] at hsplit
  have hthere : Views p.history id seen := by
    refine ⟨before, s, tied, between, u, soon, hpast, ?_⟩
    intro y hy
    apply hstay
    rcases List.mem_append.mp hy with hbetween | hsoon
    · exact List.mem_append_left _ hbetween
    · exact List.mem_append_right _ (List.mem_append_left _ hsoon)
  obtain ⟨hregistered, halive⟩ := hthere.registered_and_alive buffer
  have hoffers := (tracks_reference hp id).mem_offers_iff (wellFormed_registry hp) hregistered
    halive
  rw [capacity_registry hp] at hoffers
  cases hmove with
  | announce _ _ busy =>
      by_cases hroom : (reference buffer id p.history).waiting.length < max buffer 1
      · left
        refine ⟨(hoffers .delivered).mpr (if_pos hroom).symm, ?_⟩
        rw [heard_of_alive hx hstill.2, hsplit, reference_append]
        exact mem_kept_of_room (max buffer 1) hregistered halive hroom id t e _ later
      · exact Or.inr ((hoffers .dropped).mpr (if_neg hroom).symm)

/-! ## The newest in hand -/

/-- A read at the version of the store is what the store holds. -/
theorem Coherent.seen_of_version_eq {initial : String} {x : Shared} (hc : Coherent initial x)
    (hN : (writes x.history).length + 1 < UInt64.size) {t : Thread} {seen : Snapshot}
    (hseen : (t, Step.get seen) ∈ x.history) (h : seen.version = x.store.version) :
    seen = x.store.snapshot := by
  rcases hc.seen t seen hseen with rfl | ⟨w, hw, rfl⟩
  · -- The first version is that of a store without writes.
    have hnumber : Version.initial.number.toNat =
        (Version.after (writes x.history).length).number.toNat :=
      congrArg (·.number.toNat) (h.trans hc.version)
    rw [← Version.after_zero, Version.toNat_after (by decide), Version.toNat_after hN] at hnumber
    have hnone : writes x.history = [] :=
      List.eq_nil_of_length_eq_zero (Nat.succ.inj hnumber).symm
    rw [hc.snapshot, hnone]
    rfl
  · exact hc.snapshot_of_version_eq hN hw h

/-- What a step offered to each subscription. -/
def Step.offers : Step → List (SubscriptionId × Offer)
  | .announce _ offers => offers
  | _ => []

/-- What a viewer has in hand: what it read, and what it heard. -/
def inHand (id : SubscriptionId) (seen : Snapshot) (x : Shared) : List Snapshot :=
  seen :: (heard id x).map fun e => ⟨e.content, e.version⟩

/-- A viewer has nothing newer in hand than the store, and nothing else of its version. -/
theorem version_le_of_inHand {initial : String} {buffer : Nat} {x : Shared}
    (hx : Reachable initial buffer x) (hN : (writes x.history).length + 1 < UInt64.size)
    {id : SubscriptionId} {seen : Snapshot} {t : Thread}
    (hseen : (t, Step.get seen) ∈ x.history) {item : Snapshot} (hitem : item ∈ inHand id seen x) :
    item.version.number ≤ x.store.version.number ∧
      (item.version = x.store.version → item = x.store.snapshot) := by
  have hc := coherent_of_reachable hx
  rcases List.mem_cons.mp hitem with rfl | hevent
  · exact ⟨known_le_version hx hN hseen rfl, hc.seen_of_version_eq hN hseen⟩
  · obtain ⟨e, he, rfl⟩ := List.mem_map.mp hevent
    have hannounced := (heard_sublist_announced hx id).subset he
    exact ⟨version_le_of_announced hx hN hannounced, snapshot_of_announced hx hN hannounced⟩

/-- Every set of a history is still underway or has been announced. -/
theorem underway_or_announced {initial : String} {buffer : Nat} {x : Shared}
    (hx : Reachable initial buffer x) {w : Write} (hw : w ∈ writes x.history) :
    (∃ t, (t, w.event) ∈ x.underway) ∨ w.event ∈ announced x.history := by
  have hmem := (accounted_of_reachable hx).events.subset (List.mem_map_of_mem hw)
  rcases List.mem_append.mp hmem with hannounced | hunderway
  · exact Or.inr hannounced
  · obtain ⟨⟨t, e⟩, hte, heq⟩ := List.mem_map.mp hunderway
    exact Or.inl ⟨t, heq ▸ hte⟩

/-- When all is announced and nothing was dropped, a viewer has in hand what the store holds. -/
theorem snapshot_mem_inHand {initial : String} {buffer : Nat} {x : Shared}
    (hx : Reachable initial buffer x) (hN : (writes x.history).length + 1 < UInt64.size)
    {id : SubscriptionId} {seen : Snapshot} (hviews : Views x.history id seen)
    (hdone : x.underway = [])
    (hroom : ∀ y ∈ x.history, (id, .dropped) ∉ y.2.offers) :
    x.store.snapshot ∈ inHand id seen x := by
  have hc := coherent_of_reachable hx
  obtain ⟨u, hseen⟩ := hviews.exists_get
  by_cases hcurrent : seen.version = x.store.version
  · rw [← hc.seen_of_version_eq hN hseen hcurrent]
    exact List.mem_cons_self
  · -- The last write is later than the read, so it was offered and found room.
    rcases latest_cases initial (writes x.history) with ⟨hnone, _⟩ | ⟨w, hw, hlatest⟩
    · rcases hc.seen u seen hseen with rfl | ⟨w, hw, -⟩
      · rw [hc.version, hnone] at hcurrent
        exact absurd rfl hcurrent
      · rw [hnone] at hw
        cases hw
    · have hsnapshot : x.store.snapshot = w.snapshot := hc.snapshot.trans hlatest
      have hversion : x.store.version = w.version := congrArg Snapshot.version hsnapshot
      have hle : seen.version.number ≤ x.store.version.number := known_le_version hx hN hseen rfl
      have hlt : seen.version.number < w.version.number := by
        rw [← hversion]
        exact UInt64.lt_of_le_of_ne hle fun heq => hcurrent (congrArg Version.mk heq)
      rcases underway_or_announced hx hw with ⟨t, hunderway⟩ | hannounced
      · rw [hdone] at hunderway
        cases hunderway
      · obtain ⟨t, offers, hmem⟩ := mem_announced_iff.mp hannounced
        rcases offered_of_lt hx hN hviews hmem hlt with ⟨-, hheard⟩ | hdropped
        · rw [hsnapshot]
          exact List.mem_cons_of_mem _ (List.mem_map_of_mem hheard)
        · exact absurd hdropped (hroom _ hmem)

/-- **No lost update**, after every schedule, for a viewer `id` that read `seen`:

* every set is still underway or has been announced;
* every announcement of a version later than the one read was offered to the viewer, which has
  heard it unless its queue was full;
* once no set is underway, and if no announcement found the queue full, the viewer has in hand what
  the store holds, and nothing of a later version or of the same version with another text.

There must be fewer writes than a word can count, since versions are compared. -/
theorem no_lost_update (initial : String) (buffer : Nat) (schedule : List (Thread × Request))
    (id : SubscriptionId) (seen : Snapshot)
    (hN : (writes (run initial buffer schedule).history).length + 1 < UInt64.size)
    (hviews : Views (run initial buffer schedule).history id seen) :
    let x := run initial buffer schedule
    (∀ w ∈ writes x.history, (∃ t, (t, w.event) ∈ x.underway) ∨ w.event ∈ announced x.history) ∧
    (∀ t e offers, (t, Step.announce e offers) ∈ x.history →
      seen.version.number < e.version.number →
      ((id, .delivered) ∈ offers ∧ e ∈ heard id x) ∨ (id, .dropped) ∈ offers) ∧
    (x.underway = [] → (∀ y ∈ x.history, (id, .dropped) ∉ y.2.offers) →
      x.store.snapshot ∈ inHand id seen x ∧
      ∀ item ∈ inHand id seen x, item.version.number ≤ x.store.version.number ∧
        (item.version = x.store.version → item = x.store.snapshot)) := by
  intro x
  have hx : Reachable initial buffer x := ⟨schedule, rfl⟩
  refine ⟨fun w hw => underway_or_announced hx hw,
    fun t e offers hannounce hlt => offered_of_lt hx hN hviews hannounce hlt, ?_⟩
  intro hdone hroom
  obtain ⟨u, hseen⟩ := hviews.exists_get
  exact ⟨snapshot_mem_inHand hx hN hviews hdone hroom,
    fun item hitem => version_le_of_inHand hx hN hseen hitem⟩

/-- Two sets straddle a read; the earlier, which the read saw, is announced last. -/
theorem no_lost_update_late_event :
    let schedule : List (Thread × Request) :=
      [(1, .listen (.subscribe true)), (2, .commit "b" "left"), (1, .get),
        (3, .commit "c" "right"), (3, .announce), (1, .listen (.receive 1)), (2, .announce)]
    let x := run "a" 4 schedule
    Views x.history 1 ⟨"b", ⟨2⟩⟩ ∧ x.store.snapshot ∈ inHand 1 ⟨"b", ⟨2⟩⟩ x := by
  intro schedule x
  have hviews : Views x.history 1 ⟨"b", ⟨2⟩⟩ :=
    ⟨[], 1, true, [(2, .commit ⟨"b", "left", ⟨2⟩⟩)], 1, x.history.drop 3, by decide, by decide⟩
  exact ⟨hviews,
    ((no_lost_update "a" 4 schedule 1 ⟨"b", ⟨2⟩⟩ (by decide) hviews).2.2 (by decide)
      (by decide)).1⟩

end Shared

end LiveDiagram
