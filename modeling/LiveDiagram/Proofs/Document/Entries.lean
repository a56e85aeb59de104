import LiveDiagram.Document.Registry

/-!
# The registry, one id at a time

Every operation of the registry changes each subscription by itself and then forgets those with
neither end left.  This module says so once, in terms of `behind?`, the subscription behind an id:
afterwards nobody has to look into the list.

The list is one of distinct, issued ids and of subscriptions that are still of use to someone.
`WellFormed` collects that; it holds of the empty registry and survives every command.

## Main results

* `wellFormed_perform`: a registry stays well formed whatever it is asked for.
* `Proper.behind?_change`, `ProperAt.behind?_changeAt_ne`: a change reaches the subscription behind an
  id, and nobody else.
* `find?_broadcast`, `find?_unsubscribe_self`, `find?_discard_self`, `find?_subscribe_self`: what an
  operation means to whoever holds the handle.
-/

namespace LiveDiagram

namespace Subscription

/-- What every operation leaves true of a subscription: the queue keeps to its capacity, and nothing
waits in the queue of a handle that was given up. -/
structure Sound (capacity : Nat) (s : Subscription) : Prop where
  bounded : s.queue.length ≤ capacity
  givenUp : s.held = false → s.queue = []

theorem Sound.unsubscribe {capacity : Nat} {s : Subscription} (h : s.Sound capacity) :
    s.unsubscribe.Sound capacity :=
  ⟨h.bounded, h.givenUp⟩

theorem sound_discard (capacity : Nat) (s : Subscription) : s.discard.Sound capacity :=
  ⟨Nat.zero_le _, fun _ => rfl⟩

/-- A change of the queue alone is sound if the new queue is. -/
theorem Sound.withQueue {capacity : Nat} {s : Subscription} (h : s.Sound capacity)
    (q : List ChangeEvent) (hq : q.length ≤ s.queue.length) :
    { s with queue := q : Subscription }.Sound capacity := by
  constructor
  · exact Nat.le_trans hq h.bounded
  · intro hheld
    rw [h.givenUp hheld] at hq
    exact List.eq_nil_of_length_eq_zero (Nat.le_zero.mp hq)

/-- An event is delivered to an entry whose handle is held and has room. -/
theorem offer_eq_delivered_iff (capacity : Nat) (s : Subscription) :
    s.offer capacity = .delivered ↔
      s.registered = true ∧ s.held = true ∧ s.queue.length < capacity := by
  unfold offer
  cases s.registered
  · simp
  · cases s.held
    · simp
    · by_cases hroom : s.queue.length < capacity <;> simp [hroom]

/-- While the handle is held, an offer adds the event or changes nothing. -/
theorem afterOffer_of_held (capacity : Nat) (e : ChangeEvent) {s : Subscription}
    (hheld : s.held = true) :
    s.afterOffer capacity e =
      if s.registered = true ∧ s.queue.length < capacity then
        { s with queue := s.queue ++ [e] }
      else s := by
  unfold afterOffer offer
  cases hreg : s.registered
  · simp
  · by_cases hroom : s.queue.length < capacity <;> simp [hheld, hroom]

/-- Nothing comes back once the handle is gone. -/
theorem held_afterOffer (capacity : Nat) (e : ChangeEvent) (s : Subscription) :
    (s.afterOffer capacity e).held = s.held := by
  unfold afterOffer
  split <;> rfl

theorem Sound.afterOffer {capacity : Nat} {s : Subscription} (h : s.Sound capacity)
    (e : ChangeEvent) : (s.afterOffer capacity e).Sound capacity := by
  cases hoffer : s.offer capacity with
  | skipped => simpa only [Subscription.afterOffer, hoffer] using h
  | dropped => simpa only [Subscription.afterOffer, hoffer] using h
  | pruned => simpa only [Subscription.afterOffer, hoffer] using h.unsubscribe
  | delivered =>
      obtain ⟨_, hheld, hroom⟩ := (offer_eq_delivered_iff capacity s).mp hoffer
      simp only [Subscription.afterOffer, hoffer]
      constructor
      · rw [List.length_append]
        exact hroom
      · intro hgone
        exact absurd (hheld.symm.trans hgone) (by decide)

@[simp] theorem id_afterOffer (capacity : Nat) (e : ChangeEvent) (s : Subscription) :
    (s.afterOffer capacity e).id = s.id := by
  unfold Subscription.afterOffer
  split <;> rfl

end Subscription

namespace Registry

/-- The subscription behind an id, held or not. -/
def behind? (r : Registry) (id : SubscriptionId) : Option Subscription :=
  r.subscriptions.find? fun s => s.id = id

/-- What every operation leaves true of a registry. -/
structure WellFormed (r : Registry) : Prop where
  issued : ∀ s ∈ r.subscriptions, s.id < r.nextId
  distinct : r.subscriptions.Pairwise fun s t => s.id ≠ t.id
  live : ∀ s ∈ r.subscriptions, s.isLive = true
  sound : ∀ s ∈ r.subscriptions, s.Sound r.capacity

theorem wellFormed_empty (buffer : Nat) : (empty buffer).WellFormed where
  issued := by simp [empty]
  distinct := List.Pairwise.nil
  live := by simp [empty]
  sound := by simp [empty]

/-! ## Looking an id up -/

/-- In a list of distinct ids an id names one subscription. -/
private theorem eq_of_id_eq {l : List Subscription}
    (h : l.Pairwise fun s t => s.id ≠ t.id) {s t : Subscription} (hs : s ∈ l) (ht : t ∈ l)
    (hid : s.id = t.id) : s = t := by
  induction l with
  | nil => cases hs
  | cons a l ih =>
      obtain ⟨hhead, htail⟩ := List.pairwise_cons.mp h
      rcases List.mem_cons.mp hs with rfl | hsTail
      · rcases List.mem_cons.mp ht with rfl | htTail
        · rfl
        · exact absurd hid (hhead t htTail)
      · rcases List.mem_cons.mp ht with rfl | htTail
        · exact absurd hid.symm (hhead s hsTail)
        · exact ih htail hsTail htTail

/-- A search that stays with one id finds whatever fits. -/
private theorem search_eq_some_iff {r : Registry} (h : r.WellFormed) (id : SubscriptionId)
    (p : Subscription → Bool) (hp : ∀ s, p s = true → s.id = id) (s : Subscription) :
    r.subscriptions.find? p = some s ↔ s ∈ r.subscriptions ∧ p s = true := by
  constructor
  · intro hfind
    exact ⟨List.mem_of_find?_eq_some hfind, List.find?_some hfind⟩
  · rintro ⟨hmem, hps⟩
    obtain ⟨t, ht⟩ := Option.isSome_iff_exists.mp (List.find?_isSome.mpr ⟨s, hmem, hps⟩)
    have hid : t.id = s.id := (hp t (List.find?_some ht)).trans (hp s hps).symm
    rw [ht, eq_of_id_eq h.distinct (List.mem_of_find?_eq_some ht) hmem hid]

theorem behind?_eq_some_iff {r : Registry} (h : r.WellFormed) (id : SubscriptionId)
    (s : Subscription) : r.behind? id = some s ↔ s ∈ r.subscriptions ∧ s.id = id := by
  have hsearch := search_eq_some_iff h id (fun s => s.id = id) (fun s hs => by simpa using hs) s
  simpa only [behind?, decide_eq_true_eq] using hsearch

/-- A handle that is held is an entry like any other. -/
theorem find?_eq {r : Registry} (h : r.WellFormed) (id : SubscriptionId) :
    r.find? id = (r.behind? id).filter (·.held) := by
  apply Option.ext
  intro s
  rw [find?, search_eq_some_iff h id _ (fun s hs => by simpa using (Bool.and_eq_true_iff.mp hs).1),
    Option.filter_eq_some_iff, behind?_eq_some_iff h, Bool.and_eq_true, decide_eq_true_eq, and_assoc]

theorem find?_eq_some_iff {r : Registry} (h : r.WellFormed) (id : SubscriptionId)
    (s : Subscription) : r.find? id = some s ↔ r.behind? id = some s ∧ s.held = true := by
  rw [find?_eq h, Option.filter_eq_some_iff]

/-! ## Changing a registry -/

/-- A change that may be made to every subscription of a registry. -/
structure Proper (r : Registry) (f : Subscription → Subscription) : Prop where
  id_eq : ∀ s, (f s).id = s.id
  sound : ∀ s ∈ r.subscriptions, (f s).Sound r.capacity

theorem Proper.wellFormed {r : Registry} (h : r.WellFormed) {f : Subscription → Subscription}
    (hf : r.Proper f) : (r.change f).WellFormed where
  issued := by
    intro t ht
    obtain ⟨s, hs, rfl⟩ := List.mem_map.mp (List.mem_filter.mp ht).1
    rw [hf.id_eq]
    exact h.issued s hs
  distinct := by
    apply List.Pairwise.filter
    rw [List.pairwise_map]
    simpa only [hf.id_eq] using h.distinct
  live := by
    intro t ht
    exact (List.mem_filter.mp ht).2
  sound := by
    intro t ht
    obtain ⟨s, hs, rfl⟩ := List.mem_map.mp (List.mem_filter.mp ht).1
    exact hf.sound s hs

theorem Proper.behind?_change {r : Registry} (h : r.WellFormed) {f : Subscription → Subscription}
    (hf : r.Proper f) (id : SubscriptionId) :
    (r.change f).behind? id = ((r.behind? id).map f).filter Subscription.isLive := by
  apply Option.ext
  intro t
  rw [behind?_eq_some_iff (hf.wellFormed h), Option.filter_eq_some_iff, Option.map_eq_some_iff]
  constructor
  · rintro ⟨hmem, rfl⟩
    obtain ⟨hmap, hlive⟩ := List.mem_filter.mp hmem
    obtain ⟨s, hs, rfl⟩ := List.mem_map.mp hmap
    exact ⟨⟨s, (behind?_eq_some_iff h _ s).mpr ⟨hs, (hf.id_eq s).symm⟩, rfl⟩, hlive⟩
  · rintro ⟨⟨s, hs, rfl⟩, hlive⟩
    obtain ⟨hmem, hid⟩ := (behind?_eq_some_iff h id s).mp hs
    exact ⟨List.mem_filter.mpr ⟨List.mem_map.mpr ⟨s, hmem, rfl⟩, hlive⟩,
      (hf.id_eq s).trans hid⟩

/-- A change that may be made to the subscription behind one id. -/
structure ProperAt (r : Registry) (id : SubscriptionId) (f : Subscription → Subscription) :
    Prop where
  id_eq : ∀ s, (f s).id = s.id
  sound : ∀ s ∈ r.subscriptions, s.id = id → (f s).Sound r.capacity

theorem ProperAt.proper {r : Registry} (h : r.WellFormed) {id : SubscriptionId}
    {f : Subscription → Subscription} (hf : r.ProperAt id f) :
    r.Proper fun s => if s.id = id then f s else s where
  id_eq := by
    intro s
    by_cases hid : s.id = id
    · rw [if_pos hid, hf.id_eq]
    · rw [if_neg hid]
  sound := by
    intro s hs
    by_cases hid : s.id = id
    · rw [if_pos hid]
      exact hf.sound s hs hid
    · rw [if_neg hid]
      exact h.sound s hs

theorem ProperAt.wellFormed {r : Registry} (h : r.WellFormed) {id : SubscriptionId}
    {f : Subscription → Subscription} (hf : r.ProperAt id f) : (r.changeAt id f).WellFormed :=
  (hf.proper h).wellFormed h

theorem ProperAt.behind?_changeAt_self {r : Registry} (h : r.WellFormed) {id : SubscriptionId}
    {f : Subscription → Subscription} (hf : r.ProperAt id f) :
    (r.changeAt id f).behind? id = ((r.behind? id).map f).filter Subscription.isLive := by
  rw [changeAt, (hf.proper h).behind?_change h]
  cases hs : r.behind? id with
  | none => rfl
  | some s =>
      have hid : s.id = id := ((behind?_eq_some_iff h id s).mp hs).2
      simp only [Option.map_some, if_pos hid]

/-- Nobody else notices. -/
theorem ProperAt.behind?_changeAt_ne {r : Registry} (h : r.WellFormed) {id : SubscriptionId}
    {f : Subscription → Subscription} (hf : r.ProperAt id f) {other : SubscriptionId}
    (hne : other ≠ id) : (r.changeAt id f).behind? other = r.behind? other := by
  rw [changeAt, (hf.proper h).behind?_change h]
  cases hs : r.behind? other with
  | none => rfl
  | some s =>
      obtain ⟨hmem, hid⟩ := (behind?_eq_some_iff h other s).mp hs
      rw [Option.map_some, if_neg (by rw [hid]; exact hne)]
      simp [h.live s hmem]

/-- Whoever holds a handle sees the change itself: a held subscription is never forgotten. -/
theorem Proper.find?_change {r : Registry} (h : r.WellFormed) {f : Subscription → Subscription}
    (hf : r.Proper f) (hheld : ∀ s, (f s).held = s.held) (id : SubscriptionId) :
    (r.change f).find? id = (r.find? id).map f := by
  rw [find?_eq (hf.wellFormed h), find?_eq h, hf.behind?_change h]
  cases r.behind? id with
  | none => rfl
  | some s =>
      cases hs : s.held
      · by_cases hlive : (f s).isLive = true <;> simp [Option.filter, hlive, hheld, hs]
      · simp [Option.filter, hheld, hs, Subscription.isLive]

theorem ProperAt.find?_changeAt_self {r : Registry} (h : r.WellFormed) {id : SubscriptionId}
    {f : Subscription → Subscription} (hf : r.ProperAt id f) (hheld : ∀ s, (f s).held = s.held) :
    (r.changeAt id f).find? id = (r.find? id).map f := by
  rw [changeAt, (hf.proper h).find?_change h]
  · cases hs : r.find? id with
    | none => rfl
    | some s =>
        have hid : s.id = id :=
          ((behind?_eq_some_iff h id s).mp ((find?_eq_some_iff h id s).mp hs).1).2
        simp only [Option.map_some, if_pos hid]
  · intro s
    split
    · exact hheld s
    · rfl

theorem ProperAt.find?_changeAt_ne {r : Registry} (h : r.WellFormed) {id : SubscriptionId}
    {f : Subscription → Subscription} (hf : r.ProperAt id f) {other : SubscriptionId}
    (hne : other ≠ id) : (r.changeAt id f).find? other = r.find? other := by
  rw [find?_eq (hf.wellFormed h), find?_eq h, hf.behind?_changeAt_ne h hne]

/-! ## The operations -/

theorem properAt_unsubscribe {r : Registry} (h : r.WellFormed) (id : SubscriptionId) :
    r.ProperAt id Subscription.unsubscribe :=
  ⟨fun _ => rfl, fun s hs _ => (h.sound s hs).unsubscribe⟩

theorem properAt_discard (r : Registry) (id : SubscriptionId) :
    r.ProperAt id Subscription.discard :=
  ⟨fun _ => rfl, fun s _ _ => Subscription.sound_discard r.capacity s⟩

/-- Taking events out of a queue is proper. -/
theorem properAt_withQueue {r : Registry} (h : r.WellFormed) {id : SubscriptionId}
    {q : List ChangeEvent} (hq : ∀ s, r.behind? id = some s → q.length ≤ s.queue.length) :
    r.ProperAt id fun s => { s with queue := q } where
  id_eq := fun _ => rfl
  sound := by
    intro s hs hid
    exact (h.sound s hs).withQueue q (hq s ((behind?_eq_some_iff h id s).mpr ⟨hs, hid⟩))

theorem properAt_clear {r : Registry} (h : r.WellFormed) (id : SubscriptionId) :
    r.ProperAt id fun s => { s with queue := [] } :=
  properAt_withQueue h fun s _ => Nat.zero_le s.queue.length

theorem proper_afterOffer {r : Registry} (h : r.WellFormed) (e : ChangeEvent) :
    r.Proper (Subscription.afterOffer r.capacity e) :=
  ⟨Subscription.id_afterOffer r.capacity e, fun s hs => (h.sound s hs).afterOffer e⟩

theorem wellFormed_subscribe {r : Registry} (h : r.WellFormed) (tied : Bool) :
    (r.subscribe tied).2.WellFormed where
  issued := by
    intro s hs
    rcases List.mem_append.mp hs with hold | hnew
    · exact Nat.lt_succ_of_lt (h.issued s hold)
    · obtain rfl := List.mem_singleton.mp hnew
      exact Nat.lt_succ_self _
  distinct := by
    refine List.pairwise_append.mpr ⟨h.distinct, List.pairwise_singleton _ _, ?_⟩
    intro s hs t ht
    obtain rfl := List.mem_singleton.mp ht
    exact Nat.ne_of_lt (h.issued s hs)
  live := by
    intro s hs
    rcases List.mem_append.mp hs with hold | hnew
    · exact h.live s hold
    · obtain rfl := List.mem_singleton.mp hnew
      rfl
  sound := by
    intro s hs
    rcases List.mem_append.mp hs with hold | hnew
    · exact h.sound s hold
    · obtain rfl := List.mem_singleton.mp hnew
      exact ⟨Nat.zero_le _, fun _ => rfl⟩

theorem behind?_subscribe_self {r : Registry} (h : r.WellFormed) (tied : Bool) :
    (r.subscribe tied).2.behind? r.nextId = some ⟨r.nextId, tied, true, true, []⟩ := by
  rw [behind?_eq_some_iff (wellFormed_subscribe h tied)]
  exact ⟨List.mem_append_right _ (List.mem_singleton_self _), rfl⟩

theorem behind?_subscribe_ne (r : Registry) (tied : Bool) {id : SubscriptionId}
    (hne : id ≠ r.nextId) : (r.subscribe tied).2.behind? id = r.behind? id := by
  have hnew : r.nextId ≠ id := fun heq => hne heq.symm
  simp [subscribe, behind?, List.find?_append, hnew]

theorem find?_subscribe_self {r : Registry} (h : r.WellFormed) (tied : Bool) :
    (r.subscribe tied).2.find? r.nextId = some ⟨r.nextId, tied, true, true, []⟩ := by
  rw [find?_eq (wellFormed_subscribe h tied), behind?_subscribe_self h]
  rfl

theorem find?_subscribe_ne {r : Registry} (h : r.WellFormed) (tied : Bool) {id : SubscriptionId}
    (hne : id ≠ r.nextId) : (r.subscribe tied).2.find? id = r.find? id := by
  rw [find?_eq (wellFormed_subscribe h tied), find?_eq h, behind?_subscribe_ne r tied hne]

theorem find?_unsubscribe_self {r : Registry} (h : r.WellFormed) (id : SubscriptionId) :
    (r.unsubscribe id).find? id = (r.find? id).map Subscription.unsubscribe :=
  (properAt_unsubscribe h id).find?_changeAt_self h fun _ => rfl

theorem find?_discard_self {r : Registry} (h : r.WellFormed) (id : SubscriptionId) :
    (r.discard id).find? id = none := by
  have hproper := properAt_discard r id
  rw [discard, find?_eq (hproper.wellFormed h), hproper.behind?_changeAt_self h]
  cases r.behind? id with
  | none => rfl
  | some s =>
      have hheld : s.discard.held = false := rfl
      by_cases hlive : s.discard.isLive = true <;> simp [Option.filter, hlive, hheld]

theorem find?_broadcast {r : Registry} (h : r.WellFormed) (e : ChangeEvent)
    (id : SubscriptionId) :
    (r.broadcast e).2.find? id = (r.find? id).map (Subscription.afterOffer r.capacity e) :=
  (proper_afterOffer h e).find?_change h (Subscription.held_afterOffer r.capacity e) id

theorem receive_of_none {r : Registry} {id : SubscriptionId} (hfind : r.find? id = none) :
    r.receive id = (none, r) := by
  simp only [receive, hfind]

theorem receive_of_nil {r : Registry} {id : SubscriptionId} {s : Subscription}
    (hfind : r.find? id = some s) (hqueue : s.queue = []) :
    r.receive id = (some (if s.registered then .empty else .disconnected), r) := by
  simp only [receive, hfind, hqueue]

theorem receive_of_cons {r : Registry} {id : SubscriptionId} {s : Subscription}
    {e : ChangeEvent} {rest : List ChangeEvent} (hfind : r.find? id = some s)
    (hqueue : s.queue = e :: rest) :
    r.receive id = (some (.event e), r.changeAt id fun s => { s with queue := rest }) := by
  simp only [receive, hfind, hqueue]

/-- The rest of a queue fits where the queue was. -/
theorem properAt_rest {r : Registry} (h : r.WellFormed) {id : SubscriptionId} {s : Subscription}
    {e : ChangeEvent} {rest : List ChangeEvent} (hfind : r.find? id = some s)
    (hqueue : s.queue = e :: rest) : r.ProperAt id fun s => { s with queue := rest } := by
  refine properAt_withQueue h fun t ht => ?_
  obtain rfl : s = t :=
    Option.some.inj (((find?_eq_some_iff h id s).mp hfind).1.symm.trans ht)
  rw [hqueue]
  exact Nat.le_succ _

theorem wellFormed_receive {r : Registry} (h : r.WellFormed) (id : SubscriptionId) :
    (r.receive id).2.WellFormed := by
  cases hfind : r.find? id with
  | none => rwa [receive_of_none hfind]
  | some s =>
      cases hqueue : s.queue with
      | nil => rwa [receive_of_nil hfind hqueue]
      | cons e rest =>
          rw [receive_of_cons hfind hqueue]
          exact (properAt_rest h hfind hqueue).wellFormed h

/-- A registry stays well formed whatever it is asked for. -/
theorem wellFormed_perform {r : Registry} (h : r.WellFormed) (c : Command) :
    (r.perform c).2.WellFormed := by
  cases c with
  | subscribe tied => exact wellFormed_subscribe h tied
  | unsubscribe id => exact (properAt_unsubscribe h id).wellFormed h
  | discard id =>
      simp only [perform]
      split
      · exact (properAt_discard r id).wellFormed h
      · exact h
  | broadcast e => exact (proper_afterOffer h e).wellFormed h
  | receive id => exact wellFormed_receive h id
  | drain id => exact (properAt_clear h id).wellFormed h
  | pending id => exact h
  | count => exact h
  | capacity => exact h

theorem capacity_receive (r : Registry) (id : SubscriptionId) :
    (r.receive id).2.capacity = r.capacity := by
  unfold receive
  split
  · rfl
  · split <;> rfl

/-- The capacity is set once and for all. -/
theorem capacity_perform (r : Registry) (c : Command) :
    (r.perform c).2.capacity = r.capacity := by
  cases c with
  | discard id =>
      simp only [perform]
      split <;> rfl
  | receive id => exact capacity_receive r id
  | _ => rfl

theorem nextId_receive (r : Registry) (id : SubscriptionId) :
    (r.receive id).2.nextId = r.nextId := by
  unfold receive
  split
  · rfl
  · split <;> rfl

/-- Ids only grow. -/
theorem nextId_le_perform (r : Registry) (c : Command) : r.nextId ≤ (r.perform c).2.nextId := by
  cases c with
  | subscribe tied => exact Nat.le_succ _
  | discard id =>
      simp only [perform]
      split <;> exact Nat.le_refl _
  | receive id => exact Nat.le_of_eq (nextId_receive r id).symm
  | _ => exact Nat.le_refl _

end Registry

end LiveDiagram
