import LiveDiagram.Proofs.Document.Delivery

/-!
# Who is registered

An entry goes in three ways: it is unsubscribed, its tied handle is given up, or its plain handle is
given up and the next broadcast finds nobody there.  The last one is silent, so between two broadcasts
the registry may hold entries that nobody listens to.  A broadcast clears them away, and counts them.

Two things keep the books straight.  Ids are handed out in ascending order and never again, and the
entries at any time are some of the ids handed out, in that order (`registeredIds_performAll`).  And
whatever a command does, each subscription afterwards descends from one before it or is the new one
(`exists_descends_of_mem_perform`): none is registered again, and a tied one is registered no longer
than its handle is held.

## Main results

* `handedOut_performAll`: ids count up from the next id, without a gap.
* `registeredIds_broadcast`: a broadcast removes the entries whose handle is gone, and no others.
* `alive_run_iff`, `registered_run_iff`: the reference of a listener, read off its steps.
* `neither_leaks_nor_reuses`: the law for every run.
-/

namespace LiveDiagram

/-! ## What a listener has done and not undone -/

namespace Listener

/-- A listener subscribed, and has not taken this step since. -/
def SubscribedWithout (o : Step) (steps : List Step) : Prop :=
  ∃ before after, steps = before ++ .subscribe :: after ∧ o ∉ after

theorem subscribedWithout_append_subscribe (o : Step) (steps : List Step) :
    SubscribedWithout o (steps ++ [.subscribe]) :=
  ⟨steps, [], rfl, List.not_mem_nil⟩

/-- A later step undoes the subscription only if it is the one that must not be taken. -/
theorem subscribedWithout_append_iff {o o' : Step} (ho : o' ≠ .subscribe) (steps : List Step) :
    SubscribedWithout o (steps ++ [o']) ↔ SubscribedWithout o steps ∧ o' ≠ o := by
  constructor
  · rintro ⟨before, after, hsteps, hafter⟩
    rcases List.eq_nil_or_concat' after with rfl | ⟨front, last, rfl⟩
    · obtain ⟨-, hlast⟩ := List.append_inj' hsteps rfl
      exact absurd (List.singleton_inj.mp hlast) ho
    · rw [← List.cons_append, ← List.append_assoc] at hsteps
      obtain ⟨hfront, hlast⟩ := List.append_inj' hsteps rfl
      obtain rfl := List.singleton_inj.mp hlast
      rw [List.mem_append, not_or, List.mem_singleton] at hafter
      exact ⟨⟨before, front, hfront, hafter.1⟩, fun heq => hafter.2 heq.symm⟩
  · rintro ⟨⟨before, after, rfl, hafter⟩, hne⟩
    refine ⟨before, after ++ [o'], by simp, ?_⟩
    rw [List.mem_append, not_or, List.mem_singleton]
    exact ⟨hafter, fun heq => hne heq.symm⟩

/-- A flag that subscribing sets, one other step clears and no further step touches. -/
private theorem flag_run_iff {capacity : Nat} {flag : Listener → Bool} {o : Step}
    (hstranger : flag stranger = false) (hne : o ≠ .subscribe)
    (hset : ∀ l, flag (step capacity l .subscribe) = true)
    (hclear : ∀ l, flag (step capacity l o) = false)
    (hkeep : ∀ l o', o' ≠ .subscribe → o' ≠ o → flag (step capacity l o') = flag l)
    (steps : List Step) :
    flag (stranger.run capacity steps) = true ↔ SubscribedWithout o steps := by
  induction steps using List.reverseRecOn with
  | nil =>
      refine ⟨fun h => absurd (h.symm.trans hstranger) (by decide), ?_⟩
      rintro ⟨before, after, hnil, -⟩
      exact absurd hnil.symm (by simp)
  | append_singleton steps last ih =>
      rw [run_append]
      show flag (step capacity (stranger.run capacity steps) last) = true ↔ _
      by_cases hsubscribe : last = .subscribe
      · subst hsubscribe
        rw [hset]
        exact ⟨fun _ => subscribedWithout_append_subscribe o steps, fun _ => rfl⟩
      · rw [subscribedWithout_append_iff hsubscribe]
        by_cases hlast : last = o
        · subst hlast
          rw [hclear]
          exact ⟨fun h => absurd h (by decide), fun h => absurd rfl h.2⟩
        · rw [hkeep _ _ hsubscribe hlast, ih]
          exact ⟨fun h => ⟨h, hlast⟩, fun h => h.1⟩

/-- A handle is held if it was given out and not given up since. -/
theorem alive_run_iff (capacity : Nat) (steps : List Step) :
    (stranger.run capacity steps).alive = true ↔ SubscribedWithout .discard steps :=
  flag_run_iff rfl (by decide) (fun _ => rfl) (fun _ => rfl)
    (fun l _ hsubscribe hdiscard => alive_step capacity l hsubscribe hdiscard) steps

/-- An entry stands if it was made and not taken out since. -/
theorem registered_run_iff (capacity : Nat) (steps : List Step) :
    (stranger.run capacity steps).registered = true ↔ SubscribedWithout .unsubscribe steps :=
  flag_run_iff rfl (by decide) (fun _ => rfl) (fun _ => rfl)
    (fun l _ hsubscribe hunsubscribe => registered_step capacity l hsubscribe hunsubscribe) steps

end Listener

namespace Registry

/-! ## Ids -/

/-- The id that an answer hands out. -/
def Reply.handedOut? : Reply → Option SubscriptionId
  | .subscribed id => some id
  | _ => none

/-- The ids handed out in a run, in their order. -/
def handedOut (log : List (Command × Reply)) : List SubscriptionId :=
  log.filterMap fun x => x.2.handedOut?

/-- The ids of the entries, in the order in which they came. -/
def registeredIds (r : Registry) : List SubscriptionId :=
  (r.subscriptions.filter (·.registered)).map (·.id)

theorem handedOut_cons (x : Command × Reply) (log : List (Command × Reply)) :
    handedOut (x :: log) = x.2.handedOut?.toList ++ handedOut log := by
  unfold handedOut
  cases hout : x.2.handedOut? <;> simp [hout]

/-! ## What a command does to a subscription -/

/-- A subscription before a command and what has become of it afterwards. -/
structure Descends (s s' : Subscription) : Prop where
  id_eq : s'.id = s.id
  tied_eq : s'.tied = s.tied
  /-- Nobody is registered again. -/
  registered : s'.registered = true → s.registered = true
  /-- A handle that was given up is not held again. -/
  held : s'.held = true → s.held = true
  /-- A tied entry goes with its handle. -/
  bound : s.tied = true → s'.registered = true → s.held = true → s'.held = true

namespace Descends

theorem refl (s : Subscription) : Descends s s :=
  ⟨rfl, rfl, id, id, fun _ _ => id⟩

theorem trans {s s' s'' : Subscription} (h : Descends s s') (h' : Descends s' s'') :
    Descends s s'' where
  id_eq := h'.id_eq.trans h.id_eq
  tied_eq := h'.tied_eq.trans h.tied_eq
  registered hreg := h.registered (h'.registered hreg)
  held hheld := h.held (h'.held hheld)
  bound htied hreg hheld :=
    h'.bound (h.tied_eq.trans htied) hreg (h.bound htied (h'.registered hreg) hheld)

theorem queue (s : Subscription) (q : List ChangeEvent) : Descends s { s with queue := q } :=
  ⟨rfl, rfl, id, id, fun _ _ => id⟩

theorem unsubscribe (s : Subscription) : Descends s s.unsubscribe where
  id_eq := rfl
  tied_eq := rfl
  registered h := by cases h
  held := id
  bound _ h := by cases h

theorem discard (s : Subscription) : Descends s s.discard where
  id_eq := rfl
  tied_eq := rfl
  registered h := (Bool.and_eq_true_iff.mp h).1
  held h := by cases h
  bound htied h := by
    have hloose := (Bool.and_eq_true_iff.mp h).2
    rw [htied] at hloose
    cases hloose

theorem afterOffer (capacity : Nat) (e : ChangeEvent) (s : Subscription) :
    Descends s (s.afterOffer capacity e) := by
  unfold Subscription.afterOffer
  split
  · exact refl s
  · exact refl s
  · exact queue s _
  · exact unsubscribe s

/-- What is done to one id alone. -/
theorem at_id {f : Subscription → Subscription} (hf : ∀ s, Descends s (f s)) (id : SubscriptionId)
    (s : Subscription) : Descends s (if s.id = id then f s else s) := by
  split
  · exact hf s
  · exact refl s

end Descends

/-- A command makes the next subscription, or it changes each one by itself and hands no id out. -/
theorem perform_cases (r : Registry) (c : Command) :
    (∃ tied, c = .subscribe tied) ∨
      (r.perform c).1.handedOut? = none ∧
        ((r.perform c).2 = r ∨ ∃ f, (∀ s, Descends s (f s)) ∧ (r.perform c).2 = r.change f) := by
  cases c with
  | subscribe tied => exact Or.inl ⟨tied, rfl⟩
  | unsubscribe id => exact Or.inr ⟨rfl, Or.inr ⟨_, .at_id .unsubscribe id, rfl⟩⟩
  | discard id =>
      right
      simp only [perform]
      split
      · exact ⟨rfl, Or.inr ⟨_, .at_id .discard id, rfl⟩⟩
      · exact ⟨rfl, Or.inl rfl⟩
  | broadcast e => exact Or.inr ⟨rfl, Or.inr ⟨_, .afterOffer r.capacity e, rfl⟩⟩
  | receive id =>
      right
      simp only [perform, receive]
      split
      · exact ⟨rfl, Or.inl rfl⟩
      · split
        · exact ⟨rfl, Or.inr ⟨_, .at_id (fun s => .queue s _) id, rfl⟩⟩
        · exact ⟨rfl, Or.inl rfl⟩
  | drain id =>
      refine Or.inr ⟨?_, Or.inr ⟨_, .at_id (fun s => .queue s []) id, rfl⟩⟩
      show ((r.drain id).1.elim Reply.noHandle Reply.drained).handedOut? = none
      cases (r.drain id).1 <;> rfl
  | pending id =>
      refine Or.inr ⟨?_, Or.inl rfl⟩
      show ((r.pending id).elim Reply.noHandle Reply.queued).handedOut? = none
      cases r.pending id <;> rfl
  | count => exact Or.inr ⟨rfl, Or.inl rfl⟩
  | capacity => exact Or.inr ⟨rfl, Or.inl rfl⟩

/-! ## Ids -/

/-- Ids count up from the next id, without a gap. -/
theorem handedOut_performAll (r : Registry) (cs : List Command) :
    handedOut (r.performAll cs).1 =
        List.range' r.nextId (handedOut (r.performAll cs).1).length ∧
      (r.performAll cs).2.nextId = r.nextId + (handedOut (r.performAll cs).1).length := by
  induction cs generalizing r with
  | nil => exact ⟨rfl, rfl⟩
  | cons c cs ih =>
      obtain ⟨hids, hnext⟩ := ih (r.perform c).2
      rw [performAll_cons, handedOut_cons]
      rcases perform_cases r c with ⟨tied, rfl⟩ | ⟨hout, hsame⟩
      · have hout : (r.perform (.subscribe tied)).1.handedOut? = some r.nextId := rfl
        have hsucc : (r.perform (.subscribe tied)).2.nextId = r.nextId + 1 := rfl
        rw [hsucc] at hids hnext
        rw [hout, Option.toList_some, List.singleton_append, List.length_cons, List.range'_succ]
        exact ⟨congrArg _ hids, hnext.trans (by rw [Nat.add_assoc, Nat.add_comm 1])⟩
      · have hnextId : (r.perform c).2.nextId = r.nextId := by
          rcases hsame with hsame | ⟨f, -, hsame⟩ <;> rw [hsame]
          rfl
        rw [hnextId] at hids hnext
        rw [hout]
        exact ⟨hids, hnext⟩

theorem nextId_le_of_mem_handedOut {r : Registry} {cs : List Command} {id : SubscriptionId}
    (h : id ∈ handedOut (r.performAll cs).1) :
    r.nextId ≤ id ∧ id < (r.performAll cs).2.nextId := by
  obtain ⟨hids, hnext⟩ := handedOut_performAll r cs
  rw [hids, List.mem_range'_1] at h
  rw [hnext]
  exact h

theorem mem_handedOut {log : List (Command × Reply)} {c : Command} {id : SubscriptionId}
    (h : (c, .subscribed id) ∈ log) : id ∈ handedOut log :=
  List.mem_filterMap.mpr ⟨_, h, rfl⟩

/-- An id is handed out to one subscriber. -/
theorem eq_of_handedOut {r : Registry} {cs : List Command} {c c' : Command} {id : SubscriptionId}
    (h : (c, .subscribed id) ∈ (r.performAll cs).1)
    (h' : (c', .subscribed id) ∈ (r.performAll cs).1) : c = c' := by
  induction cs generalizing r with
  | nil => cases h
  | cons d cs ih =>
      rw [performAll_cons] at h h'
      have hlater : ∀ {x : Command}, (x, .subscribed id) = (d, (r.perform d).1) →
          ∀ {y : Command}, (y, .subscribed id) ∉ ((r.perform d).2.performAll cs).1 := by
        intro x hx y hy
        obtain ⟨hle, -⟩ := nextId_le_of_mem_handedOut (mem_handedOut hy)
        obtain ⟨-, hreply⟩ := Prod.mk.inj hx
        rcases perform_cases r d with ⟨tied, rfl⟩ | ⟨hout, -⟩
        · cases hreply
          exact Nat.not_succ_le_self _ hle
        · rw [← hreply] at hout
          cases hout
      rcases List.mem_cons.mp h with hhead | htail
      · rcases List.mem_cons.mp h' with hhead' | htail'
        · exact (Prod.mk.inj hhead).1.trans (Prod.mk.inj hhead').1.symm
        · exact absurd htail' (hlater hhead)
      · rcases List.mem_cons.mp h' with hhead' | htail'
        · exact absurd htail (hlater hhead')
        · exact ih htail htail'

/-! ## Where a subscription comes from -/

theorem exists_of_mem_change {r : Registry} {f : Subscription → Subscription} {s' : Subscription}
    (h : s' ∈ (r.change f).subscriptions) : ∃ s ∈ r.subscriptions, f s = s' :=
  List.mem_map.mp (List.mem_filter.mp h).1

/-- Each subscription after a run descends from one before it, or was handed out in the course of
it. -/
theorem exists_descends_of_mem_performAll {r : Registry} {cs : List Command} {s' : Subscription}
    (h : s' ∈ (r.performAll cs).2.subscriptions) :
    (∃ s ∈ r.subscriptions, Descends s s') ∨
      ∃ id tied, (.subscribe tied, .subscribed id) ∈ (r.performAll cs).1 ∧
        Descends ⟨id, tied, true, true, []⟩ s' := by
  induction cs generalizing r with
  | nil => exact Or.inl ⟨s', h, .refl s'⟩
  | cons c cs ih =>
      rw [performAll_cons] at h ⊢
      rcases ih h with ⟨s, hs, hdescends⟩ | ⟨id, tied, hlog, hdescends⟩
      · rcases perform_cases r c with ⟨tied, rfl⟩ | ⟨-, hsame | ⟨f, hf, hchange⟩⟩
        · rcases List.mem_append.mp hs with hold | hnew
          · exact Or.inl ⟨s, hold, hdescends⟩
          · obtain rfl := List.mem_singleton.mp hnew
            exact Or.inr ⟨r.nextId, tied, List.mem_cons_self, hdescends⟩
        · rw [hsame] at hs
          exact Or.inl ⟨s, hs, hdescends⟩
        · rw [hchange] at hs
          obtain ⟨t, ht, rfl⟩ := exists_of_mem_change hs
          exact Or.inl ⟨t, ht, (hf t).trans hdescends⟩
      · exact Or.inr ⟨id, tied, List.mem_cons_of_mem _ hlog, hdescends⟩

/-- A handle that was given up stays given up. -/
theorem find?_performAll_eq_none {r : Registry} (h : r.WellFormed) {id : SubscriptionId}
    (hissued : id < r.nextId) (hnone : r.find? id = none) (cs : List Command) :
    (r.performAll cs).2.find? id = none := by
  rw [Option.eq_none_iff_forall_ne_some]
  intro s' hs'
  have hwf := wellFormed_performAll h cs
  obtain ⟨hbehind, hheld⟩ := (find?_eq_some_iff hwf id s').mp hs'
  obtain ⟨hmem, hid⟩ := (behind?_eq_some_iff hwf id s').mp hbehind
  rcases exists_descends_of_mem_performAll hmem with ⟨s, hs, hdescends⟩ | ⟨i, tied, hlog, hdescends⟩
  · have hfind : r.find? id = some s := (find?_eq_some_iff h id s).mpr
      ⟨(behind?_eq_some_iff h id s).mpr ⟨hs, hdescends.id_eq.symm.trans hid⟩, hdescends.held hheld⟩
    rw [hnone] at hfind
    cases hfind
  · obtain rfl : id = i := hid.symm.trans hdescends.id_eq
    exact absurd hissued (Nat.not_lt.mpr (nextId_le_of_mem_handedOut (mem_handedOut hlog)).1)

/-- Once a handle was given up, nobody holds it. -/
theorem find?_of_discarded {r : Registry} (h : r.WellFormed) {id : SubscriptionId}
    {cs : List Command} (hlog : (.discard id, .discarded) ∈ (r.performAll cs).1) :
    (r.performAll cs).2.find? id = none := by
  induction cs generalizing r with
  | nil => cases hlog
  | cons c cs ih =>
      rw [performAll_cons] at hlog ⊢
      rcases List.mem_cons.mp hlog with hhead | htail
      · obtain ⟨rfl, hreply⟩ := Prod.mk.inj hhead
        have hnext := wellFormed_perform h (.discard id)
        simp only [perform] at hreply hnext ⊢
        split at hreply
        · next hheld =>
            rw [if_pos hheld] at hnext ⊢
            obtain ⟨s, hs⟩ := Option.isSome_iff_exists.mp hheld
            obtain ⟨hmem, rfl⟩ :=
              (behind?_eq_some_iff h id s).mp ((find?_eq_some_iff h id s).mp hs).1
            exact find?_performAll_eq_none hnext (h.issued s hmem) (find?_discard_self h s.id) cs
        · cases hreply
      · exact ih (wellFormed_perform h c) htail

/-! ## Entries -/

theorem count_eq_length (r : Registry) : r.count = r.registeredIds.length := by
  rw [count, registeredIds, List.length_map, List.countP_eq_length_filter]

theorem mem_registeredIds_iff {r : Registry} (h : r.WellFormed) (id : SubscriptionId) :
    id ∈ r.registeredIds ↔ ∃ s, r.behind? id = some s ∧ s.registered = true := by
  simp only [registeredIds, List.mem_map, List.mem_filter, behind?_eq_some_iff h]
  exact exists_congr fun s => and_right_comm

/-- The entries that a change leaves. -/
theorem registeredIds_change (r : Registry) {f : Subscription → Subscription}
    (hid : ∀ s, (f s).id = s.id) :
    (r.change f).registeredIds = (r.subscriptions.filter fun s => (f s).registered).map (·.id) := by
  have hlive : ∀ s : Subscription, (s.registered && s.isLive) = s.registered := by
    intro s
    cases hs : s.registered <;> simp [Subscription.isLive, hs]
  rw [registeredIds, change, List.filter_filter]
  simp only [hlive]
  rw [List.filter_map, List.map_map]
  exact List.map_congr_left fun s _ => hid s

/-- What decides by the id alone which entries stay. -/
theorem registeredIds_change_eq_filter (r : Registry) {f : Subscription → Subscription}
    {p : SubscriptionId → Bool} (hid : ∀ s, (f s).id = s.id)
    (hp : ∀ s ∈ r.subscriptions, (f s).registered = (s.registered && p s.id)) :
    (r.change f).registeredIds = r.registeredIds.filter p := by
  rw [registeredIds_change r hid, registeredIds, List.filter_map, List.filter_filter]
  refine congrArg _ (List.filter_congr fun s hs => ?_)
  rw [hp s hs, Bool.and_comm]
  rfl

/-- Unsubscribing takes one entry out, if it is there. -/
theorem registeredIds_unsubscribe (r : Registry) (id : SubscriptionId) :
    (r.unsubscribe id).registeredIds = r.registeredIds.filter (· ≠ id) := by
  refine registeredIds_change_eq_filter r (fun s => ?_) fun s _ => ?_
  · split <;> rfl
  · by_cases hid : s.id = id <;> simp [hid, Subscription.unsubscribe]

/-- Unsubscribing an id that has no entry changes nothing. -/
theorem unsubscribe_eq_self {r : Registry} (h : r.WellFormed) {id : SubscriptionId}
    (hid : id ∉ r.registeredIds) : r.unsubscribe id = r := by
  have hsame : ∀ s ∈ r.subscriptions,
      (if s.id = id then s.unsubscribe else s) = s := by
    intro s hs
    split
    · next heq =>
        have hout : s.registered = false := by
          rw [← Bool.not_eq_true]
          intro hreg
          exact hid ((mem_registeredIds_iff h id).mpr
            ⟨s, (behind?_eq_some_iff h id s).mpr ⟨hs, heq⟩, hreg⟩)
        rw [Subscription.unsubscribe, ← hout]
    · rfl
  have hsubs : (r.subscriptions.map fun s =>
      if s.id = id then s.unsubscribe else s).filter Subscription.isLive = r.subscriptions := by
    rw [List.map_congr_left hsame, List.map_id', List.filter_eq_self]
    exact h.live
  rw [unsubscribe, changeAt, change, hsubs]

theorem pending_eq {r : Registry} (h : r.WellFormed) {s : Subscription}
    (hs : s ∈ r.subscriptions) :
    r.pending s.id = if s.held then some s.queue.length else none := by
  rw [pending, find?_eq h, (behind?_eq_some_iff h s.id s).mpr ⟨hs, rfl⟩]
  cases hheld : s.held <;> simp [Option.filter, hheld]

/-- A broadcast removes the entries whose handle is gone, and no others. -/
theorem registeredIds_broadcast {r : Registry} (h : r.WellFormed) (e : ChangeEvent) :
    (r.broadcast e).2.registeredIds = r.registeredIds.filter fun id => (r.pending id).isSome := by
  refine registeredIds_change_eq_filter r (Subscription.id_afterOffer r.capacity e) fun s hs => ?_
  rw [pending_eq h hs]
  unfold Subscription.afterOffer Subscription.offer
  cases hreg : s.registered
  · simp [hreg]
  · cases hheld : s.held
    · simp [Subscription.unsubscribe]
    · by_cases hroom : s.queue.length < r.capacity <;> simp [hroom, hreg]

/-- The entries after a command are some of those before it, and the one that it makes. -/
theorem registeredIds_perform (r : Registry) (c : Command) :
    (r.perform c).2.registeredIds.Sublist
      (r.registeredIds ++ (r.perform c).1.handedOut?.toList) := by
  rcases perform_cases r c with ⟨tied, rfl⟩ | ⟨-, hsame | ⟨f, hf, hchange⟩⟩
  · have hids : (r.perform (.subscribe tied)).2.registeredIds = r.registeredIds ++ [r.nextId] := by
      simp [perform, registeredIds, subscribe]
    rw [hids]
    exact List.Sublist.refl _
  · rw [hsame]
    exact List.sublist_append_left _ _
  · rw [hchange, registeredIds_change r fun s => (hf s).id_eq]
    refine List.Sublist.trans (List.Sublist.map _ ?_) (List.sublist_append_left _ _)
    exact List.monotone_filter_right _ fun s => (hf s).registered

/-- The entries after a run are some of those before it and of the ids handed out, in their order. -/
theorem registeredIds_performAll (r : Registry) (cs : List Command) :
    (r.performAll cs).2.registeredIds.Sublist
      (r.registeredIds ++ handedOut (r.performAll cs).1) := by
  induction cs generalizing r with
  | nil => exact List.sublist_append_left _ _
  | cons c cs ih =>
      rw [performAll_cons, handedOut_cons, ← List.append_assoc]
      exact (ih (r.perform c).2).trans ((registeredIds_perform r c).append_right _)

/-! ## Counting a broadcast -/

/-- An outcome of a broadcast is counted over the entries. -/
theorem count_offer_eq_countP (r : Registry) (o : Offer) {p : SubscriptionId → Bool}
    (hp : ∀ s ∈ r.subscriptions, (s.offer r.capacity == o) = (s.registered && p s.id)) :
    (r.subscriptions.map (Subscription.offer r.capacity)).count o = r.registeredIds.countP p := by
  rw [List.count, List.countP_map, registeredIds, List.countP_map, List.countP_filter]
  refine List.countP_congr fun s hs => ?_
  rw [Function.comp_apply, hp s hs, Bool.and_comm]
  rfl

/-- A broadcast prunes the entries whose handle is gone, and drops the event where the queue is full;
everywhere else it delivers. -/
theorem stats_broadcast {r : Registry} (h : r.WellFormed) (e : ChangeEvent) :
    (r.broadcast e).1.pruned = r.registeredIds.countP (fun id => r.pending id = none) ∧
      (r.broadcast e).1.dropped =
        r.registeredIds.countP (fun id => r.pending id = some r.capacity) ∧
      (r.broadcast e).1.delivered =
        r.registeredIds.countP (fun id => (r.pending id).any (· < r.capacity)) := by
  refine ⟨count_offer_eq_countP r .pruned fun s hs => ?_,
    count_offer_eq_countP r .dropped fun s hs => ?_,
    count_offer_eq_countP r .delivered fun s hs => ?_⟩
  all_goals
    have hroom := (h.sound s hs).bounded
    rw [pending_eq h hs, Subscription.offer]
    cases s.registered
    · simp
    · cases s.held
      · simp
      · by_cases hfull : s.queue.length < r.capacity
        · simp [hfull, Nat.ne_of_lt hfull]
        · simp [Nat.le_antisymm hroom (Nat.not_lt.mp hfull)]

/-- What a broadcast does not prune is there afterwards. -/
theorem count_broadcast {r : Registry} (h : r.WellFormed) (e : ChangeEvent) :
    (r.broadcast e).1.delivered + (r.broadcast e).1.dropped = (r.broadcast e).2.count := by
  have htotal := broadcast_total r e
  have hgone : r.registeredIds.countP (fun id => ! (r.pending id).isSome) =
      (r.broadcast e).1.pruned := by
    rw [(stats_broadcast h e).1]
    refine List.countP_congr fun id _ => ?_
    cases r.pending id <;> simp
  have hsplit := List.length_eq_countP_add_countP (fun id => (r.pending id).isSome)
    (l := r.registeredIds)
  rw [count_eq_length, registeredIds_broadcast h, ← List.countP_eq_length_filter]
  rw [count_eq_length] at htotal
  simp only [Bool.not_eq_true, Bool.decide_eq_false] at hsplit
  omega

/-! ## The law -/

/-- Without its handle a tied subscription has no entry. -/
theorem not_mem_registeredIds_of_discarded {buffer : Nat} {cs : List Command} {id : SubscriptionId}
    (htied : (.subscribe true, .subscribed id) ∈ ((empty buffer).performAll cs).1)
    (hgone : (.discard id, .discarded) ∈ ((empty buffer).performAll cs).1) :
    id ∉ ((empty buffer).performAll cs).2.registeredIds := by
  have hwf := wellFormed_performAll (wellFormed_empty buffer) cs
  intro hentry
  obtain ⟨s, hbehind, hreg⟩ := (mem_registeredIds_iff hwf id).mp hentry
  obtain ⟨hmem, hid⟩ := (behind?_eq_some_iff hwf id s).mp hbehind
  -- The entry was made when the id was handed out, and that was by a tied subscription.
  rcases exists_descends_of_mem_performAll hmem with ⟨s, hs, -⟩ | ⟨i, tied, hlog, hdescends⟩
  · cases hs
  · obtain rfl : id = i := hid.symm.trans hdescends.id_eq
    obtain rfl : true = tied := Command.subscribe.inj (eq_of_handedOut htied hlog)
    have hfind := (find?_eq_some_iff hwf id s).mpr ⟨hbehind, hdescends.bound rfl hreg rfl⟩
    rw [find?_of_discarded (wellFormed_empty buffer) hgone] at hfind
    cases hfind

/-- **Nobody is left over, and no id is used twice**, whatever was asked of a registry.

* The entries have distinct ids, all of them handed out.
* An id that is handed out is a new one, and below the next id.
* A tied handle that was given up has no entry any more.
* Unsubscribing takes out one entry at most, touches nobody else, and changes nothing when done
  again, or for an id that has no entry; and an entry that has gone never comes back.
* A handle is held if it was given out and not given up since.
* A broadcast accounts for every entry there was, and for every one that is left: it prunes where the
  handle is gone, drops the event where the queue is full, and delivers it everywhere else.
* After a broadcast the entries are the ids that were subscribed, have not been unsubscribed since
  and whose handle has not been given up since. -/
theorem neither_leaks_nor_reuses (buffer : Nat) (cs : List Command) :
    let log := ((empty buffer).performAll cs).1
    let r := ((empty buffer).performAll cs).2
    (r.registeredIds.Nodup ∧ ∀ id ∈ r.registeredIds, id ∈ handedOut log) ∧
    ((handedOut log).Nodup ∧ (∀ id ∈ handedOut log, id < r.nextId) ∧
      ∀ tied, (r.subscribe tied).1 ∉ handedOut log ∧
        (r.subscribe tied).1 < (r.subscribe tied).2.nextId) ∧
    (∀ id, (.subscribe true, .subscribed id) ∈ log → (.discard id, .discarded) ∈ log →
      id ∉ r.registeredIds) ∧
    (∀ id, (r.unsubscribe id).registeredIds = r.registeredIds.filter (· ≠ id) ∧
      (∀ other, other ≠ id → (r.unsubscribe id).behind? other = r.behind? other) ∧
      (r.unsubscribe id).unsubscribe id = r.unsubscribe id ∧
      (id ∉ r.registeredIds → r.unsubscribe id = r)) ∧
    (∀ id ∈ handedOut log, id ∉ r.registeredIds →
      ∀ more, id ∉ (r.performAll more).2.registeredIds) ∧
    (∀ id, (r.pending id).isSome = true ↔
      Listener.SubscribedWithout .discard (ownSteps id log)) ∧
    ∀ e, let stats := (r.broadcast e).1
      let r' := (r.broadcast e).2
      stats.delivered + stats.dropped + stats.pruned = r.count ∧
      stats.delivered + stats.dropped = r'.count ∧
      stats.pruned = r.registeredIds.countP (fun id => r.pending id = none) ∧
      stats.dropped = r.registeredIds.countP (fun id => r.pending id = some (max buffer 1)) ∧
      stats.delivered =
        r.registeredIds.countP (fun id => (r.pending id).any (· < max buffer 1)) ∧
      ∀ id, id ∈ r'.registeredIds ↔
        Listener.SubscribedWithout .unsubscribe (ownSteps id log) ∧
        Listener.SubscribedWithout .discard (ownSteps id log) := by
  intro log r
  have hwf : r.WellFormed := wellFormed_performAll (wellFormed_empty buffer) cs
  have hcapacity : r.capacity = max buffer 1 := capacity_performAll (empty buffer) cs
  have htracks : ∀ id, Tracks id r (Listener.stranger.run (max buffer 1) (ownSteps id log)) :=
    fun id => tracks_performAll (wellFormed_empty buffer) (tracks_empty id buffer) cs
  have hids : (handedOut log).Nodup := by
    rw [(handedOut_performAll (empty buffer) cs).1]
    exact List.nodup_range'
  have hentries : r.registeredIds.Sublist (handedOut log) :=
    registeredIds_performAll (empty buffer) cs
  have hissued : ∀ id ∈ handedOut log, id < r.nextId :=
    fun id hid => (nextId_le_of_mem_handedOut hid).2
  have hpending : ∀ id, (r.pending id).isSome = true ↔
      Listener.SubscribedWithout .discard (ownSteps id log) := by
    intro id
    rw [← Listener.alive_run_iff (max buffer 1), ← (htracks id).isSome_find?, pending,
      Option.isSome_map]
  refine ⟨⟨hentries.nodup hids, fun id hid => hentries.subset hid⟩, ⟨hids, hissued, fun tied =>
    ⟨fun hold => Nat.lt_irrefl _ (hissued _ hold), Nat.lt_succ_self _⟩⟩,
    fun _ => not_mem_registeredIds_of_discarded, fun id => ?_, ?_, hpending, fun e => ?_⟩
  · have hgone : id ∉ (r.unsubscribe id).registeredIds := by
      rw [registeredIds_unsubscribe]
      simp
    have hproper := properAt_unsubscribe hwf id
    exact ⟨registeredIds_unsubscribe r id, fun other hne => hproper.behind?_changeAt_ne hwf hne,
      unsubscribe_eq_self (hproper.wellFormed hwf) hgone, unsubscribe_eq_self hwf⟩
  · intro id hid hgone more hback
    rcases List.mem_append.mp ((registeredIds_performAll r more).subset hback) with hold | hnew
    · exact hgone hold
    · exact Nat.not_lt.mpr (nextId_le_of_mem_handedOut hnew).1 (hissued id hid)
  · obtain ⟨hpruned, hdropped, hdelivered⟩ := stats_broadcast hwf e
    rw [hcapacity] at hdropped hdelivered
    refine ⟨broadcast_total r e, count_broadcast hwf e, hpruned, hdropped, hdelivered, fun id => ?_⟩
    show id ∈ (r.broadcast e).2.registeredIds ↔ _
    rw [registeredIds_broadcast hwf, List.mem_filter, hpending, and_congr_left_iff]
    intro hheld
    rw [← Listener.registered_run_iff (max buffer 1)]
    obtain ⟨s, hs, hreg, -⟩ := (htracks id).present ((Listener.alive_run_iff _ _).mpr hheld)
    rw [← hreg, mem_registeredIds_iff hwf, ((find?_eq_some_iff hwf id s).mp hs).1]
    simp

/-- The three ways of going, with room for one event: the first subscriber unsubscribes, the second
gives up a tied handle, the third a plain one.  The fourth has a full queue, the fifth has come just
now, and unsubscribing an id in advance does nothing. -/
theorem neither_leaks_nor_reuses_three_ways :
    let e : ChangeEvent := ⟨"b", "api", ⟨2⟩⟩
    let run := (empty 0).performAll
      [.unsubscribe 5, .subscribe false, .subscribe true, .subscribe false, .subscribe false,
        .broadcast e, .unsubscribe 1, .discard 2, .discard 3, .subscribe true]
    let log := run.1
    let r := run.2
    ((.subscribe true, .subscribed 2) ∈ log ∧ (.discard 2, .discarded) ∈ log ∧
      2 ∉ r.registeredIds) ∧
    (1 ∈ handedOut log ∧ 1 ∉ r.registeredIds ∧ r.unsubscribe 1 = r ∧
      1 ∉ (r.performAll [.subscribe false, .broadcast e]).2.registeredIds) ∧
    r.registeredIds = [3, 4, 5] ∧ (r.unsubscribe 4).behind? 5 = r.behind? 5 ∧
    (r.broadcast e).1 = ⟨1, 1, 1⟩ ∧ (r.broadcast e).2.registeredIds = [4, 5] := by
  intro e run log r
  obtain ⟨-, -, htied, hunsubscribe, hgone, -⟩ := neither_leaks_nor_reuses 0
    [.unsubscribe 5, .subscribe false, .subscribe true, .subscribe false, .subscribe false,
      .broadcast e, .unsubscribe 1, .discard 2, .discard 3, .subscribe true]
  exact ⟨⟨by decide, by decide, htied 2 (by decide) (by decide)⟩,
    ⟨by decide, by decide, (hunsubscribe 1).2.2.2 (by decide),
      hgone 1 (by decide) (by decide) _⟩,
    by decide, (hunsubscribe 4).2.1 5 (by decide), by decide, by decide⟩

end Registry

end LiveDiagram
