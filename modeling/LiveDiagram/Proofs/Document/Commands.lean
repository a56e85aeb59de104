import LiveDiagram.Document.Store
import LiveDiagram.Proofs.Document.Turnover
import LiveDiagram.Proofs.Document.Viewer

/-!
# Commands of a store as its registry sees them

A store forwards what concerns listeners to its registry and announces its writes there.  So every
command of a store is, to the registry, one command or none, and what is known of listeners in runs of
a registry carries over.

`follow` is the reference of one listener along such a run, from any registry on.  Most of what goes
on in a run is other people's business: as long as they leave a handle alone, its listener takes
nothing and stays alive, and only its entry and what it is given room for can change.  `Given` is what
is known of a handle that was given out.

## Main results

* `Store.registry_perform`: what a command of a store does to the registry.
* `got_follow_of_spares`, `registered_follow`, `deaf_follow`: what others cannot do to a listener.
* `given_subscribe`, `Given.performAll`: who subscribes is given a handle, whose reference is followed
  from there.
* `Gone.performAll`: a subscription that is gone does not come back.
-/

namespace LiveDiagram

namespace Store

/-- What a command asks of the registry, if anything. -/
def asked (s : Store) : Command → Option Registry.Command
  | .set content source => some (.broadcast (s.commit content source).1)
  | .write body =>
    match WriteRequest.parse body with
    | .ok w => some (.broadcast (s.commit w.content w.sourceName).1)
    | .error _ => none
  | .get | .version => none
  | .listen c => some c

/-- To its registry, a command of a store is what it asks for. -/
theorem registry_perform (s : Store) (c : Command) :
    (s.perform c).2.registry = (s.registry.performAll (s.asked c).toList).2 := by
  cases c with
  | set content source => rfl
  | write body =>
      simp only [perform, asked]
      cases WriteRequest.parse body with
      | error cause => rfl
      | ok w => rfl
  | get => rfl
  | version => rfl
  | listen c => rfl

end Store

/-! ## Leaving a handle alone -/

/-- A command that does not use the handle with this id. -/
def Registry.Command.Spares (id : SubscriptionId) (c : Registry.Command) : Prop :=
  c ≠ .receive id ∧ c ≠ .drain id ∧ c ≠ .discard id

instance (id : SubscriptionId) (c : Registry.Command) : Decidable (c.Spares id) :=
  inferInstanceAs (Decidable (_ ∧ _ ∧ _))

/-- A command that does not use the handle with this id.  Only its holder could; an entry can be
taken out of the registry by anyone. -/
def Store.Command.Spares (id : SubscriptionId) : Store.Command → Prop
  | .listen c => c.Spares id
  | _ => True

instance (id : SubscriptionId) (c : Store.Command) : Decidable (c.Spares id) := by
  cases c <;> unfold Store.Command.Spares <;> infer_instance

theorem Store.spares_asked {s : Store} {id : SubscriptionId} {c : Store.Command}
    (h : c.Spares id) : ∀ d ∈ s.asked c, d.Spares id := by
  have hbroadcast : ∀ e, (Registry.Command.broadcast e).Spares id := by
    intro e
    simp [Registry.Command.Spares]
  intro d hd
  cases c with
  | set content source =>
      cases hd
      exact hbroadcast _
  | write body =>
      simp only [asked] at hd
      split at hd <;> cases hd
      exact hbroadcast _
  | get => cases hd
  | version => cases hd
  | listen c =>
      cases hd
      exact h

/-! ## Following one listener -/

/-- The command that is a step of the listener with this id.  Subscribing is not one: the id comes
with the answer. -/
def Listener.Step.command? (id : SubscriptionId) : Listener.Step → Option Registry.Command
  | .subscribe => none
  | .broadcast e => some (.broadcast e)
  | .receive => some (.receive id)
  | .drain => some (.drain id)
  | .pending => some (.pending id)
  | .unsubscribe => some (.unsubscribe id)
  | .discard => some (.discard id)

namespace Registry

theorem map_fst_performAll (r : Registry) (cs : List Command) :
    (r.performAll cs).1.map (·.1) = cs := by
  induction cs generalizing r with
  | nil => rfl
  | cons c cs ih => rw [performAll_cons, List.map_cons, ih]

theorem command?_of_own? {id : SubscriptionId} {c : Command} {x : Reply} {o : Listener.Step}
    (h : own? id (c, x) = some o) (ho : o ≠ .subscribe) : o.command? id = some c := by
  cases c with
  | subscribe tied =>
      cases x with
      | subscribed i =>
          simp only [own?] at h
          split at h <;> cases h
          exact absurd rfl ho
      | _ => cases h
  | broadcast e =>
      cases h
      rfl
  | count => cases h
  | capacity => cases h
  | _ =>
      simp only [own?] at h
      split at h
      · next hid =>
          cases h
          rw [hid]
          rfl
      · cases h

/-- Every step of a listener was asked for. -/
theorem command?_mem_of_mem_ownSteps {id : SubscriptionId} {r : Registry} {cs : List Command}
    {o : Listener.Step} (h : o ∈ ownSteps id (r.performAll cs).1) (ho : o ≠ .subscribe) :
    ∃ c ∈ cs, o.command? id = some c := by
  obtain ⟨⟨c, x⟩, hmem, hown⟩ := List.mem_filterMap.mp h
  refine ⟨c, ?_, command?_of_own? hown ho⟩
  rw [← map_fst_performAll r cs]
  exact List.mem_map_of_mem (f := (·.1)) hmem

theorem nextId_le_performAll (r : Registry) (cs : List Command) :
    r.nextId ≤ (r.performAll cs).2.nextId := by
  induction cs generalizing r with
  | nil => exact Nat.le_refl _
  | cons c cs ih => exact Nat.le_trans (nextId_le_perform r c) (ih (r.perform c).2)

/-- What a run of the registry makes of the listener with this id. -/
def follow (r : Registry) (id : SubscriptionId) (l : Listener) (cs : List Command) : Listener :=
  l.run r.capacity (ownSteps id (r.performAll cs).1)

theorem follow_append (r : Registry) (id : SubscriptionId) (l : Listener) (a b : List Command) :
    r.follow id l (a ++ b) = (r.performAll a).2.follow id (r.follow id l a) b := by
  rw [follow, follow, follow, capacity_performAll, performAll_append, ownSteps,
    List.filterMap_append, Listener.run_append]
  rfl

/-- An id that was not given out has no listener. -/
theorem tracks_stranger {r : Registry} (h : r.WellFormed) {id : SubscriptionId}
    (hid : r.nextId ≤ id) : Tracks id r Listener.stranger where
  fresh _ := ⟨rfl, rfl⟩
  absent _ := by
    cases hfind : r.find? id with
    | none => rfl
    | some s =>
        obtain ⟨hbehind, -⟩ := (find?_eq_some_iff h _ s).mp hfind
        obtain ⟨hmem, rfl⟩ := (behind?_eq_some_iff h _ s).mp hbehind
        exact absurd (h.issued s hmem) (Nat.not_lt.mpr hid)
  present h := by cases h
  taken_le := Nat.le_refl 0

theorem follow_receive (r : Registry) (id : SubscriptionId) (l : Listener) :
    r.follow id l [.receive id] = l.step r.capacity .receive := by
  have hown : ownSteps id (r.performAll [.receive id]).1 = [.receive] := by
    simp [ownSteps, performAll, own?]
  rw [follow, hown]
  rfl

theorem follow_discard (r : Registry) (id : SubscriptionId) (l : Listener) :
    r.follow id l [.discard id] = { l with alive := false } := by
  have hown : ownSteps id (r.performAll [.discard id]).1 = [.discard] := by
    simp [ownSteps, performAll, own?]
  rw [follow, hown]
  rfl

theorem follow_subscribe (r : Registry) (tied : Bool) (l : Listener) :
    r.follow r.nextId l [.subscribe tied] = { l with registered := true, alive := true } := by
  have hown : ownSteps r.nextId (r.performAll [.subscribe tied]).1 = [.subscribe] := by
    simp [ownSteps, performAll, perform, subscribe, own?]
  rw [follow, hown]
  rfl

end Registry

namespace Listener

/-- A step that neither takes an event nor concerns the handle. -/
def Step.Passive (o : Step) : Prop :=
  o ≠ .subscribe ∧ o ≠ .receive ∧ o ≠ .drain ∧ o ≠ .discard

theorem got_step_of_passive {capacity : Nat} {l : Listener} (h : l.taken ≤ l.kept.length)
    {o : Step} (ho : o.Passive) : (l.step capacity o).got = l.got := by
  rw [got_step h]
  cases o with
  | subscribe => exact absurd rfl ho.1
  | receive => exact absurd rfl ho.2.1
  | drain => exact absurd rfl ho.2.2.1
  | discard => exact absurd rfl ho.2.2.2
  | broadcast e => simp [answer]
  | unsubscribe => simp [answer]
  | pending => cases halive : l.alive <;> simp [answer, halive, Registry.Reply.events]

theorem got_run_of_passive {capacity : Nat} {l : Listener} (h : l.taken ≤ l.kept.length)
    {steps : List Step} (hsteps : ∀ o ∈ steps, o.Passive) : (l.run capacity steps).got = l.got := by
  induction steps generalizing l with
  | nil => rfl
  | cons o os ih =>
      rw [← got_step_of_passive (o := o) h (hsteps o List.mem_cons_self)]
      exact ih (taken_le_step h o) fun p hp => hsteps p (List.mem_cons_of_mem o hp)

/-- Who has no entry is offered nothing. -/
theorem kept_run_of_not_registered {capacity : Nat} {l : Listener}
    (hregistered : l.registered = false) {steps : List Step} (hsubscribe : .subscribe ∉ steps) :
    (l.run capacity steps).registered = false ∧ (l.run capacity steps).kept = l.kept := by
  induction steps generalizing l with
  | nil => exact ⟨hregistered, rfl⟩
  | cons o os ih =>
      rw [List.mem_cons, not_or] at hsubscribe
      have hstep : (l.step capacity o).registered = false ∧ (l.step capacity o).kept = l.kept := by
        cases o with
        | subscribe => exact absurd rfl hsubscribe.1
        | pending => exact ⟨hregistered, rfl⟩
        | unsubscribe => exact ⟨rfl, rfl⟩
        | discard => exact ⟨hregistered, rfl⟩
        | _ =>
            simp only [step]
            split <;> simp_all
      obtain ⟨hnext, hkept⟩ := ih hstep.1 hsubscribe.2
      exact ⟨hnext, hkept.trans hstep.2⟩

/-- Who finds no event has received all that it was given room for, and is told whether there is more
to come. -/
theorem got_of_next {l : Listener} (h : ∀ e, l.next ≠ .event e) :
    l.waiting = [] ∧ l.got = l.kept ∧ l.next = if l.registered then .empty else .disconnected := by
  have hgot := l.got_append_waiting
  unfold next at h ⊢
  split at h
  · next e rest heq => exact absurd rfl (h e)
  · next heq =>
      rw [heq, List.append_nil] at hgot
      exact ⟨heq, hgot, rfl⟩

/-- A handle stays until it is given up. -/
theorem alive_run {capacity : Nat} {l : Listener} (halive : l.alive = true) {steps : List Step}
    (hsubscribe : .subscribe ∉ steps) (hdiscard : .discard ∉ steps) :
    (l.run capacity steps).alive = true := by
  induction steps generalizing l with
  | nil => exact halive
  | cons o os ih =>
      rw [List.mem_cons, not_or] at hsubscribe hdiscard
      have hstep : (l.step capacity o).alive = true := by
        rw [alive_step capacity l (Ne.symm hsubscribe.1) (Ne.symm hdiscard.1), halive]
      exact ih hstep hsubscribe.2 hdiscard.2

end Listener

namespace Registry

/-- Others take nothing from a listener as long as they leave its handle alone. -/
theorem got_follow_of_spares {id : SubscriptionId} {r : Registry} {l : Listener}
    (hid : id < r.nextId) (htaken : l.taken ≤ l.kept.length) {cs : List Command}
    (hspares : ∀ c ∈ cs, c.Spares id) : (r.follow id l cs).got = l.got := by
  apply Listener.got_run_of_passive htaken
  intro o ho
  have hne : o ≠ .subscribe := by
    rintro rfl
    exact subscribe_notMem_ownSteps hid cs ho
  obtain ⟨c, hc, hcommand⟩ := command?_mem_of_mem_ownSteps ho hne
  obtain ⟨hreceive, hdrain, hdiscard⟩ := hspares c hc
  refine ⟨hne, ?_, ?_, ?_⟩
  · rintro rfl
    exact hreceive (Option.some.inj hcommand).symm
  · rintro rfl
    exact hdrain (Option.some.inj hcommand).symm
  · rintro rfl
    exact hdiscard (Option.some.inj hcommand).symm

/-- A handle goes only if someone discards it. -/
theorem alive_follow {id : SubscriptionId} {r : Registry} {l : Listener} (hid : id < r.nextId)
    (halive : l.alive = true) {cs : List Command} (hdiscard : .discard id ∉ cs) :
    (r.follow id l cs).alive = true := by
  apply Listener.alive_run halive
  · exact subscribe_notMem_ownSteps hid cs
  · intro hmem
    obtain ⟨c, hc, hcommand⟩ := command?_mem_of_mem_ownSteps hmem (by decide)
    exact hdiscard (Option.some.inj hcommand ▸ hc)

/-- To whom nothing is offered any more, others offer nothing. -/
theorem deaf_follow {id : SubscriptionId} {r : Registry} {l : Listener} (hid : id < r.nextId)
    (hregistered : l.registered = false) (cs : List Command) :
    (r.follow id l cs).registered = false ∧ (r.follow id l cs).kept = l.kept :=
  Listener.kept_run_of_not_registered hregistered (subscribe_notMem_ownSteps hid cs)

/-! ## Ties -/

/-- Whatever lies behind this id is tied to its handle. -/
def Ties (r : Registry) (id : SubscriptionId) : Prop :=
  ∀ s ∈ r.subscriptions, s.id = id → s.tied = true

theorem Ties.perform {r : Registry} {id : SubscriptionId} (h : r.Ties id) (hid : id < r.nextId)
    (c : Command) : (r.perform c).2.Ties id := by
  rcases perform_cases r c with ⟨tied, rfl⟩ | ⟨-, hsame | ⟨f, hf, hchange⟩⟩
  · intro s hs hids
    rcases List.mem_append.mp hs with hold | hnew
    · exact h s hold hids
    · rw [List.mem_singleton.mp hnew] at hids
      exact absurd hids (Nat.ne_of_gt hid)
  · rw [hsame]
    exact h
  · intro t ht hids
    rw [hchange] at ht
    obtain ⟨s, hs, rfl⟩ := exists_of_mem_change ht
    rw [(hf s).tied_eq]
    exact h s hs ((hf s).id_eq.symm.trans hids)

theorem tied_performAll {r : Registry} {id : SubscriptionId} (h : r.Ties id)
    (hid : id < r.nextId) (cs : List Command) : (r.performAll cs).2.Ties id := by
  induction cs generalizing r with
  | nil => exact h
  | cons c cs ih =>
      exact ih (h.perform hid c) (Nat.lt_of_lt_of_le hid (nextId_le_perform r c))

/-- Nothing is left of the subscription with this id. -/
def Gone (r : Registry) (id : SubscriptionId) : Prop :=
  id < r.nextId ∧ ∀ s ∈ r.subscriptions, s.id ≠ id

theorem Gone.perform {r : Registry} {id : SubscriptionId} (h : r.Gone id) (c : Command) :
    (r.perform c).2.Gone id := by
  refine ⟨Nat.lt_of_lt_of_le h.1 (nextId_le_perform r c), ?_⟩
  rcases perform_cases r c with ⟨tied, rfl⟩ | ⟨-, hsame | ⟨f, hf, hchange⟩⟩
  · intro t ht
    rcases List.mem_append.mp ht with hold | hnew
    · exact h.2 t hold
    · rw [List.mem_singleton.mp hnew]
      exact Nat.ne_of_gt h.1
  · rw [hsame]
    exact h.2
  · rw [hchange]
    intro t ht
    obtain ⟨s, hs, rfl⟩ := exists_of_mem_change ht
    rw [(hf s).id_eq]
    exact h.2 s hs

/-- A subscription that is gone does not come back. -/
theorem Gone.performAll {r : Registry} {id : SubscriptionId} (h : r.Gone id) (cs : List Command) :
    (r.performAll cs).2.Gone id := by
  induction cs generalizing r with
  | nil => exact h
  | cons c cs ih => exact ih (h.perform c)

/-- A subscription tied to its handle goes with it. -/
theorem Ties.gone_discard {r : Registry} {id : SubscriptionId} (h : r.Ties id)
    (hid : id < r.nextId) : (r.discard id).Gone id := by
  refine ⟨hid, fun t ht hids => ?_⟩
  obtain ⟨hmap, hlive⟩ := List.mem_filter.mp ht
  obtain ⟨s, hs, rfl⟩ := List.mem_map.mp hmap
  by_cases hsid : s.id = id
  · have htied := h s hs hsid
    simp [hsid, Subscription.isLive, Subscription.discard, htied] at hlive
  · rw [if_neg hsid] at hids
    exact hsid hids

/-! ## Holding a handle -/

/-- A handle with this id was given to someone who gives up the entry with it, and this is its
reference. -/
structure Given (r : Registry) (id : SubscriptionId) (l : Listener) : Prop where
  wellFormed : r.WellFormed
  issued : id < r.nextId
  tracks : Tracks id r l
  ties : r.Ties id

theorem Given.performAll {id : SubscriptionId} {r : Registry} {l : Listener} (h : r.Given id l)
    (cs : List Command) : (r.performAll cs).2.Given id (r.follow id l cs) where
  wellFormed := wellFormed_performAll h.wellFormed cs
  issued := Nat.lt_of_lt_of_le h.issued (nextId_le_performAll r cs)
  tracks := tracks_performAll h.wellFormed h.tracks cs
  ties := tied_performAll h.ties h.issued cs

/-- Who subscribes is given a handle. -/
theorem given_subscribe {r : Registry} (h : r.WellFormed) {l : Listener}
    (ht : Tracks r.nextId r l) :
    (r.subscribe true).2.Given r.nextId { l with registered := true, alive := true } where
  wellFormed := wellFormed_subscribe h true
  issued := Nat.lt_succ_self _
  tracks := ht.subscribe h true
  ties := by
    intro s hs hid
    rcases List.mem_append.mp hs with hold | hnew
    · exact absurd hid (Nat.ne_of_lt (h.issued s hold))
    · rw [List.mem_singleton.mp hnew]

/-- A handle that is held can be given up. -/
theorem Given.perform_discard {id : SubscriptionId} {r : Registry} {l : Listener}
    (h : r.Given id l) (halive : l.alive = true) :
    r.perform (.discard id) = (.discarded, r.discard id) := by
  have hheld : (r.find? id).isSome := h.tracks.isSome_find?.trans halive
  simp [Registry.perform, hheld]

end Registry

end LiveDiagram
