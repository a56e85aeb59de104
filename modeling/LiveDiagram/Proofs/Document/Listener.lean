import LiveDiagram.Proofs.Document.Entries

/-!
# One listener's own story

A run of the registry is a list of commands with their answers.  A listener does not see all of it:
only broadcasts, and the steps that name its own id.  `Listener` is the reference for what such a
listener keeps.  It walks through its own steps alone, knows no other listener and no registry, and
adds an event to the list of those it keeps exactly when, at that broadcast, it has been subscribed
and not unsubscribed, its handle is held, and fewer than `capacity` of the events kept so far are
still waiting.

The registry does the same for everyone at once.  `Tracks` is the simulation between the two, and
every command preserves it.

## Main results

* `Tracks.perform`: a command moves the registry and each listener's reference together.
* `tracks_performAll`, `received_performAll`, `told_performAll`: so does a whole run; what is received
  and what is answered are what the reference says.
-/

namespace LiveDiagram

/-- The events that an answer hands out. -/
def Registry.Reply.events : Registry.Reply → List ChangeEvent
  | .received (.event e) => [e]
  | .drained es => es
  | _ => []

/-! ## The reference -/

/-- A step of a run as one listener sees it. -/
inductive Listener.Step where
  | subscribe
  | broadcast (e : ChangeEvent)
  | receive
  | drain
  | pending
  | unsubscribe
  | discard
deriving DecidableEq

/-- What decides whether a listener keeps an event. -/
structure Listener where
  /-- It has been subscribed and not unsubscribed. -/
  registered : Bool
  /-- Its handle has been given out and not given up. -/
  alive : Bool
  /-- The events it was given room for, oldest first. -/
  kept : List ChangeEvent
  /-- How many of them it has received. -/
  taken : Nat
deriving DecidableEq

namespace Listener

/-- A listener before it subscribes. -/
def stranger : Listener := ⟨false, false, [], 0⟩

/-- The events kept and not yet received. -/
def waiting (l : Listener) : List ChangeEvent := l.kept.drop l.taken

/-- What one step does to a listener. -/
def step (capacity : Nat) (l : Listener) : Step → Listener
  | .subscribe => { l with registered := true, alive := true }
  | .broadcast e =>
    if l.registered = true ∧ l.alive = true ∧ l.waiting.length < capacity then
      { l with kept := l.kept ++ [e] }
    else l
  | .receive => if l.alive then { l with taken := min (l.taken + 1) l.kept.length } else l
  | .drain => if l.alive then { l with taken := l.kept.length } else l
  | .pending => l
  | .unsubscribe => { l with registered := false }
  | .discard => { l with alive := false }

/-- What a listener's own steps make of it. -/
def run (capacity : Nat) (l : Listener) (steps : List Step) : Listener :=
  steps.foldl (step capacity) l

/-- What the next look at the queue finds. -/
def next (l : Listener) : Received :=
  match l.waiting with
  | e :: _ => .event e
  | [] => if l.registered then .empty else .disconnected

/-- What a listener is told when it looks at its queue. -/
def answer (l : Listener) : Step → Option Registry.Reply
  | .receive => some (if l.alive then .received l.next else .noHandle)
  | .drain => some (if l.alive then .drained l.waiting else .noHandle)
  | .pending => some (if l.alive then .queued l.waiting.length else .noHandle)
  | _ => none

/-- All that a listener is told in the course of its steps. -/
def answers (capacity : Nat) (l : Listener) : List Step → List Registry.Reply
  | [] => []
  | o :: os => (l.answer o).toList ++ (l.step capacity o).answers capacity os

theorem run_append (capacity : Nat) (l : Listener) (a b : List Step) :
    l.run capacity (a ++ b) = (l.run capacity a).run capacity b :=
  List.foldl_append

/-- The entry comes and goes by subscribing and unsubscribing. -/
theorem registered_step (capacity : Nat) (l : Listener) {o : Step} (hsubscribe : o ≠ .subscribe)
    (hunsubscribe : o ≠ .unsubscribe) : (l.step capacity o).registered = l.registered := by
  cases o with
  | subscribe => exact absurd rfl hsubscribe
  | unsubscribe => exact absurd rfl hunsubscribe
  | pending => rfl
  | discard => rfl
  | _ =>
      simp only [step]
      split <;> rfl

/-- The handle comes and goes by subscribing and discarding. -/
theorem alive_step (capacity : Nat) (l : Listener) {o : Step} (hsubscribe : o ≠ .subscribe)
    (hdiscard : o ≠ .discard) : (l.step capacity o).alive = l.alive := by
  cases o with
  | subscribe => exact absurd rfl hsubscribe
  | discard => exact absurd rfl hdiscard
  | pending => rfl
  | unsubscribe => rfl
  | _ =>
      simp only [step]
      split <;> rfl

/-- Events already kept stay, in their order. -/
theorem kept_isPrefix_step (capacity : Nat) (l : Listener) (o : Step) :
    l.kept <+: (l.step capacity o).kept := by
  cases o with
  | broadcast e =>
      simp only [step]
      split
      · exact List.prefix_append _ _
      · exact List.prefix_rfl
  | receive =>
      simp only [step]
      split <;> exact List.prefix_rfl
  | drain =>
      simp only [step]
      split <;> exact List.prefix_rfl
  | _ => exact List.prefix_rfl

theorem kept_isPrefix_run (capacity : Nat) (l : Listener) (steps : List Step) :
    l.kept <+: (l.run capacity steps).kept := by
  induction steps generalizing l with
  | nil => exact List.prefix_rfl
  | cons o os ih => exact (kept_isPrefix_step capacity l o).trans (ih (l.step capacity o))

theorem answers_append (capacity : Nat) (l : Listener) (a b : List Step) :
    l.answers capacity (a ++ b) =
      l.answers capacity a ++ (l.run capacity a).answers capacity b := by
  induction a generalizing l with
  | nil => rfl
  | cons o os ih =>
      rw [List.cons_append, answers, answers, ih, List.append_assoc]
      rfl

/-- The events a listener has received. -/
def got (l : Listener) : List ChangeEvent := l.kept.take l.taken

theorem got_append_waiting (l : Listener) : l.got ++ l.waiting = l.kept :=
  List.take_append_drop l.taken l.kept

theorem taken_le_step {capacity : Nat} {l : Listener} (h : l.taken ≤ l.kept.length) (o : Step) :
    (l.step capacity o).taken ≤ (l.step capacity o).kept.length := by
  cases o with
  | broadcast e =>
      simp only [step]
      split
      · rw [List.length_append]
        exact Nat.le_add_right_of_le h
      · exact h
  | receive =>
      simp only [step]
      split
      · exact Nat.min_le_right _ _
      · exact h
  | drain =>
      simp only [step]
      split
      · exact Nat.le_refl _
      · exact h
  | _ => exact h

/-- Every answer hands out the next events kept, and no others. -/
theorem got_step {capacity : Nat} {l : Listener} (h : l.taken ≤ l.kept.length) (o : Step) :
    (l.step capacity o).got = l.got ++ (l.answer o).toList.flatMap Registry.Reply.events := by
  cases o with
  | broadcast e =>
      simp only [step, answer, Option.toList_none, List.flatMap_nil, List.append_nil]
      split
      · exact List.take_append_of_le_length h
      · rfl
  | receive =>
      simp only [step, answer, next]
      cases l.alive
      · simp [Registry.Reply.events]
      · have htake : l.kept.take (min (l.taken + 1) l.kept.length) =
            l.got ++ l.waiting.head?.toList := by
          rw [← List.take_eq_take_min, List.take_add_one, waiting, List.head?_drop]
          rfl
        simp only [if_true, got, htake]
        cases l.waiting with
        | nil => cases l.registered <;> simp [Registry.Reply.events]
        | cons e rest => simp [Registry.Reply.events]
  | drain =>
      simp only [step, answer]
      cases l.alive
      · simp [Registry.Reply.events]
      · simpa [got, Registry.Reply.events] using l.got_append_waiting.symm
  | pending => simp [step, answer, Registry.Reply.events, apply_ite]
  | subscribe => simp [step, answer, got]
  | unsubscribe => simp [step, answer, got]
  | discard => simp [step, answer, got]

theorem got_run (capacity : Nat) (l : Listener) (h : l.taken ≤ l.kept.length)
    (steps : List Step) :
    (l.run capacity steps).got =
      l.got ++ (l.answers capacity steps).flatMap Registry.Reply.events := by
  induction steps generalizing l with
  | nil => simp [run, answers]
  | cons o os ih =>
      rw [answers, List.flatMap_append, ← List.append_assoc, ← got_step h o]
      exact ih (l.step capacity o) (taken_le_step h o)

/-- The event of a broadcast. -/
def Step.event? : Step → Option ChangeEvent
  | .broadcast e => some e
  | _ => none

theorem kept_sublist_step (capacity : Nat) (l : Listener) (o : Step) :
    (l.step capacity o).kept.Sublist (l.kept ++ o.event?.toList) := by
  cases o with
  | broadcast e =>
      simp only [step]
      split
      · exact List.Sublist.refl _
      · exact List.sublist_append_left _ _
  | receive =>
      simp only [step]
      split <;> exact List.sublist_append_left _ _
  | drain =>
      simp only [step]
      split <;> exact List.sublist_append_left _ _
  | _ => exact List.sublist_append_left _ _

/-- A listener keeps some of the events broadcast, in the order of the broadcasts. -/
theorem kept_sublist_run (capacity : Nat) (l : Listener) (steps : List Step) :
    (l.run capacity steps).kept.Sublist (l.kept ++ steps.filterMap Step.event?) := by
  induction steps generalizing l with
  | nil =>
      rw [List.filterMap_nil, List.append_nil]
      exact List.Sublist.refl _
  | cons o os ih =>
      have hstep := (kept_sublist_step capacity l o).append_right (os.filterMap Step.event?)
      have hsplit : (o :: os).filterMap Step.event? =
          o.event?.toList ++ os.filterMap Step.event? := by
        cases hevent : o.event? <;> simp [hevent]
      rw [hsplit, ← List.append_assoc]
      exact (ih (l.step capacity o)).trans hstep

end Listener

namespace Registry

/-! ## Runs -/

/-- Carries commands out in order and notes each with its answer. -/
def performAll (r : Registry) : List Command → List (Command × Reply) × Registry
  | [] => ([], r)
  | c :: cs =>
    let (x, r) := r.perform c
    let (log, r) := r.performAll cs
    ((c, x) :: log, r)

theorem performAll_cons (r : Registry) (c : Command) (cs : List Command) :
    r.performAll (c :: cs) =
      ((c, (r.perform c).1) :: ((r.perform c).2.performAll cs).1,
        ((r.perform c).2.performAll cs).2) :=
  rfl

theorem performAll_append (r : Registry) (cs ds : List Command) :
    r.performAll (cs ++ ds) =
      ((r.performAll cs).1 ++ ((r.performAll cs).2.performAll ds).1,
        ((r.performAll cs).2.performAll ds).2) := by
  induction cs generalizing r with
  | nil => rfl
  | cons c cs ih => rw [List.cons_append, performAll_cons, ih, performAll_cons, List.cons_append]

theorem wellFormed_performAll {r : Registry} (h : r.WellFormed) (cs : List Command) :
    (r.performAll cs).2.WellFormed := by
  induction cs generalizing r with
  | nil => exact h
  | cons c cs ih => exact ih (wellFormed_perform h c)

theorem capacity_performAll (r : Registry) (cs : List Command) :
    (r.performAll cs).2.capacity = r.capacity := by
  induction cs generalizing r with
  | nil => rfl
  | cons c cs ih => exact (ih (r.perform c).2).trans (capacity_perform r c)

/-! ## What concerns one id -/

/-- What a command and its answer are to the listener with this id. -/
def own? (id : SubscriptionId) : Command × Reply → Option Listener.Step
  | (.subscribe _, .subscribed i) => if i = id then some .subscribe else none
  | (.broadcast e, _) => some (.broadcast e)
  | (.receive i, _) => if i = id then some .receive else none
  | (.drain i, _) => if i = id then some .drain else none
  | (.pending i, _) => if i = id then some .pending else none
  | (.unsubscribe i, _) => if i = id then some .unsubscribe else none
  | (.discard i, _) => if i = id then some .discard else none
  | _ => none

/-- The steps of a run that concern one id. -/
def ownSteps (id : SubscriptionId) (log : List (Command × Reply)) : List Listener.Step :=
  log.filterMap (own? id)

/-- What the listener with this id is told when it looks at its queue. -/
def told? (id : SubscriptionId) : Command × Reply → Option Reply
  | (.receive i, x) => if i = id then some x else none
  | (.drain i, x) => if i = id then some x else none
  | (.pending i, x) => if i = id then some x else none
  | _ => none

/-- All that the listener with this id is told in a run. -/
def told (id : SubscriptionId) (log : List (Command × Reply)) : List Reply :=
  log.filterMap (told? id)

/-- All events that the listener with this id received in a run, in the order it got them. -/
def received (id : SubscriptionId) (log : List (Command × Reply)) : List ChangeEvent :=
  (told id log).flatMap Reply.events

/-- The events waiting in the queue behind a handle; none if it is not held. -/
def waiting (r : Registry) (id : SubscriptionId) : List ChangeEvent :=
  ((r.find? id).map (·.queue)).getD []

/-! ## The simulation -/

/-- A listener's reference agrees with what the registry holds for its id. -/
structure Tracks (id : SubscriptionId) (r : Registry) (l : Listener) : Prop where
  /-- An id that was never given has no past. -/
  fresh : r.nextId ≤ id → l.kept = [] ∧ l.taken = 0
  absent : l.alive = false → r.find? id = none
  present : l.alive = true →
    ∃ s, r.find? id = some s ∧ s.registered = l.registered ∧ s.queue = l.waiting
  taken_le : l.taken ≤ l.kept.length

theorem tracks_empty (id : SubscriptionId) (buffer : Nat) :
    Tracks id (empty buffer) Listener.stranger where
  fresh _ := ⟨rfl, rfl⟩
  absent _ := rfl
  present h := by cases h
  taken_le := Nat.le_refl 0

/-- A listener that is alive has been given its id. -/
theorem Tracks.issued {id : SubscriptionId} {r : Registry} {l : Listener} (h : r.WellFormed)
    (ht : Tracks id r l) (halive : l.alive = true) : id < r.nextId := by
  obtain ⟨s, hs, -, -⟩ := ht.present halive
  obtain ⟨hmem, rfl⟩ := (behind?_eq_some_iff h id s).mp ((find?_eq_some_iff h id s).mp hs).1
  exact h.issued s hmem

/-- What happens behind other ids leaves the agreement as it is. -/
theorem Tracks.of_find?_eq {id : SubscriptionId} {r r' : Registry} {l : Listener}
    (ht : Tracks id r l) (hnext : r.nextId ≤ r'.nextId) (hfind : r'.find? id = r.find? id) :
    Tracks id r' l where
  fresh hid := ht.fresh (Nat.le_trans hnext hid)
  absent halive := by rw [hfind, ht.absent halive]
  present halive := by
    rw [hfind]
    exact ht.present halive
  taken_le := ht.taken_le

theorem Tracks.subscribe {r : Registry} {l : Listener} (h : r.WellFormed)
    (ht : Tracks r.nextId r l) (tied : Bool) :
    Tracks r.nextId (r.subscribe tied).2 (l.step r.capacity .subscribe) where
  fresh hid := absurd hid (Nat.not_succ_le_self _)
  absent halive := by cases halive
  present _ := by
    obtain ⟨hkept, htaken⟩ := ht.fresh (Nat.le_refl _)
    refine ⟨_, find?_subscribe_self h tied, rfl, ?_⟩
    simp [Listener.waiting, Listener.step, hkept]
  taken_le := ht.taken_le

theorem Tracks.unsubscribe {id : SubscriptionId} {r : Registry} {l : Listener}
    (h : r.WellFormed) (ht : Tracks id r l) :
    Tracks id (r.unsubscribe id) (l.step r.capacity .unsubscribe) where
  fresh hid := ht.fresh hid
  absent halive := by rw [find?_unsubscribe_self h, ht.absent halive, Option.map_none]
  present halive := by
    obtain ⟨s, hs, -, hqueue⟩ := ht.present halive
    refine ⟨s.unsubscribe, ?_, rfl, hqueue⟩
    rw [find?_unsubscribe_self h, hs, Option.map_some]
  taken_le := ht.taken_le

theorem Tracks.discard {id : SubscriptionId} {r : Registry} {l : Listener}
    (h : r.WellFormed) (ht : Tracks id r l) :
    Tracks id (r.discard id) (l.step r.capacity .discard) where
  fresh hid := ht.fresh hid
  absent _ := find?_discard_self h id
  present halive := by cases halive
  taken_le := ht.taken_le

theorem Tracks.broadcast {id : SubscriptionId} {r : Registry} {l : Listener}
    (h : r.WellFormed) (ht : Tracks id r l) (e : ChangeEvent) :
    Tracks id (r.broadcast e).2 (l.step r.capacity (.broadcast e)) := by
  cases halive : l.alive
  · have hstep : l.step r.capacity (.broadcast e) = l := by simp [Listener.step, halive]
    rw [hstep]
    exact ht.of_find?_eq (Nat.le_refl _) (by
      rw [find?_broadcast h, ht.absent halive, Option.map_none])
  · obtain ⟨s, hs, hreg, hqueue⟩ := ht.present halive
    have hheld : s.held = true := ((find?_eq_some_iff h id s).mp hs).2
    have hfind := find?_broadcast h e id
    rw [hs, Option.map_some, Subscription.afterOffer_of_held r.capacity e hheld, hreg, hqueue]
      at hfind
    by_cases hroom : l.registered = true ∧ l.waiting.length < r.capacity
    · rw [if_pos hroom] at hfind
      simp only [Listener.step]
      rw [if_pos ⟨hroom.1, halive, hroom.2⟩]
      exact
        { fresh := fun hid => absurd (ht.issued h halive) (Nat.not_lt.mpr hid)
          absent := fun hgone => absurd (halive.symm.trans hgone) (by decide)
          present := fun _ => ⟨_, hfind, rfl,
            (List.drop_append_of_le_length ht.taken_le).symm⟩
          taken_le := by
            rw [List.length_append]
            exact Nat.le_add_right_of_le ht.taken_le }
    · rw [if_neg hroom] at hfind
      simp only [Listener.step]
      rw [if_neg fun hboth => hroom ⟨hboth.1, hboth.2.2⟩]
      exact ht.of_find?_eq (Nat.le_refl _) (hfind.trans hs.symm)

theorem Tracks.drain {id : SubscriptionId} {r : Registry} {l : Listener}
    (h : r.WellFormed) (ht : Tracks id r l) :
    Tracks id (r.drain id).2 (l.step r.capacity .drain) := by
  have hfind : (r.drain id).2.find? id =
      (r.find? id).map fun s => { s with queue := [] } :=
    (properAt_clear h id).find?_changeAt_self h fun _ => rfl
  cases halive : l.alive
  · have hstep : l.step r.capacity .drain = l := by simp [Listener.step, halive]
    rw [hstep]
    exact ht.of_find?_eq (Nat.le_refl _) (by rw [hfind, ht.absent halive, Option.map_none])
  · obtain ⟨s, hs, hreg, -⟩ := ht.present halive
    rw [hs, Option.map_some] at hfind
    simp only [Listener.step]
    rw [if_pos halive]
    exact
      { fresh := fun hid => absurd (ht.issued h halive) (Nat.not_lt.mpr hid)
        absent := fun hgone => absurd (halive.symm.trans hgone) (by decide)
        present := fun _ => ⟨_, hfind, hreg, by simp [Listener.waiting]⟩
        taken_le := Nat.le_refl _ }

theorem Tracks.receive {id : SubscriptionId} {r : Registry} {l : Listener}
    (h : r.WellFormed) (ht : Tracks id r l) :
    Tracks id (r.receive id).2 (l.step r.capacity .receive) := by
  cases halive : l.alive
  · have hstep : l.step r.capacity .receive = l := by simp [Listener.step, halive]
    rw [hstep, receive_of_none (ht.absent halive)]
    exact ht
  · obtain ⟨s, hs, hreg, hqueue⟩ := ht.present halive
    simp only [Listener.step]
    rw [if_pos halive]
    cases hcase : s.queue with
    | nil =>
        -- Nothing waits, so nothing is taken.
        have hlen := List.drop_eq_nil_iff.mp (hqueue.symm.trans hcase)
        rw [Nat.min_eq_right (Nat.le_succ_of_le hlen), Nat.le_antisymm hlen ht.taken_le,
          receive_of_nil hs hcase]
        exact ht
    | cons e rest =>
        have hwaiting : l.kept.drop l.taken = e :: rest := hqueue.symm.trans hcase
        have hlt : l.taken < l.kept.length := by
          have hlen := congrArg List.length hwaiting
          rw [List.length_drop, List.length_cons] at hlen
          omega
        have hfind := (properAt_rest h hs hcase).find?_changeAt_self h fun _ => rfl
        rw [hs, Option.map_some] at hfind
        rw [Nat.min_eq_left hlt, receive_of_cons hs hcase]
        exact
          { fresh := fun hid => absurd (ht.issued h halive) (Nat.not_lt.mpr hid)
            absent := fun hgone => absurd (halive.symm.trans hgone) (by decide)
            present := fun _ => ⟨_, hfind, hreg, by
              show rest = l.kept.drop (l.taken + 1)
              rw [← List.drop_drop, hwaiting, List.drop_one, List.tail_cons]⟩
            taken_le := hlt }

/-! ## Answers -/

theorem Tracks.map_queue {id : SubscriptionId} {r : Registry} {l : Listener}
    (ht : Tracks id r l) :
    (r.find? id).map (·.queue) = if l.alive then some l.waiting else none := by
  cases halive : l.alive
  · rw [ht.absent halive]
    rfl
  · obtain ⟨s, hs, -, hqueue⟩ := ht.present halive
    rw [hs, Option.map_some, hqueue]
    rfl

theorem Tracks.receive_fst {id : SubscriptionId} {r : Registry} {l : Listener}
    (ht : Tracks id r l) :
    (r.receive id).1 = if l.alive then some l.next else none := by
  cases halive : l.alive
  · rw [receive_of_none (ht.absent halive)]
    rfl
  · obtain ⟨s, hs, hreg, hqueue⟩ := ht.present halive
    unfold Listener.next
    rw [← hqueue, ← hreg]
    cases hcase : s.queue with
    | nil => rw [receive_of_nil hs hcase, if_pos rfl]
    | cons e rest => rw [receive_of_cons hs hcase, if_pos rfl]

/-- A listener is told what its reference says. -/
theorem Tracks.told?_perform {id : SubscriptionId} {r : Registry} {l : Listener}
    (ht : Tracks id r l) (c : Command) :
    told? id (c, (r.perform c).1) = (own? id (c, (r.perform c).1)).bind l.answer := by
  cases c with
  | subscribe tied =>
      simp only [told?, perform, own?]
      split <;> rfl
  | receive i =>
      by_cases hid : i = id
      · subst hid
        simp only [told?, perform, own?, if_true, ht.receive_fst, Option.bind_some,
          Listener.answer]
        cases l.alive <;> rfl
      · simp [told?, own?, hid]
  | drain i =>
      by_cases hid : i = id
      · subst hid
        simp only [told?, perform, Registry.drain, own?, if_true, ht.map_queue, Option.bind_some,
          Listener.answer]
        cases l.alive <;> rfl
      · simp [told?, own?, hid]
  | pending i =>
      by_cases hid : i = id
      · subst hid
        have hpending : r.pending i = (if l.alive then some l.waiting else none).map
            List.length := by
          rw [← ht.map_queue, Registry.pending, Option.map_map]
          rfl
        simp only [told?, perform, own?, if_true, hpending, Option.bind_some, Listener.answer]
        cases l.alive <;> rfl
      · simp [told?, own?, hid]
  | unsubscribe i => by_cases hid : i = id <;> simp [told?, own?, hid, Listener.answer]
  | discard i => by_cases hid : i = id <;> simp [told?, own?, hid, Listener.answer]
  | broadcast e => rfl
  | count => rfl
  | capacity => rfl

/-- A command for another id leaves the agreement as it is. -/
private theorem Tracks.perform_other {id : SubscriptionId} {r : Registry} {l : Listener}
    (ht : Tracks id r l) {c : Command} (hown : own? id (c, (r.perform c).1) = none)
    (hfind : (r.perform c).2.find? id = r.find? id) :
    Tracks id (r.perform c).2
      (l.run r.capacity (own? id (c, (r.perform c).1)).toList) := by
  rw [hown]
  exact ht.of_find?_eq (nextId_le_perform r c) hfind

/-- A command moves the registry and each listener's reference together. -/
theorem Tracks.perform {id : SubscriptionId} {r : Registry} {l : Listener} (h : r.WellFormed)
    (ht : Tracks id r l) (c : Command) :
    Tracks id (r.perform c).2
      (l.run r.capacity (own? id (c, (r.perform c).1)).toList) := by
  cases c with
  | subscribe tied =>
      by_cases hid : r.nextId = id
      · subst hid
        have hown : own? r.nextId (.subscribe tied, (r.perform (.subscribe tied)).1) =
            some .subscribe := if_pos rfl
        rw [hown]
        exact ht.subscribe h tied
      · exact ht.perform_other (if_neg hid) (find?_subscribe_ne h tied (Ne.symm hid))
  | unsubscribe i =>
      by_cases hid : i = id
      · subst hid
        rw [show own? i (.unsubscribe i, (r.perform (.unsubscribe i)).1) = some .unsubscribe
          from if_pos rfl]
        exact ht.unsubscribe h
      · exact ht.perform_other (if_neg hid)
          ((properAt_unsubscribe h i).find?_changeAt_ne h (Ne.symm hid))
  | discard i =>
      by_cases hid : i = id
      · subst hid
        rw [show own? i (.discard i, (r.perform (.discard i)).1) = some .discard from if_pos rfl]
        have hheld := ht.discard h
        simp only [Registry.perform]
        split
        · exact hheld
        · -- Without a handle there is nothing to give up, and the reference knows.
          next hnone =>
            exact
              { fresh := ht.fresh
                absent := fun _ => by simpa using hnone
                present := fun halive => by cases halive
                taken_le := ht.taken_le }
      · refine ht.perform_other (if_neg hid) ?_
        simp only [Registry.perform]
        split
        · exact (properAt_discard r i).find?_changeAt_ne h (Ne.symm hid)
        · rfl
  | broadcast e => exact ht.broadcast h e
  | receive i =>
      by_cases hid : i = id
      · subst hid
        rw [show own? i (.receive i, (r.perform (.receive i)).1) = some .receive from if_pos rfl]
        exact ht.receive h
      · refine ht.perform_other (if_neg hid) ?_
        show (r.receive i).2.find? id = r.find? id
        cases hfind : r.find? i with
        | none => rw [receive_of_none hfind]
        | some s =>
            cases hqueue : s.queue with
            | nil => rw [receive_of_nil hfind hqueue]
            | cons e rest =>
                rw [receive_of_cons hfind hqueue]
                exact (properAt_rest h hfind hqueue).find?_changeAt_ne h (Ne.symm hid)
  | drain i =>
      by_cases hid : i = id
      · subst hid
        rw [show own? i (.drain i, (r.perform (.drain i)).1) = some .drain from if_pos rfl]
        exact ht.drain h
      · exact ht.perform_other (if_neg hid)
          ((properAt_clear h i).find?_changeAt_ne h (Ne.symm hid))
  | pending i =>
      by_cases hid : i = id
      · subst hid
        rw [show own? i (.pending i, (r.perform (.pending i)).1) = some .pending from if_pos rfl]
        exact ht
      · exact ht.perform_other (if_neg hid) rfl
  | count => exact ht
  | capacity => exact ht

/-! ## Whole runs -/

theorem ownSteps_cons (id : SubscriptionId) (x : Command × Reply)
    (log : List (Command × Reply)) :
    ownSteps id (x :: log) = (own? id x).toList ++ ownSteps id log := by
  unfold ownSteps
  cases hown : own? id x <;> simp [hown]

private theorem told_cons (id : SubscriptionId) (x : Command × Reply)
    (log : List (Command × Reply)) :
    told id (x :: log) = (told? id x).toList ++ told id log := by
  unfold told
  cases htold : told? id x <;> simp [htold]

/-- The registry and a listener's reference agree after every run. -/
theorem tracks_performAll {id : SubscriptionId} {r : Registry} {l : Listener}
    (h : r.WellFormed) (ht : Tracks id r l) (cs : List Command) :
    Tracks id (r.performAll cs).2 (l.run r.capacity (ownSteps id (r.performAll cs).1)) := by
  induction cs generalizing r l with
  | nil => exact ht
  | cons c cs ih =>
      have hrest := ih (wellFormed_perform h c) (ht.perform h c)
      rw [capacity_perform] at hrest
      rw [performAll_cons, ownSteps_cons, Listener.run_append]
      exact hrest

/-- A listener is told, in the whole of a run, what its reference says. -/
theorem told_performAll {id : SubscriptionId} {r : Registry} {l : Listener}
    (h : r.WellFormed) (ht : Tracks id r l) (cs : List Command) :
    told id (r.performAll cs).1 = l.answers r.capacity (ownSteps id (r.performAll cs).1) := by
  induction cs generalizing r l with
  | nil => rfl
  | cons c cs ih =>
      have hrest := ih (wellFormed_perform h c) (ht.perform h c)
      rw [capacity_perform] at hrest
      rw [performAll_cons, ownSteps_cons, told_cons, Listener.answers_append, ← hrest,
        ht.told?_perform c]
      cases own? id (c, (r.perform c).1) with
      | none => rfl
      | some o => simp [Listener.answers]

/-- What a listener received in a run is the beginning of what its reference keeps. -/
theorem received_performAll (id : SubscriptionId) (buffer : Nat) (cs : List Command) :
    received id ((empty buffer).performAll cs).1 =
      (Listener.stranger.run (max buffer 1)
        (ownSteps id ((empty buffer).performAll cs).1)).got := by
  rw [Listener.got_run (max buffer 1) Listener.stranger (Nat.le_refl 0), received,
    told_performAll (wellFormed_empty buffer) (tracks_empty id buffer) cs]
  rfl

end Registry

end LiveDiagram
