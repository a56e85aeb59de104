import LiveDiagram.Document.Store
import LiveDiagram.Proofs.Document.Listener
import LiveDiagram.Proofs.Recorded

/-!
# Threads that share a store

Any number of threads use one store at the same time.  A set takes two atomic steps: its commit,
under the lock of the text, and its announcement, under the lock of the registry.  Everything else
is one step.  A schedule says which thread asks for what, in the order in which it happens; every
list of requests is a schedule, and a request that its thread cannot make just then is passed over.

What happened is kept as a history of steps with what each of them returned.  Laws about
interleavings are laws about that history and the state it led to.

## Main results

* `step_moves`: all that a request can do.
* `exists_move`: every step of a history was a move between states of its own.
* `registry_eq_performAll`: to its listeners, a run of the store is a run of the registry.
-/

namespace LiveDiagram

/-- What a broadcast would mean to each subscription just now. -/
def Registry.offers (r : Registry) : List (SubscriptionId × Offer) :=
  r.subscriptions.map fun s => (s.id, s.offer r.capacity)

/-- Counts the outcomes of a broadcast. -/
def BroadcastStats.ofOffers (offers : List (SubscriptionId × Offer)) : BroadcastStats :=
  let outcomes := offers.map (·.2)
  ⟨outcomes.count .delivered, outcomes.count .dropped, outcomes.count .pruned⟩

theorem Registry.broadcast_fst (r : Registry) (e : ChangeEvent) :
    (r.broadcast e).1 = .ofOffers r.offers := by
  simp only [Registry.broadcast, BroadcastStats.ofOffers, Registry.offers, List.map_map]
  rfl

/-- One set as its caller sees it: what was passed, and the version that comes back. -/
structure Write where
  content : String
  source : String
  version : Version
deriving DecidableEq

/-- The event that tells of a write. -/
def Write.event (w : Write) : ChangeEvent := ⟨w.content, w.source, w.version⟩

/-- What a read sees right after a write. -/
def Write.snapshot (w : Write) : Snapshot := ⟨w.content, w.version⟩

namespace Shared

/-- Names a thread. -/
abbrev Thread := Nat

/-- What a thread can ask for.  A set is asked for twice, once for each of its steps. -/
inductive Request where
  | commit (content source : String)
  | announce
  | get
  | version
  | listen (c : Registry.Command)
deriving DecidableEq

/-- A step that was taken, with what it returned. -/
inductive Step where
  /-- A set stored its text; this is what it will have been once it returns. -/
  | commit (w : Write)
  /-- A set offered its event to each subscription, with these outcomes, and returned. -/
  | announce (e : ChangeEvent) (offers : List (SubscriptionId × Offer))
  | get (seen : Snapshot)
  | version (seen : Version)
  | listen (c : Registry.Command) (reply : Registry.Reply)
deriving DecidableEq

/-- What happened, oldest first. -/
abbrev History := List (Thread × Step)

end Shared

/-- A store and the threads that use it. -/
structure Shared where
  store : Store
  /-- The sets between their two steps, with the event each has still to announce. -/
  underway : List (Shared.Thread × ChangeEvent)
  history : Shared.History

namespace Shared

/-- A new store that nobody has used. -/
def start (initial : String) (buffer : Nat) : Shared :=
  ⟨.new initial buffer, [], []⟩

/-- The event that a thread has still to announce. -/
def event? (x : Shared) (t : Thread) : Option ChangeEvent :=
  (x.underway.find? fun p => p.1 = t).map (·.2)

/-! ## Steps -/

/-- The first step of a set. -/
def commit (x : Shared) (t : Thread) (content source : String) : Shared where
  store := (x.store.commit content source).2
  underway := (t, (x.store.commit content source).1) :: x.underway
  history := x.history ++
    [(t, .commit ⟨content, source, (x.store.commit content source).1.version⟩)]

/-- The second step of a set. -/
def announce (x : Shared) (t : Thread) (e : ChangeEvent) : Shared where
  store := x.store.announce e
  underway := x.underway.filter fun p => p.1 ≠ t
  history := x.history ++ [(t, .announce e x.store.registry.offers)]

/-- Reads text and version. -/
def get (x : Shared) (t : Thread) : Shared :=
  { x with history := x.history ++ [(t, .get x.store.snapshot)] }

/-- Reads the version. -/
def version (x : Shared) (t : Thread) : Shared :=
  { x with history := x.history ++ [(t, .version x.store.version)] }

/-- Uses the registry. -/
def listen (x : Shared) (t : Thread) (c : Registry.Command) : Shared :=
  { x with
    store := { x.store with registry := (x.store.registry.perform c).2 }
    history := x.history ++ [(t, .listen c (x.store.registry.perform c).1)] }

/-- One request.  A thread in the middle of a set can only finish it, and events are offered by sets
alone. -/
def step (x : Shared) (a : Thread × Request) : Shared :=
  match x.event? a.1, a.2 with
  | some e, .announce => x.announce a.1 e
  | none, .commit content source => x.commit a.1 content source
  | none, .get => x.get a.1
  | none, .version => x.version a.1
  | none, .listen (.broadcast _) => x
  | none, .listen c => x.listen a.1 c
  | _, _ => x

/-- A whole schedule, from a new store. -/
def run (initial : String) (buffer : Nat) (schedule : List (Thread × Request)) : Shared :=
  schedule.foldl step (start initial buffer)

/-! ## Moves -/

/-- All that one request can do, with the step it adds to the history. -/
inductive Moves : Shared → Thread × Step → Shared → Prop where
  | commit (x : Shared) (t : Thread) (content source : String) (idle : x.event? t = none) :
      Moves x (t, .commit ⟨content, source, (x.store.commit content source).1.version⟩)
        (x.commit t content source)
  | announce (x : Shared) (t : Thread) (e : ChangeEvent) (busy : x.event? t = some e) :
      Moves x (t, .announce e x.store.registry.offers) (x.announce t e)
  | get (x : Shared) (t : Thread) : Moves x (t, .get x.store.snapshot) (x.get t)
  | version (x : Shared) (t : Thread) : Moves x (t, .version x.store.version) (x.version t)
  | listen (x : Shared) (t : Thread) (c : Registry.Command) (quiet : ∀ e, c ≠ .broadcast e) :
      Moves x (t, .listen c (x.store.registry.perform c).1) (x.listen t c)

theorem step_moves (x : Shared) (a : Thread × Request) :
    x.step a = x ∨ ∃ y, Moves x y (x.step a) := by
  obtain ⟨t, q⟩ := a
  unfold step
  split
  · next e he _ => exact Or.inr ⟨_, .announce x t e he⟩
  · next content source he hq => exact Or.inr ⟨_, .commit x t content source he⟩
  · exact Or.inr ⟨_, .get x t⟩
  · exact Or.inr ⟨_, .version x t⟩
  · exact Or.inl rfl
  · next c hc he _ => exact Or.inr ⟨_, .listen x t c hc⟩
  · exact Or.inl rfl

/-- A move adds its step to the history and takes nothing away. -/
theorem Moves.history_eq {x x' : Shared} {y : Thread × Step} (h : Moves x y x') :
    x'.history = x.history ++ [y] := by
  cases h <;> rfl

/-- Threads that share a store as systems that remember their moves. -/
def recorder : Recorder Shared (Thread × Request) (Thread × Step) where
  step := step
  history x := x.history.reverse
  Moves := Moves
  step_moves := step_moves
  history_eq := by
    intro x y x' h
    rw [h.history_eq, List.reverse_append]
    rfl

/-- The states that schedules lead to. -/
def Reachable (initial : String) (buffer : Nat) (x : Shared) : Prop :=
  ∃ schedule, run initial buffer schedule = x

/-- Every step of a history was a move between states of its own. -/
theorem exists_move {initial : String} {buffer : Nat} {x : Shared}
    (hx : Reachable initial buffer x) {before after : History} {y : Thread × Step}
    (h : x.history = before ++ y :: after) :
    ∃ p q, Reachable initial buffer p ∧ Moves p y q ∧ p.history = before := by
  have hsplit : x.history.reverse = after.reverse ++ y :: before.reverse := by
    rw [h, List.reverse_append, List.reverse_cons, List.append_assoc]
    rfl
  have hstart : recorder.history (start initial buffer) = [] := rfl
  obtain ⟨p, q, hp, -, hmove, hpast⟩ := Recorder.exists_move_of_history_eq hstart hx hsplit
  exact ⟨p, q, hp, hmove, List.reverse_inj.mp hpast⟩

/-! ## The registry's share of a history -/

/-- What a step is to the registry. -/
def Step.logged? : Step → Option (Registry.Command × Registry.Reply)
  | .announce e offers => some (.broadcast e, .broadcast (.ofOffers offers))
  | .listen c reply => some (c, reply)
  | _ => none

/-- The registry's share of a history. -/
def registryLog (h : History) : List (Registry.Command × Registry.Reply) :=
  h.filterMap fun y => y.2.logged?

theorem registryLog_append (a b : History) :
    registryLog (a ++ b) = registryLog a ++ registryLog b :=
  List.filterMap_append

theorem Moves.registryLog_eq {x x' : Shared} {y : Thread × Step} (h : Moves x y x') :
    registryLog x'.history = registryLog x.history ++ y.2.logged?.toList := by
  rw [h.history_eq, registryLog_append]
  rfl

/-- To its listeners, a run of the store is a run of the registry. -/
theorem registry_eq_performAll {initial : String} {buffer : Nat} {x : Shared}
    (hx : Reachable initial buffer x) :
    (Registry.empty buffer).performAll ((registryLog x.history).map (·.1)) =
      (registryLog x.history, x.store.registry) := by
  refine Recorder.run_induction (R := recorder) (P := fun x =>
    (Registry.empty buffer).performAll ((registryLog x.history).map (·.1)) =
      (registryLog x.history, x.store.registry)) rfl ?_ hx
  intro x y x' _ _ ih hmove
  rw [hmove.registryLog_eq, List.map_append, Registry.performAll_append, ih]
  cases hmove with
  | commit t content source _ => rfl
  | announce t e _ =>
      simp only [Step.logged?, Option.toList_some, List.map_cons, List.map_nil,
        Registry.performAll, Registry.perform, Registry.broadcast_fst]
      rfl
  | get t => rfl
  | version t => rfl
  | listen t c _ => rfl

end Shared

end LiveDiagram
