import LiveDiagram.Proofs.Document.Commands
import LiveDiagram.Proofs.Recorded
import LiveDiagram.Proofs.Stream.Connection
import LiveDiagram.Proofs.Stream.Messages

/-!
# A stream and those around it

A stream makes its steps one by one, and between any two of them others use the store, or the stream is
cancelled.  A schedule says who comes next; every list of requests is a schedule.  Others cannot use the
stream's handle, which it gives to nobody, so a request to do that is passed over, as is one to go on
when the stream has ended.

What happened is kept as a history, newest first.  It tells what was sent (`items`) and what the
registry was asked for (`asked`).

## Main results

* `does_of_perform`, `step_moves`: all that a stream can do, and all that a request can do.
* `finds_look`: a look finds what the reference of the queue says.
* `told_of_reachable`: what the history tells of the stage that a stream has come to.
-/

namespace LiveDiagram.EventStream

/-! ## Stages -/

namespace Stage

/-- The subscription, once there is one. -/
@[simp] def id? : Stage → Option SubscriptionId
  | .opening => none
  | .sending id _ | .waiting id | .leaving id _ | .ended id _ => some id

/-- Why the stream is over, if it is. -/
@[simp] def end? : Stage → Option StreamEnd
  | .leaving _ why | .ended _ why => some why
  | _ => none

/-- The bytes of a block that are still to be written. -/
@[simp] def rest : Stage → Bytes
  | .sending _ rest => rest
  | _ => []

end Stage

/-! ## What a stream can do -/

/-- All that a stream can do, with what it leaves of its surroundings and where that leads. -/
inductive Does (s : Surroundings) : Stage → Step → Surroundings → Stage → Prop where
  | subscribed :
      Does s .opening (.subscribed s.store.registry.nextId) { s with store := s.store.subscribe.2 }
        (.sending s.store.registry.nextId head)
  | wrote {id : SubscriptionId} {rest : Bytes} (h : (s.connection.write rest).1 ≠ 0) :
      Does s (.sending id rest) (.wrote (s.connection.write rest).1)
        { s with connection := (s.connection.write rest).2 }
        (.sending id (rest.drop (s.connection.write rest).1))
  /-- A call failed that had something to write. -/
  | broke {id : SubscriptionId} {rest : Bytes} (hrest : rest ≠ [])
      (h : (s.connection.write rest).1 = 0) :
      Does s (.sending id rest) (.wrote 0) { s with connection := (s.connection.write rest).2 }
        (.leaving id .disconnected)
  | flushed {id : SubscriptionId} (h : s.connection.flush.1 = true) :
      Does s (.sending id []) (.flushed true) { s with connection := s.connection.flush.2 }
        (.waiting id)
  /-- A flush failed. -/
  | stuck {id : SubscriptionId} (h : s.connection.flush.1 = false) :
      Does s (.sending id []) (.flushed false) { s with connection := s.connection.flush.2 }
        (.leaving id .disconnected)
  | took {id : SubscriptionId} {cancelFirst : Bool} {e : ChangeEvent} {store : Store}
      (h : look s.store id s.cancelled cancelFirst = (.event e, store)) :
      Does s (.waiting id) (.took id e (Item.event e).bytes) { s with store }
        (.sending id (Item.event e).bytes)
  | idled {id : SubscriptionId} {cancelFirst : Bool} {store : Store}
      (h : look s.store id s.cancelled cancelFirst = (.nothing, store)) :
      Does s (.waiting id) .idled { s with store } (.sending id keepAlive)
  | dismissed {id : SubscriptionId} {cancelFirst : Bool} {store : Store}
      (h : look s.store id s.cancelled cancelFirst = (.unsubscribed, store)) :
      Does s (.waiting id) .dismissed { s with store } (.leaving id .unsubscribed)
  | stopped {id : SubscriptionId} {cancelFirst : Bool} {store : Store}
      (h : look s.store id s.cancelled cancelFirst = (.cancelled, store)) :
      Does s (.waiting id) .stopped { s with store } (.leaving id .shutdown)
  | released {id : SubscriptionId} {why : StreamEnd} :
      Does s (.leaving id why) (.released id) { s with store := s.store.release id } (.ended id why)

/-- Whatever a stream does is one of these.  Above all it passes no event over, since every event can
be framed. -/
theorem does_of_perform {s s' : Surroundings} {stage : Stage} {cancelFirst : Bool} {y : Step}
    (h : (stage.perform (Surroundings.host cancelFirst)).run s = (some y, s')) :
    Does s stage y s' (stage.after y) := by
  cases stage with
  | opening =>
      cases h
      exact .subscribed
  | sending id rest =>
      by_cases hrest : rest = []
      · subst hrest
        obtain ⟨rfl, rfl⟩ : .flushed s.connection.flush.1 = y ∧
            { s with connection := s.connection.flush.2 } = s' := by
          cases h
          exact ⟨rfl, rfl⟩
        cases hdone : s.connection.flush.1
        · exact .stuck hdone
        · exact .flushed hdone
      · obtain ⟨rfl, rfl⟩ : .wrote (s.connection.write rest).1 = y ∧
            { s with connection := (s.connection.write rest).2 } = s' := by
          simp only [Stage.perform, hrest, if_false] at h
          cases h
          exact ⟨rfl, rfl⟩
        by_cases hnone : (s.connection.write rest).1 = 0
        · rw [Stage.after, if_pos hnone, hnone]
          exact .broke hrest hnone
        · rw [Stage.after, if_neg hnone]
          exact .wrote hnone
  | waiting id =>
      obtain ⟨rfl, rfl⟩ : (look s.store id s.cancelled cancelFirst).1.step id = y ∧
          { s with store := (look s.store id s.cancelled cancelFirst).2 } = s' := by
        cases h
        exact ⟨rfl, rfl⟩
      cases hlook : look s.store id s.cancelled cancelFirst with
      | mk wake store =>
          cases wake with
          | event e =>
              simp only [Wake.step, frame_eq, Stage.after]
              exact .took hlook
          | unsubscribed => exact .dismissed hlook
          | cancelled => exact .stopped hlook
          | nothing => exact .idled hlook
  | leaving id why =>
      cases h
      exact .released
  | ended id why => cases h

/-- What a look can find, by the reference of the queue, and what it leaves of the store. -/
def Finds (l : Listener) (id : SubscriptionId) (cancelled : Bool) (s s' : Store) : Wake → Prop
  | .event e => l.next = .event e ∧ s' = { s with registry := (s.registry.perform (.receive id)).2 }
  | .unsubscribed => l.next = .disconnected ∧ s' = s
  | .cancelled => cancelled = true ∧ s' = s
  | .nothing => cancelled = false ∧ l.next = .empty ∧ s' = s

theorem finds_look {s : Store} {id : SubscriptionId} {l : Listener} (h : s.registry.Given id l)
    (halive : l.alive = true) (cancelled cancelFirst : Bool) :
    Finds l id cancelled s (look s id cancelled cancelFirst).2 (look s id cancelled cancelFirst).1 := by
  have hnext := h.tracks.receive_fst
  rw [if_pos halive] at hnext
  unfold look
  cases hfirst : cancelled && cancelFirst
  · simp only [Bool.false_eq_true, if_false]
    cases hreceive : s.registry.receive id with
    | mk found registry =>
        rw [hreceive] at hnext
        obtain rfl : found = some l.next := hnext
        cases hcase : l.next with
        | event e => simp [Finds, hcase, Registry.perform, hreceive]
        | empty => cases cancelled <;> simp [Finds, hcase]
        | disconnected => simp [Finds, hcase]
  · rw [Bool.and_eq_true] at hfirst
    simp [Finds, hfirst.1]

/-! ## The system -/

namespace Serving

/-- What can come next. -/
inductive Request where
  /-- Others ask the store for something. -/
  | others (c : Store.Command)
  | cancel
  /-- The stream makes a step.  If it looks for what is ready, this says whether cancellation is served
  first. -/
  | stream (cancelFirst : Bool)

/-- A step that was taken. -/
inductive Step where
  /-- Others used the store, which asked this of the registry. -/
  | others (asked : Option Registry.Command)
  | cancelled
  | own (y : EventStream.Step)
deriving DecidableEq

/-- What happened, newest first. -/
abbrev History := List Step

end Serving

/-- A stream being served, and all around it. -/
structure Serving where
  surroundings : Surroundings
  stage : Stage
  history : Serving.History

namespace Serving

/-- A stream that was asked for and has done nothing. -/
def start (store : Store) (connection : Connection) (cancelled : Bool) : Serving :=
  ⟨⟨store, connection, cancelled⟩, .opening, []⟩

/-- The registry that the stream has subscribed to. -/
def registry (x : Serving) : Registry :=
  x.surroundings.store.registry

/-- One request. -/
def step (x : Serving) : Request → Serving
  | .others c =>
    if ∀ id ∈ x.stage.id?, c.Spares id then
      { x with
        surroundings := { x.surroundings with store := (x.surroundings.store.perform c).2 }
        history := .others (x.surroundings.store.asked c) :: x.history }
    else x
  | .cancel =>
    { x with
      surroundings := { x.surroundings with cancelled := true }
      history := .cancelled :: x.history }
  | .stream cancelFirst =>
    match (x.stage.perform (Surroundings.host cancelFirst)).run x.surroundings with
    | (none, _) => x
    | (some y, surroundings) => ⟨surroundings, x.stage.after y, .own y :: x.history⟩

/-- All that one request can do, with the step it adds to the history. -/
inductive Moves : Serving → Step → Serving → Prop where
  | others {x : Serving} {c : Store.Command} (spares : ∀ id ∈ x.stage.id?, c.Spares id) :
      Moves x (.others (x.surroundings.store.asked c))
        { x with
          surroundings := { x.surroundings with store := (x.surroundings.store.perform c).2 }
          history := .others (x.surroundings.store.asked c) :: x.history }
  | cancelled (x : Serving) :
      Moves x .cancelled
        { x with
          surroundings := { x.surroundings with cancelled := true }
          history := .cancelled :: x.history }
  | own {x : Serving} {y : EventStream.Step} {s : Surroundings} {stage : Stage}
      (does : Does x.surroundings x.stage y s stage) :
      Moves x (.own y) ⟨s, stage, .own y :: x.history⟩

theorem step_moves (x : Serving) (a : Request) : x.step a = x ∨ ∃ y, Moves x y (x.step a) := by
  cases a with
  | others c =>
      simp only [step]
      split
      · next hspares => exact Or.inr ⟨_, .others hspares⟩
      · exact Or.inl rfl
  | cancel => exact Or.inr ⟨_, .cancelled x⟩
  | stream cancelFirst =>
      simp only [step]
      split
      · exact Or.inl rfl
      · next hperform => exact Or.inr ⟨_, .own (does_of_perform hperform)⟩

/-- Streams as systems that remember their moves. -/
def recorder : Recorder Serving Request Step where
  step := step
  history := history
  Moves := Moves
  step_moves := step_moves
  history_eq := by
    intro x y x' h
    cases h <;> rfl

/-- The states that schedules lead to. -/
def Reachable (store : Store) (connection : Connection) (cancelled : Bool) (x : Serving) : Prop :=
  recorder.Reachable (start store connection cancelled) x

/-- Every step of a history was a move, from a state with the history before it. -/
theorem exists_move {store : Store} {connection : Connection} {cancelled : Bool} {x : Serving}
    (hx : Reachable store connection cancelled x) {after before : History} {y : Step}
    (h : x.history = after ++ y :: before) :
    ∃ s stage q, Reachable store connection cancelled ⟨s, stage, before⟩ ∧
      Moves ⟨s, stage, before⟩ y q := by
  obtain ⟨⟨s, stage, history⟩, q, hp, -, hmove, rfl⟩ := Recorder.exists_move_of_history_eq rfl hx h
  exact ⟨s, stage, q, hp, hmove⟩

/-! ## What a history tells -/

end Serving

/-- What is sent in consequence of a step. -/
@[simp] def Step.item? : Step → Option Item
  | .took _ e _ => some (.event e)
  | .idled => some .comment
  | _ => none

/-- What a step asks of the registry. -/
def Step.asks? : Step → Option Registry.Command
  | .subscribed _ => some (.subscribe true)
  | .took id _ _ | .skipped id _ _ => some (.receive id)
  | .released id => some (.discard id)
  | _ => none

namespace Serving

/-- What is sent in consequence of a step. -/
@[simp] def Step.item? : Step → Option Item
  | .others _ | .cancelled => none
  | .own y => y.item?

/-- What a step asks of the registry. -/
def Step.asks? : Step → Option Registry.Command
  | .others asked => asked
  | .cancelled => none
  | .own y => y.asks?

/-- All that is sent behind the head, in order. -/
def items (h : History) : List Item :=
  h.reverse.filterMap Step.item?

/-- All that was asked of the registry, in order. -/
def asked (h : History) : List Registry.Command :=
  h.reverse.filterMap Step.asks?

@[simp] theorem items_cons (y : Step) (h : History) :
    items (y :: h) = items h ++ y.item?.toList := by
  rw [items, List.reverse_cons, List.filterMap_append, items]
  cases hitem : y.item? <;> simp only [List.filterMap_cons, List.filterMap_nil, hitem] <;> rfl

theorem asked_cons (y : Step) (h : History) : asked (y :: h) = asked h ++ y.asks?.toList := by
  rw [asked, List.reverse_cons, List.filterMap_append]
  cases hasks : y.asks? <;> simp [asked, hasks]

/-- What the history tells of the stage that a stream has come to. -/
structure Told (cancelled : Bool) (x : Serving) : Prop where
  subscribed : ∀ id, .own (.subscribed id) ∈ x.history ↔ x.stage.id? = some id
  /-- It sends nothing before it has subscribed. -/
  silent : x.stage = .opening → items x.history = []
  written : ∀ n, .own (.wrote n) ∈ x.history → x.stage ≠ .opening
  disconnected : x.stage.end? = some .disconnected ↔
    .own (.wrote 0) ∈ x.history ∨ .own (.flushed false) ∈ x.history
  shutdown : x.stage.end? = some .shutdown ↔ .own .stopped ∈ x.history
  unsubscribed : x.stage.end? = some .unsubscribed ↔ .own .dismissed ∈ x.history
  released : ∀ id, .own (.released id) ∈ x.history ↔ ∃ why, x.stage = .ended id why
  cancelled : x.surroundings.cancelled = true ↔ cancelled = true ∨ .cancelled ∈ x.history
  /-- Every event can be framed. -/
  skipped : ∀ id e reason, .own (.skipped id e reason) ∉ x.history

theorem told_of_reachable {store : Store} {connection : Connection} {cancelled : Bool} {x : Serving}
    (hx : Reachable store connection cancelled x) : x.Told cancelled := by
  refine Recorder.run_induction (R := recorder) ?_ ?_ hx
  · constructor <;> simp [start, items]
  · rintro ⟨s, stage, history⟩ y x' - - h hmove
    obtain ⟨hsubscribed, hsilent, hwritten, hdisconnected, hshutdown, hunsubscribed, hreleased,
      hcancelled, hskipped⟩ := h
    cases hmove with
    | others => constructor <;> simpa
    | cancelled =>
        constructor
        case cancelled => simp
        all_goals simpa
    | own does =>
        cases does with
        | subscribed | released =>
            constructor <;> simp_all
            exact fun _ => eq_comm
        | wrote h =>
            have hzero := Ne.symm h
            constructor <;> simp_all
        | _ => constructor <;> simp_all

end Serving

end LiveDiagram.EventStream
