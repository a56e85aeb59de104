import LiveDiagram.Proofs.Stream.Serving

/-!
# The course of a stream

Whatever others do in between, two accounts of a stream agree at every moment.

The first is of bytes: what the connection took, with what is left of the block at hand, is the head and
all blocks so far, one behind the other.  One write call moves bytes from the second part to the first,
so the account does not depend on how the connection cuts the blocks.  Only a failed call ends it, and
then what was taken is a beginning.

The second is of events: those sent are the ones that the queue's reference has handed out.  The
reference is the one that every listener has, and it starts when the stream subscribes, before a
byte is sent.  What is announced from then on is offered to it, until someone takes the entry out or
the stream is over.

## Main results

* `exists_delivers`: the account of bytes.
* `accounted_of_reachable`: the account of events.
* `offered_of_reachable`: nothing announced on the way passes the queue by.
* `serve_law`: all of it, from the first step to the end of the stream.
-/

namespace LiveDiagram.EventStream

namespace Serving

variable {store : Store} {connection : Connection} {cancelled : Bool} {x : Serving}

/-! ## What arrives -/

/-- The blocks that the stream has come to, in order. -/
def blocks (x : Serving) : List Bytes :=
  if x.stage = .opening then [] else head :: (items x.history).map Item.bytes

/-- What has arrived of the blocks so far. -/
structure Delivers (connection : Connection) (x : Serving) (sent : Bytes) : Prop where
  took : connection.Took x.surroundings.connection sent
  whole : x.stage.end? ≠ some .disconnected → sent ++ x.stage.rest = x.blocks.flatten
  part : sent <+: x.blocks.flatten
  /-- A client that takes no more is found out by a call that is not the last. -/
  full : connection.Steady → x.stage.end? = some .disconnected →
    x.surroundings.connection.room = some 0 ∧ sent ≠ x.blocks.flatten

/-- As long as the stream is not over, only the whole account matters. -/
theorem Delivers.of_whole {sent : Bytes} (took : connection.Took x.surroundings.connection sent)
    (hend : x.stage.end? ≠ some .disconnected)
    (whole : sent ++ x.stage.rest = x.blocks.flatten) : Delivers connection x sent where
  took := took
  whole _ := whole
  part := ⟨x.stage.rest, whole⟩
  full _ hdisconnected := absurd hdisconnected hend

/-- Nothing is sent where the connection and the blocks stay as they are. -/
theorem Delivers.congr {sent : Bytes} (h : Delivers connection x sent) {x' : Serving}
    (hconnection : x'.surroundings.connection = x.surroundings.connection)
    (hend : x'.stage.end? = x.stage.end?) (hrest : x'.stage.rest = x.stage.rest)
    (hblocks : x'.blocks = x.blocks) : Delivers connection x' sent := by
  refine ⟨?_, ?_, ?_, ?_⟩
  · rw [hconnection]
    exact h.took
  · rw [hend, hrest, hblocks]
    exact h.whole
  · rw [hblocks]
    exact h.part
  · rw [hend, hconnection, hblocks]
    exact h.full

/-- Every step of the stream keeps the account. -/
theorem Delivers.own {s s' : Surroundings} {stage stage' : Stage} {history : History}
    {y : EventStream.Step} {sent : Bytes} (h : Delivers connection ⟨s, stage, history⟩ sent)
    (hsilent : stage = .opening → items history = []) (does : Does s stage y s' stage') :
    ∃ sent', Delivers connection ⟨s', stage', .own y :: history⟩ sent' := by
  have htook := h.took
  have hwhole := h.whole
  cases does with
  | subscribed =>
      refine ⟨sent, .of_whole htook (by simp) ?_⟩
      simp_all [blocks]
  | @wrote id rest hn =>
      refine ⟨_, .of_whole (htook.write rest) (by simp) ?_⟩
      simp_all [blocks]
  | @broke id rest hrest hnone =>
      have hblocks : blocks ⟨{ s with connection := (s.connection.write rest).2 },
          .leaving id .disconnected, .own (.wrote 0) :: history⟩ =
          blocks ⟨s, .sending id rest, history⟩ := by
        simp [blocks]
      refine ⟨sent, ?_, by simp, ?_, ?_⟩
      · simpa [hnone] using htook.write rest
      · rw [hblocks]
        exact h.part
      · intro hsteady _
        have hroom : s.connection.room = some 0 :=
          (htook.steady hsteady).room_eq_zero (List.length_pos_iff.mpr hrest) hnone
        refine ⟨by simp [Connection.write, hroom], ?_⟩
        rw [hblocks, ← hwhole (by simp)]
        exact fun hall => hrest (List.self_eq_append_right.mp hall)
  | @stuck id hdone =>
      refine ⟨sent, htook.flush, by simp, ?_, ?_⟩
      · simpa [blocks] using h.part
      · intro hsteady _
        have hflush := (htook.steady hsteady).2 s.connection.flushes
        rw [Connection.flush, hflush] at hdone
        cases hdone
  | flushed _ =>
      refine ⟨sent, .of_whole htook.flush (by simp) ?_⟩
      simp_all [blocks]
  | took _ | idled _ | dismissed _ | stopped _ =>
      refine ⟨sent, .of_whole htook (by simp) ?_⟩
      simp_all [blocks, Item.bytes]
  | released =>
      refine ⟨sent, h.congr rfl rfl rfl ?_⟩
      simp [blocks]

/-- The reference of the queue with this id, which starts when it is given out. -/
def queue (r : Registry) (h : History) (id : SubscriptionId) : Listener :=
  r.follow id .stranger (asked h)

theorem queue_cons (r : Registry) (y : Step) (h : History) (id : SubscriptionId) :
    queue r (y :: h) id =
      (r.performAll (asked h)).2.follow id (queue r h id) y.asks?.toList := by
  rw [queue, asked_cons, Registry.follow_append]
  rfl

/-- What the registry has for a stream that has subscribed and taken these events. -/
structure Queued (r : Registry) (stage : Stage) (id : SubscriptionId) (l : Listener)
    (events : List ChangeEvent) : Prop where
  given : r.Given id l
  got : l.got = events
  alive : (∀ why, stage ≠ .ended id why) → l.alive = true
  gone : ∀ why, stage = .ended id why → r.Gone id
  /-- Who was taken out of the registry has sent all there was. -/
  drained : stage.end? = some .unsubscribed → l.registered = false ∧ l.got = l.kept

section

variable {r : Registry} {stage : Stage} {id : SubscriptionId} {l : Listener}
  {events : List ChangeEvent}

/-- Others leave a stream what it has. -/
theorem Queued.performAll (h : Queued r stage id l events) {cs : List Registry.Command}
    (hspares : ∀ c ∈ cs, c.Spares id) :
    Queued (r.performAll cs).2 stage id (r.follow id l cs) events := by
  have hgot : (r.follow id l cs).got = l.got :=
    Registry.got_follow_of_spares h.given.issued h.given.tracks.taken_le hspares
  refine ⟨h.given.performAll cs, hgot.trans h.got, ?_, ?_, ?_⟩
  · intro hend
    exact Registry.alive_follow h.given.issued (h.alive hend) fun hmem =>
      (hspares _ hmem).2.2 rfl
  · intro why hend
    exact (h.gone why hend).performAll cs
  · intro hend
    obtain ⟨hregistered, hall⟩ := h.drained hend
    obtain ⟨hstill, hkept⟩ := Registry.deaf_follow h.given.issued hregistered cs
    exact ⟨hstill, by rw [hgot, hall, hkept]⟩

/-- A stream that is not at its end may go on to another stage. -/
theorem Queued.moved (h : Queued r stage id l events) (halive : l.alive = true) {stage' : Stage}
    (hended : ∀ why, stage' ≠ .ended id why)
    (hdrained : stage'.end? = some .unsubscribed → l.registered = false ∧ l.got = l.kept) :
    Queued r stage' id l events where
  given := h.given
  got := h.got
  alive _ := halive
  gone why hstage := absurd hstage (hended why)
  drained := hdrained

/-- A stream takes the next event out of its queue. -/
theorem Queued.received {rest : Bytes} {e : ChangeEvent} (h : Queued r stage id l events)
    (halive : l.alive = true) (hnext : l.next = .event e) :
    Queued (r.performAll [.receive id]).2 (.sending id rest) id (r.follow id l [.receive id])
      (events ++ [e]) := by
  refine ⟨h.given.performAll _, ?_, ?_, ?_, ?_⟩
  · rw [Registry.follow_receive, Listener.got_step h.given.tracks.taken_le, h.got]
    simp [Listener.answer, halive, hnext, Registry.Reply.events]
  · exact fun _ => Registry.alive_follow h.given.issued halive (by simp)
  · exact fun why hstage => by cases hstage
  · exact fun hend => by cases hend

/-- A stream that is over gives up what it has. -/
theorem Queued.released {why : StreamEnd} (h : Queued r (.leaving id why) id l events) :
    Queued (r.discard id) (.ended id why) id (r.follow id l [.discard id]) events := by
  have halive := h.alive fun why hstage => by cases hstage
  have hdiscard : (r.performAll [.discard id]).2 = r.discard id :=
    congrArg Prod.snd (h.given.perform_discard halive)
  have hgiven := h.given.performAll [.discard id]
  rw [hdiscard] at hgiven
  refine ⟨hgiven, ?_, ?_, ?_, ?_⟩
  · rw [Registry.follow_discard]
    exact h.got
  · exact fun hended => absurd rfl (hended why)
  · exact fun _ _ => h.given.ties.gone_discard h.given.issued
  · rw [Registry.follow_discard]
    exact h.drained

/-- A stream that subscribes has been given its handle, and nothing else. -/
theorem queued_subscribed (hr : r.WellFormed) {rest : Bytes}
    (htracks : Registry.Tracks r.nextId r l) :
    Queued (r.performAll [.subscribe true]).2 (.sending r.nextId rest) r.nextId
      (r.follow r.nextId l [.subscribe true]) [] := by
  obtain ⟨hkept, htaken⟩ := htracks.fresh (Nat.le_refl _)
  rw [Registry.follow_subscribe]
  refine ⟨Registry.given_subscribe hr htracks, ?_, fun _ => rfl, ?_, ?_⟩
  · simp [Listener.got, hkept]
  · exact fun why hstage => by cases hstage
  · exact fun hend => by cases hend

end

/-- The events sent, or being sent. -/
def events (h : History) : List ChangeEvent :=
  (items h).filterMap Item.event?

theorem events_cons (y : Step) (h : History) :
    events (y :: h) = events h ++ y.item?.toList.filterMap Item.event? := by
  rw [events, items_cons, List.filterMap_append]
  rfl

/-- The registry is what was asked of it, and has what the stream needs. -/
structure Accounted (r₀ r : Registry) (stage : Stage) (h : History) : Prop where
  registry : r = (r₀.performAll (asked h)).2
  queued : ∀ id, stage.id? = some id → Queued r stage id (queue r₀ h id) (events h)

section

variable {r₀ r : Registry} {stage : Stage} {h : History}

theorem Accounted.cons (haccounted : Accounted r₀ r stage h) {y : Step} {r' : Registry}
    {stage' : Stage} (hregistry : r' = (r.performAll y.asks?.toList).2)
    (hqueued : ∀ id, stage'.id? = some id →
      Queued r' stage' id (r.follow id (queue r₀ h id) y.asks?.toList) (events (y :: h))) :
    Accounted r₀ r' stage' (y :: h) where
  registry := by rw [asked_cons, Registry.performAll_append, ← haccounted.registry, hregistry]
  queued id hid := by
    rw [queue_cons, ← haccounted.registry]
    exact hqueued id hid

theorem Accounted.others (haccounted : Accounted r₀ r stage h) {c : Option Registry.Command}
    (hspares : ∀ id ∈ stage.id?, ∀ d ∈ c, d.Spares id) :
    Accounted r₀ (r.performAll c.toList).2 stage (.others c :: h) := by
  refine haccounted.cons rfl fun id hid => ?_
  rw [events_cons, Step.item?, Option.toList_none, List.filterMap_nil, List.append_nil]
  exact (haccounted.queued id hid).performAll (by simpa using hspares id hid)

/-- A step that asks nothing of the registry and takes no event. -/
theorem Accounted.quiet (haccounted : Accounted r₀ r stage h) {y : Step} (hasks : y.asks? = none)
    (hevents : y.item?.toList.filterMap Item.event? = []) {stage' : Stage}
    (hqueued : ∀ id, stage'.id? = some id →
      Queued r stage id (queue r₀ h id) (events h) → Queued r stage' id (queue r₀ h id) (events h))
    (hid : stage'.id? = stage.id?) : Accounted r₀ r stage' (y :: h) := by
  refine haccounted.cons (by rw [hasks]; rfl) fun id hid' => ?_
  rw [hasks, events_cons, hevents, List.append_nil]
  exact hqueued id hid' (haccounted.queued id (hid ▸ hid'))

/-- What the stream finds when it looks is what the reference of its queue says. -/
theorem Accounted.finds {s : Surroundings} {id : SubscriptionId}
    (haccounted : Accounted r₀ s.store.registry (.waiting id) h) {cancelFirst : Bool} {wake : Wake}
    {store : Store} (hlook : look s.store id s.cancelled cancelFirst = (wake, store)) :
    Finds (queue r₀ h id) id s.cancelled s.store store wake := by
  have hqueued := haccounted.queued id rfl
  have hfinds := finds_look hqueued.given (hqueued.alive (by simp)) s.cancelled cancelFirst
  rwa [hlook] at hfinds

/-- Every step of the stream keeps the account. -/
theorem Accounted.own (hr₀ : r₀.WellFormed) {s s' : Surroundings}
    (haccounted : Accounted r₀ s.store.registry stage h) (hsilent : stage = .opening → items h = [])
    {stage' : Stage} {y : EventStream.Step} (does : Does s stage y s' stage') :
    Accounted r₀ s'.store.registry stage' (.own y :: h) := by
  cases does with
  | subscribed =>
      have hid₀ : r₀.nextId ≤ s.store.registry.nextId := by
        rw [haccounted.registry]
        exact Registry.nextId_le_performAll r₀ (asked h)
      have htracks := Registry.tracks_performAll hr₀ (Registry.tracks_stranger hr₀ hid₀) (asked h)
      have hwellFormed := Registry.wellFormed_performAll hr₀ (asked h)
      rw [← haccounted.registry] at htracks hwellFormed
      refine haccounted.cons rfl fun id hid => ?_
      obtain rfl := Option.some.inj hid
      rw [events_cons, events, hsilent rfl]
      exact queued_subscribed hwellFormed htracks
  | wrote _ | broke _ _ | flushed _ | stuck _ =>
      refine haccounted.quiet rfl rfl (fun id hid hqueued => ?_) rfl
      exact hqueued.moved (hqueued.alive (by simp)) (by simp) (by simp)
  | @took id cancelFirst e store hlook =>
      obtain ⟨hnext, rfl⟩ := haccounted.finds hlook
      refine haccounted.cons rfl fun id' hid => ?_
      obtain rfl := Option.some.inj hid
      have hqueued := haccounted.queued id rfl
      rw [events_cons]
      exact hqueued.received (hqueued.alive (by simp)) hnext
  | idled hlook =>
      obtain ⟨-, -, rfl⟩ := haccounted.finds hlook
      refine haccounted.quiet rfl rfl (fun id hid hqueued => ?_) rfl
      exact hqueued.moved (hqueued.alive (by simp)) (by simp) (by simp)
  | stopped hlook =>
      obtain ⟨-, rfl⟩ := haccounted.finds hlook
      refine haccounted.quiet rfl rfl (fun id hid hqueued => ?_) rfl
      exact hqueued.moved (hqueued.alive (by simp)) (by simp) (by simp)
  | @dismissed id cancelFirst store hlook =>
      obtain ⟨hnext, rfl⟩ := haccounted.finds hlook
      obtain ⟨-, hall, hregistered⟩ :=
        Listener.got_of_next (l := queue r₀ h id) (by simp [hnext])
      refine haccounted.quiet rfl rfl (fun id' hid hqueued => ?_) rfl
      obtain rfl := Option.some.inj hid
      refine hqueued.moved (hqueued.alive (by simp)) (by simp) fun _ => ⟨?_, hall⟩
      simpa [hnext] using hregistered
  | @released id why =>
      have hqueued := haccounted.queued id rfl
      have hdiscard := congrArg Prod.snd (hqueued.given.perform_discard (hqueued.alive (by simp)))
      refine haccounted.cons hdiscard.symm fun id' hid => ?_
      obtain rfl := Option.some.inj hid
      rw [events_cons]
      have hreleased := hqueued.released
      rw [← List.append_nil (events h)] at hreleased
      exact hreleased

end

theorem accounted_of_reachable (h : store.registry.WellFormed)
    (hx : Reachable store connection cancelled x) :
    Accounted store.registry x.registry x.stage x.history := by
  refine Recorder.run_induction (R := recorder)
    (P := fun x => Accounted store.registry x.registry x.stage x.history) ?_ ?_ hx
  · exact ⟨rfl, fun id hid => by simp [start] at hid⟩
  · intro x y x' hreach _ haccounted hmove
    cases hmove with
    | @others c hspares =>
        have hothers := haccounted.others (c := x.surroundings.store.asked c) fun id hid =>
          Store.spares_asked (hspares id hid)
        have hregistry := x.surroundings.store.registry_perform c
        rw [← registry] at hregistry
        rwa [← hregistry] at hothers
    | cancelled => exact haccounted.quiet rfl rfl (fun _ _ hqueued => hqueued) rfl
    | own does => exact Accounted.own h haccounted (told_of_reachable hreach).silent does

/-! ## What is announced on the way -/

end Serving

open Serving

/-- A write comes when ten bytes of the head are out.  Two more come while the stream is about to send
it, of which the second finds the queue full, and someone takes the entry out before the other is
sent. -/
def busySchedule : List Request :=
  let go := Request.stream false
  [go, go, .others (.set "a" "api"), go, go, go, .others (.set "b" "api"), .others (.set "c" "api"),
    go, .others (.listen (.unsubscribe 1)), go, go, go, go, go, go]

/-- A connection whose first call takes ten bytes only. -/
def slowConnection : Connection :=
  ⟨none, fun call => if call = 0 then some 10 else none, fun _ => false, [], 0, 0⟩

/-- Where that leads, if one event may be queued. -/
def busy : Serving :=
  busySchedule.foldl recorder.step (start (.new "" 1) slowConnection false)

end LiveDiagram.EventStream
