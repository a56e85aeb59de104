import LiveDiagram.Document.Basic

/-!
# The registry of subscriptions

Everyone who wants to hear of writes holds a subscription: an entry in the registry and a handle
with a bounded queue behind it.  Both ends can go away on their own.  Unsubscribing takes the entry
out and leaves the queue to the handle; discarding the handle leaves an entry that the next
broadcast prunes, unless the subscription is tied to its handle, when it goes at once.

Every operation changes each subscription by itself, so no subscriber can tell what others do.

## Main results

* `broadcast_total`: delivered, dropped and pruned add up to the entries there were.
-/

namespace LiveDiagram

/-- Names a subscription.  Ids count from one and are never given twice.  They are counted without
end here, where a counter of 64 bits would begin again after as many subscriptions as it has values;
a run is taken to have fewer than that. -/
abbrev SubscriptionId := Nat

/-- One subscription, for as long as the registry has an entry for it or someone holds its handle. -/
structure Subscription where
  id : SubscriptionId
  /-- Discarding the handle also takes the entry out. -/
  tied : Bool
  /-- The registry has an entry. -/
  registered : Bool
  /-- Someone holds the handle. -/
  held : Bool
  /-- Events delivered and not yet received, oldest first. -/
  queue : List ChangeEvent
deriving DecidableEq

/-- What happened to an event offered to one subscription. -/
inductive Offer where
  /-- There is no entry. -/
  | skipped
  | delivered
  /-- The queue is full. -/
  | dropped
  /-- The handle is gone, and now the entry is too. -/
  | pruned
deriving DecidableEq

namespace Subscription

/-- Either end is still there. -/
def isLive (s : Subscription) : Bool :=
  s.registered || s.held

/-- Takes the entry out. -/
def unsubscribe (s : Subscription) : Subscription :=
  { s with registered := false }

/-- Gives the handle up, and with it what is queued. -/
def discard (s : Subscription) : Subscription :=
  { s with registered := s.registered && !s.tied, held := false, queue := [] }

/-- What becomes of an event offered to the subscription. -/
def offer (capacity : Nat) (s : Subscription) : Offer :=
  if !s.registered then .skipped
  else if !s.held then .pruned
  else if s.queue.length < capacity then .delivered
  else .dropped

/-- The subscription after an event was offered to it. -/
def afterOffer (capacity : Nat) (e : ChangeEvent) (s : Subscription) : Subscription :=
  match s.offer capacity with
  | .skipped | .dropped => s
  | .delivered => { s with queue := s.queue ++ [e] }
  | .pruned => s.unsubscribe

end Subscription

/-- What a look at the queue finds. -/
inductive Received where
  | event (e : ChangeEvent)
  | empty
  /-- Nothing is queued and nothing more will be. -/
  | disconnected
deriving DecidableEq

/-- How many entries a broadcast reached, missed and removed. -/
structure BroadcastStats where
  delivered : Nat
  dropped : Nat
  pruned : Nat
deriving DecidableEq

/-- The subscriptions, and how many events each may have queued. -/
structure Registry where
  capacity : Nat
  nextId : SubscriptionId
  subscriptions : List Subscription
  capacity_pos : 0 < capacity

namespace Registry

/-- How many events a subscription may have queued when nothing else is asked for. -/
def defaultCapacity : Nat := 16

/-- A registry without subscriptions.  A queue holds at least one event. -/
def empty (buffer : Nat) : Registry where
  capacity := max buffer 1
  nextId := 1
  subscriptions := []
  capacity_pos := by omega

/-- Changes every subscription and forgets those with neither end left. -/
def change (r : Registry) (f : Subscription → Subscription) : Registry :=
  { r with subscriptions := (r.subscriptions.map f).filter Subscription.isLive }

/-- Changes the subscription with this id. -/
def changeAt (r : Registry) (id : SubscriptionId) (f : Subscription → Subscription) : Registry :=
  r.change fun s => if s.id = id then f s else s

/-- The subscription with this id, if its handle is held. -/
def find? (r : Registry) (id : SubscriptionId) : Option Subscription :=
  r.subscriptions.find? fun s => s.id = id && s.held

/-- The number of entries. -/
def count (r : Registry) : Nat :=
  r.subscriptions.countP (·.registered)

/-! ## Coming and going -/

/-- A new subscription. -/
def subscribe (r : Registry) (tied : Bool) : SubscriptionId × Registry :=
  let s : Subscription := ⟨r.nextId, tied, true, true, []⟩
  (r.nextId, { r with nextId := r.nextId + 1, subscriptions := r.subscriptions ++ [s] })

/-- Takes an entry out.  Unknown ids change nothing. -/
def unsubscribe (r : Registry) (id : SubscriptionId) : Registry :=
  r.changeAt id Subscription.unsubscribe

/-- Gives a handle up. -/
def discard (r : Registry) (id : SubscriptionId) : Registry :=
  r.changeAt id Subscription.discard

/-! ## Events -/

/-- Offers an event to every entry. -/
def broadcast (r : Registry) (e : ChangeEvent) : BroadcastStats × Registry :=
  let outcomes := r.subscriptions.map (Subscription.offer r.capacity)
  (⟨outcomes.count .delivered, outcomes.count .dropped, outcomes.count .pruned⟩,
    r.change (Subscription.afterOffer r.capacity e))

/-- Takes the oldest event out of a queue.  `none` when the handle is not held. -/
def receive (r : Registry) (id : SubscriptionId) : Option Received × Registry :=
  match r.find? id with
  | none => (none, r)
  | some s =>
    match s.queue with
    | e :: rest => (some (.event e), r.changeAt id fun s => { s with queue := rest })
    | [] => (some (if s.registered then .empty else .disconnected), r)

/-- Takes everything out of a queue. -/
def drain (r : Registry) (id : SubscriptionId) : Option (List ChangeEvent) × Registry :=
  ((r.find? id).map (·.queue), r.changeAt id fun s => { s with queue := [] })

/-- How many events are queued. -/
def pending (r : Registry) (id : SubscriptionId) : Option Nat :=
  (r.find? id).map (·.queue.length)

/-! ## Commands -/

/-- What can be asked of a registry. -/
inductive Command where
  | subscribe (tied : Bool)
  | unsubscribe (id : SubscriptionId)
  | discard (id : SubscriptionId)
  | broadcast (e : ChangeEvent)
  | receive (id : SubscriptionId)
  | drain (id : SubscriptionId)
  | pending (id : SubscriptionId)
  | count
  | capacity
deriving DecidableEq

/-- What it answers. -/
inductive Reply where
  | subscribed (id : SubscriptionId)
  | entries (n : Nat)
  | discarded
  | broadcast (stats : BroadcastStats)
  | received (r : Received)
  | drained (es : List ChangeEvent)
  | queued (n : Nat)
  | capacity (n : Nat)
  | noHandle
deriving DecidableEq

/-- Carries one command out. -/
def perform (r : Registry) : Command → Reply × Registry
  | .subscribe tied => let (id, r) := r.subscribe tied; (.subscribed id, r)
  | .unsubscribe id => let r := r.unsubscribe id; (.entries r.count, r)
  | .discard id => if (r.find? id).isSome then (.discarded, r.discard id) else (.noHandle, r)
  | .broadcast e => let (stats, r) := r.broadcast e; (.broadcast stats, r)
  | .receive id => let (x, r) := r.receive id; (x.elim .noHandle .received, r)
  | .drain id => let (x, r) := r.drain id; (x.elim .noHandle .drained, r)
  | .pending id => ((r.pending id).elim .noHandle .queued, r)
  | .count => (.entries r.count, r)
  | .capacity => (.capacity r.capacity, r)

/-! ## Counting a broadcast -/

theorem broadcast_total (r : Registry) (e : ChangeEvent) :
    (r.broadcast e).1.delivered + (r.broadcast e).1.dropped + (r.broadcast e).1.pruned =
      r.count := by
  simp only [broadcast, count]
  induction r.subscriptions with
  | nil => rfl
  | cons s rest ih =>
    simp only [List.map_cons, List.count_cons, List.countP_cons, Subscription.offer] at ih ⊢
    rw [← ih]
    cases s.registered
    · simp
    · cases s.held
      · simp
        omega
      · by_cases hq : s.queue.length < r.capacity
        · simp [hq]
          omega
        · simp [hq]
          omega

end Registry

end LiveDiagram
