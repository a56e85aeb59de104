import LiveDiagram.Document.Store

/-!
# The change stream

A client that listens gets a head and then one frame for each event, for as long as it stays.
While nothing happens it gets a comment from time to time, which shows that the connection is
alive.

A stream is served step by step, and anything may happen between two steps: others write, take its
entry out of the registry or cancel it.  It subscribes; then it sends its head, by as many calls as
the connection needs to take all of it, and a flush; and then it looks for what is ready, sends that,
and looks again.  However it ends, its last step is to release its subscription.

Since subscribing is the first step, nothing that is announced once the client has seen a byte of the
head passes the stream's queue by.

`Stage` is how far a stream has come, `Stage.perform` makes the step that is due, over whatever host
serves it, and `Stage.after` says where that step leads.
-/

namespace LiveDiagram.EventStream

open LiveDiagram.Ascii

/-! ## Frames -/

/-- The head of the response. -/
def head : Bytes :=
  Utf8.encode ("HTTP/1.1 200 OK\r\nContent-Type: text/event-stream\r\n" ++
    "Cache-Control: no-cache\r\nConnection: close\r\n\r\n")

/-- A comment that carries nothing. -/
def keepAlive : Bytes :=
  Utf8.encode ": keep-alive\n\n"

/-- The message that carries this text. -/
def message (text : Bytes) : Bytes :=
  Utf8.encode "data: " ++ text ++ [lineFeed, lineFeed]

/-- The message of an event, if the event can be written. -/
def frame (e : ChangeEvent) : Except String Bytes :=
  e.toJson.encode.map message

/-! ## Steps -/

/-- Why a stream ended. -/
inductive StreamEnd where
  /-- The client is gone. -/
  | disconnected
  /-- The stream was cancelled. -/
  | shutdown
  /-- Someone took the entry out of the registry. -/
  | unsubscribed
deriving DecidableEq

/-- What a stream finds when it looks. -/
inductive Wake where
  | event (e : ChangeEvent)
  | unsubscribed
  | cancelled
  /-- Nothing was ready until the next comment was due. -/
  | nothing
deriving DecidableEq

/-- Looks for what is ready, and takes an event out of the queue if it serves one.  `cancelFirst`
says that cancellation is served before anything else that is ready. -/
def look (s : Store) (id : SubscriptionId) (cancelled cancelFirst : Bool) : Wake × Store :=
  if cancelled && cancelFirst then (.cancelled, s)
  else
    match s.registry.receive id with
    | (some (.event e), registry) => (.event e, { s with registry })
    | (some .empty, _) => (if cancelled then .cancelled else .nothing, s)
    | _ => (.unsubscribed, s)

/-- A step of a stream, with what came of it. -/
inductive Step where
  | subscribed (id : SubscriptionId)
  /-- One call to write took so many bytes; none if it failed. -/
  | wrote (n : Nat)
  | flushed (done : Bool)
  /-- An event was taken out of the queue, to be sent as this block. -/
  | took (id : SubscriptionId) (e : ChangeEvent) (block : Bytes)
  /-- An event was taken out of the queue that cannot be written, for this reason. -/
  | skipped (id : SubscriptionId) (e : ChangeEvent) (reason : String)
  /-- Nothing was ready, and a comment is due. -/
  | idled
  /-- The entry was found to be gone. -/
  | dismissed
  /-- The stream was found to be cancelled. -/
  | stopped
  | released (id : SubscriptionId)
deriving DecidableEq

/-- What a stream makes of what it finds. -/
def Wake.step (id : SubscriptionId) : Wake → Step
  | .event e =>
    match frame e with
    | .ok block => .took id e block
    | .error reason => .skipped id e reason
  | .unsubscribed => .dismissed
  | .cancelled => .stopped
  | .nothing => .idled

/-- How far a stream has come. -/
inductive Stage where
  /-- It has still to subscribe. -/
  | opening
  /-- These bytes of a block are still to be written, and then it has still to flush. -/
  | sending (id : SubscriptionId) (rest : Bytes)
  /-- All is sent, and it looks for what is ready. -/
  | waiting (id : SubscriptionId)
  /-- It is over, and has still to release its subscription. -/
  | leaving (id : SubscriptionId) (why : StreamEnd)
  | ended (id : SubscriptionId) (why : StreamEnd)
deriving DecidableEq

/-- Where a step leads. -/
def Stage.after : Stage → Step → Stage
  | .opening, .subscribed id => .sending id head
  | .sending id rest, .wrote n =>
    if n = 0 then .leaving id .disconnected else .sending id (rest.drop n)
  | .sending id _, .flushed done => if done then .waiting id else .leaving id .disconnected
  | .waiting id, .took _ _ block => .sending id block
  | .waiting id, .skipped _ _ _ => .waiting id
  | .waiting id, .idled => .sending id keepAlive
  | .waiting id, .dismissed => .leaving id .unsubscribed
  | .waiting id, .stopped => .leaving id .shutdown
  | .leaving id why, .released _ => .ended id why
  | stage, _ => stage

/-- What a stream needs of those who serve it. -/
structure Host (m : Type → Type) where
  subscribe : m SubscriptionId
  /-- One call to write; how many bytes were taken, or none if it failed. -/
  write : Bytes → m Nat
  /-- Whether a flush was done. -/
  flush : m Bool
  /-- Waits until something is ready or a comment is due. -/
  look : SubscriptionId → m Wake
  release : SubscriptionId → m Unit

/-- The step that is due; there is none at the end. -/
def Stage.perform {m : Type → Type} [Monad m] (h : Host m) : Stage → m (Option Step)
  | .opening => do return some (.subscribed (← h.subscribe))
  | .sending _ rest =>
    if rest = [] then do return some (.flushed (← h.flush))
    else do return some (.wrote (← h.write rest))
  | .waiting id => do return some ((← h.look id).step id)
  | .leaving id _ => do
    h.release id
    return some (.released id)
  | .ended _ _ => return none

/-! ## A store and a connection -/

/-- A connection that takes bytes until something fails. -/
structure Connection where
  /-- How many more bytes are taken; without end if `none`. -/
  room : Option Nat
  /-- The most bytes that each call takes, counting calls from zero; zero makes a call fail. -/
  limit : Nat → Option Nat
  /-- Whether a flush fails, counting from zero. -/
  flushFails : Nat → Bool
  /-- The bytes taken. -/
  received : Bytes
  /-- The calls made to write. -/
  writes : Nat
  /-- The flushes tried. -/
  flushes : Nat

namespace Connection

/-- How many of `n` bytes the next call takes. -/
def accepts (c : Connection) (n : Nat) : Nat :=
  min ((c.limit c.writes).getD n) (min (c.room.getD n) n)

/-- One call to write; how many bytes it took. -/
def write (c : Connection) (b : Bytes) : Nat × Connection :=
  let n := c.accepts b.length
  (n,
    { c with
      room := c.room.map (· - n)
      received := c.received ++ b.take n
      writes := c.writes + 1 })

/-- Flushes; whether that succeeded. -/
def flush (c : Connection) : Bool × Connection :=
  (!c.flushFails c.flushes, { c with flushes := c.flushes + 1 })

end Connection

/-- What a stream is served from and over. -/
structure Surroundings where
  store : Store
  connection : Connection
  cancelled : Bool

/-- Serves a stream from a store, over a connection. -/
def Surroundings.host (cancelFirst : Bool) : Host (StateM Surroundings) where
  subscribe := modifyGet fun s =>
    let (id, store) := s.store.subscribe
    (id, { s with store })
  write b := modifyGet fun s =>
    let (n, connection) := s.connection.write b
    (n, { s with connection })
  flush := modifyGet fun s =>
    let (done, connection) := s.connection.flush
    (done, { s with connection })
  look id := modifyGet fun s =>
    let (wake, store) := EventStream.look s.store id s.cancelled cancelFirst
    (wake, { s with store })
  release id := modify fun s => { s with store := s.store.release id }

end LiveDiagram.EventStream
