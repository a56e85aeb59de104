import LiveDiagram.Document.Registry

/-!
# The shared document

The store holds the text with its version and the registry of those who listen.  A write is two
steps: `commit` replaces the text and counts the version up, and `announce` offers the event to the
registry.  Other operations may come between the two, since the registry is guarded apart from
the text; `set` takes both at once.
-/

namespace LiveDiagram

/-- The document and its listeners. -/
structure Store where
  content : String
  version : Version
  registry : Registry

namespace Store

/-- A document that was never written. -/
def new (initial : String) (buffer : Nat) : Store :=
  ⟨initial, .initial, .empty buffer⟩

/-- Text and version, as one pair. -/
def snapshot (s : Store) : Snapshot :=
  ⟨s.content, s.version⟩

/-! ## Writing -/

/-- Replaces the text under the next version.  The event is still to be announced. -/
def commit (s : Store) (content source : String) : ChangeEvent × Store :=
  let version := s.version.next
  (⟨content, source, version⟩, { s with content, version })

/-- Offers the event of an earlier commit to the registry. -/
def announce (s : Store) (e : ChangeEvent) : Store :=
  { s with registry := (s.registry.broadcast e).2 }

/-- One whole write. -/
def set (s : Store) (content source : String) : Version × Store :=
  let (e, s) := s.commit content source
  (e.version, s.announce e)

/-- Carries out a write that was asked for. -/
def apply (s : Store) (w : WriteRequest) : Version × Store :=
  s.set w.content w.sourceName

/-! ## Listening -/

/-- A new listener, whose subscription goes with its handle. -/
def subscribe (s : Store) : SubscriptionId × Store :=
  let (id, registry) := s.registry.subscribe true
  (id, { s with registry })

/-- Gives a listener's handle up. -/
def release (s : Store) (id : SubscriptionId) : Store :=
  { s with registry := s.registry.discard id }

/-! ## Commands -/

/-- What can be asked of a store. -/
inductive Command where
  | set (content source : String)
  | write (body : Bytes)
  | get
  | version
  | listen (c : Registry.Command)
deriving DecidableEq

/-- What it answers. -/
inductive Reply where
  | written (v : Version)
  | refused (cause : Json.Error)
  | snapshot (s : Snapshot)
  | version (v : Version)
  | listen (r : Registry.Reply)
deriving DecidableEq

/-- Carries one command out. -/
def perform (s : Store) : Command → Reply × Store
  | .set content source => let (v, s) := s.set content source; (.written v, s)
  | .write body =>
    match WriteRequest.parse body with
    | .ok w => let (v, s) := s.apply w; (.written v, s)
    | .error cause => (.refused cause, s)
  | .get => (.snapshot s.snapshot, s)
  | .version => (.version s.version, s)
  | .listen c => let (x, r) := s.registry.perform c; (.listen x, { s with registry := r })

end Store

end LiveDiagram
