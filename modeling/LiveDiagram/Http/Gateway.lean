import LiveDiagram.Download.Attachment
import LiveDiagram.Document.EventStream
import LiveDiagram.Files.Preferences

/-!
# The gateway

The document, the preferences and the download echo are reached over HTTP.  A request is told apart
by its exact method and by its path, which is the address up to the first question mark; only a
download looks at what stands behind it.

`handle` answers one request and gives the gateway as it is afterwards.  A request for the change
stream is answered by the stream itself (`EventStream`), which has subscribed by then and has still to
send its head.  Once the gateway has been told to stop, requests that still arrive are turned away.

## Main results

* `handle_triggered`: a gateway that was told to stop turns every request away, unchanged.
-/

namespace LiveDiagram

/-! ## Requests and responses -/

/-- A request, as far as it matters here. -/
structure Request where
  method : String
  url : String
  body : Bytes
deriving DecidableEq

/-- The address up to the first question mark. -/
def Request.path (r : Request) : String :=
  String.ofList (r.url.toList.takeWhile (· != '?'))

/-- The address behind the first question mark. -/
def Request.query (r : Request) : String :=
  String.ofList ((r.url.toList.dropWhile (· != '?')).drop 1)

/-- A response. -/
structure Response where
  status : Nat
  contentType : Option String
  disposition : Option String
  body : Bytes
deriving DecidableEq

namespace Response

/-- A status alone. -/
def ofStatus (status : Nat) : Response := ⟨status, none, none, []⟩

/-- Text in JSON. -/
def json (body : Bytes) : Response := ⟨200, some "application/json", none, body⟩

/-- Plain text. -/
def text (status : Nat) (message : String) : Response :=
  ⟨status, some "text/plain; charset=utf-8", none, Utf8.encode message⟩

/-- The report of a failure. -/
def failure (e : Error) : Response := text e.status e.message

/-- The value of a header, if it is accepted as one. -/
def headerValue (accepts : String → Bool) (name value : String) : Except Error String :=
  if accepts value then .ok value else .error (.invalidRequest ("invalid header value for " ++ name))

/-- A file to be saved, if its headers can be made. -/
def offer (accepts : String → Bool) (d : Download) : Response :=
  match headerValue accepts "Content-Type" d.contentType,
      headerValue accepts "Content-Disposition" d.disposition with
  | .error e, _ | .ok _, .error e => failure e
  | .ok contentType, .ok disposition => ⟨200, some contentType, some disposition, d.body⟩

/-- Whether a text can be the value of a header: it is ASCII. -/
def isHeaderText (s : String) : Bool :=
  s.toList.all Download.isAscii

/-- What reaches the client: some responses go without their body. -/
def delivered (r : Response) (method : String) : Response :=
  if method = "HEAD" ∨ r.status = 204 then { r with body := [] } else r

end Response

/-- What a request is answered with. -/
inductive Answer where
  | response (r : Response)
  /-- The change stream, over this subscription. -/
  | stream (id : SubscriptionId)
deriving DecidableEq

/-! ## Routes -/

/-- What a request asks for. -/
inductive Route where
  | readDocument
  | writeDocument
  | listen
  | readPreferences
  | writePreferences
  | download
  | quit
  | wrongMethod
  | unknown
deriving DecidableEq

/-- The one method or the two of a path, or nothing for other paths. -/
def Route.ofPath? (path : String) : Option (List (String × Route)) :=
  if path = "/api/diagram" then some [("GET", .readDocument), ("PUT", .writeDocument)]
  else if path = "/api/events" then some [("GET", .listen)]
  else if path = "/api/preferences" then
    some [("GET", .readPreferences), ("PUT", .writePreferences)]
  else if path = "/api/download" then some [("POST", .download)]
  else if path = "/api/quit" then some [("POST", .quit)]
  else none

/-- What a request asks for. -/
def Request.route (r : Request) : Route :=
  match Route.ofPath? r.path with
  | none => .unknown
  | some methods => (methods.lookup r.method).getD .wrongMethod

/-! ## Handling -/

/-- The state of a gateway: the document, the files and whether it was told to stop. -/
structure Gateway where
  store : Store
  files : FileTree
  preferences : Preferences
  triggered : Bool

namespace Gateway

/-- A gateway that was just started. -/
def new (store : Store) (files : FileTree) (stateDirectory : Path) : Gateway :=
  ⟨store, files, ⟨stateDirectory⟩, false⟩

/-- Replaces the document, if the body says how. -/
def writeDocument (g : Gateway) (body : Bytes) : Response × Gateway :=
  match WriteRequest.parse body with
  | .error e => (.failure (.invalidJson e), g)
  | .ok w =>
    let (version, store) := g.store.apply w
    (.json (WriteReceipt.write ⟨version⟩), { g with store })

/-- The stored preferences, or none if they cannot be read. -/
def readPreferences (g : Gateway) : Response :=
  match g.preferences.loadRaw g.files with
  | .ok data => .json data
  | .error _ => .json Preferences.unsaved

/-- Replaces the preferences, if the body holds an object. -/
def writePreferences (g : Gateway) (body : Bytes) : Response × Gateway :=
  let (saved, files) := g.preferences.saveRaw g.files body
  let response : Response :=
    match saved with
    | .ok () => .ofStatus 204
    | .error (.invalidJson e) => .failure (.invalidJson e)
    | .error _ => .text 500 "failed to save preferences"
  (response, { g with files })

/-- Hands a posted file back.  Fields of the body count before those of the address. -/
def download (r : Request) : Response :=
  match Download.ofForms [r.body, Utf8.encode r.query] with
  | .ok d => .offer Response.isHeaderText d
  | .error f => .failure (.invalidDownload f.message)

/-- Answers one request. -/
def handle (g : Gateway) (r : Request) : Answer × Gateway :=
  if g.triggered then (.response (.ofStatus 503), g)
  else
    match r.route with
    | .readDocument => (.response (.json g.store.snapshot.write), g)
    | .writeDocument => let (x, g) := g.writeDocument r.body; (.response x, g)
    | .listen => let (id, store) := g.store.subscribe; (.stream id, { g with store })
    | .readPreferences => (.response g.readPreferences, g)
    | .writePreferences => let (x, g) := g.writePreferences r.body; (.response x, g)
    | .download => (.response (download r), g)
    | .quit => (.response (.ofStatus 204), { g with triggered := true })
    | .wrongMethod => (.response (.text 405 "405 Method Not Allowed"), g)
    | .unknown => (.response (.text 404 "404 Not Found"), g)

theorem handle_triggered {g : Gateway} (h : g.triggered = true) (r : Request) :
    g.handle r = (.response (.ofStatus 503), g) := by
  simp [handle, h]

end Gateway

end LiveDiagram
