import LiveDiagram.Http.Message
import LiveDiagram.Editor.System
import Std.Async.TCP

/-!
# The command line

The outer layer: the system that the program runs on, and the connections that its gateway answers.
What is asked of the system, and in which order, is said by `Program.System`; what a stream does next,
by `EventStream.Stage`.

Each request is served by a task of its own; what they share is the gateway behind one reference, and
every change to it is a single step.

The library sees the files of the state directory as a tree.  That tree is read before a request is
handled, and written back when the answer changed it; files that cannot be written are shown to the
gateway as ones that nobody can write.
-/

namespace LiveDiagram.Main

open Std.Async.TCP

/-! ## Files -/

/-- Why an operation on a file failed. -/
def fileError (e : IO.Error) : FileError :=
  match e with
  | .noFileOrDirectory _ _ _ => .notFound
  | .alreadyExists _ _ _ => .exists
  | .inappropriateType _ 20 _ => .notDirectory
  | .inappropriateType _ 21 _ => .isDirectory
  | .invalidArgument _ 36 _ => .nameTooLong
  | e => .other e.toString

/-- An operation on files, with the reason if it fails. -/
def attempt {α : Type} (act : IO α) : IO (Except FileError α) := do
  try
    return .ok (← act)
  catch e =>
    return .error (fileError e)

/-- The bytes of a file. -/
def readFile (p : Path) : IO (Except FileError Bytes) :=
  attempt do
    return (← IO.FS.readBinFile p.text).toList

/-- Replaces the bytes of a file. -/
def writeFile (p : Path) (data : Bytes) : IO (Except FileError Unit) :=
  attempt (IO.FS.writeBinFile p.text ⟨data.toArray⟩)

/-- Makes one directory.  The one that a path without parts leads to is always there. -/
def makeDirectory (p : Path) : IO (Except FileError Unit) :=
  if p.text = "" then return .error .exists else attempt (IO.FS.createDir p.text)

/-- Whether a path leads to a directory: only a directory holds itself under the name of a dot. -/
def isDirectory (p : Path) : IO Bool :=
  if p.text = "" then return true
  else return (← attempt (IO.FS.Handle.mk (p.text ++ "/.") .read)).isOk

/-- A tree in which reading a path has this outcome. -/
def treeOf (p : Path) : Except FileError Bytes → FileTree
  | .ok data =>
    (((FileTree.empty.makeDirectories p.parent).2.write p data).toOption).getD .empty
  | .error .notFound => .empty
  | .error _ => (FileTree.empty.makeDirectories p).2

/-! ## Connections -/

/-- A port of this machine. -/
def loopback (port : UInt16) : Std.Net.SocketAddress :=
  .v4 ⟨.ofParts 127 0 0 1, port⟩

/-- Sends bytes. -/
def send (c : Socket.Client) (b : Bytes) : IO Unit :=
  (c.send ⟨b.toArray⟩).block

/-- The most bytes received at once. -/
def chunkSize : UInt64 := 65536

/-- Receives until a request is there. -/
partial def receiveRequest (c : Socket.Client) (got : Bytes) : IO (Option Request) := do
  match Http.readRequest got with
  | .complete r => return some r
  | .malformed => return none
  | .incomplete =>
    match ← (c.recv? chunkSize).block with
    | none => return none
    | some chunk => receiveRequest c (got ++ chunk.toList)

/-- Receives until the other end closes. -/
partial def receiveAll (c : Socket.Client) (got : Bytes) : IO Bytes := do
  match ← (c.recv? chunkSize).block with
  | none => return got
  | some chunk => receiveAll c (got ++ chunk.toList)

/-! ## Serving -/

/-- A gateway and what serves it. -/
structure Server where
  gateway : IO.Ref Gateway
  /-- The requests being answered. -/
  busy : IO.Ref Nat
  keepAliveMilliseconds : Nat

/-- How long a task rests before it looks again. -/
def restMilliseconds : UInt32 := 10

/-- Answers a request, and keeps what it changed. -/
def answer (s : Server) (r : Request) : IO Answer := do
  let path := (← s.gateway.get).preferences.path
  let files := treeOf path (← readFile path)
  let (answer, changed) ← s.gateway.modifyGet fun g =>
    let (a, g) := { g with files }.handle r
    ((a, g.files), g)
  if changed = files then
    return answer
  match changed.read path with
  | .error _ => return answer
  | .ok data =>
    match ← writeFile path data with
    | .ok () => return answer
    | .error _ =>
      s.gateway.modifyGet fun g =>
        { g with files := treeOf path (.error .isDirectory) }.handle r

/-- Looks for what is ready until something is, or a comment is due at this time. -/
partial def look (s : Server) (id : SubscriptionId) (due : Nat) : IO EventStream.Wake := do
  let wake ← s.gateway.modifyGet fun g =>
    let (wake, store) := EventStream.look g.store id g.triggered false
    (wake, { g with store })
  match wake with
  | .nothing =>
    if due ≤ (← IO.monoMsNow) then
      return .nothing
    IO.sleep restMilliseconds
    look s id due
  | wake => return wake

/-- Serves a stream over a connection.  One call sends all that it is given, or fails. -/
def streamHost (s : Server) (c : Socket.Client) : EventStream.Host IO where
  subscribe := s.gateway.modifyGet fun g =>
    let (id, store) := g.store.subscribe
    (id, { g with store })
  write b := do
    match ← attempt (send c b) with
    | .ok () => return b.length
    | .error _ => return 0
  flush := return true
  look id := do look s id ((← IO.monoMsNow) + s.keepAliveMilliseconds)
  release id := s.gateway.modify fun g => { g with store := g.store.release id }

/-- Serves a stream from the stage that it has come to. -/
partial def serveStream (h : EventStream.Host IO) (stage : EventStream.Stage) : IO Unit := do
  match ← stage.perform h with
  | some step => serveStream h (stage.after step)
  | none => return

/-- Serves one connection. -/
def serveConnection (s : Server) (c : Socket.Client) : IO Unit := do
  match ← receiveRequest c [] with
  | none => return
  | some r =>
    s.busy.modify (· + 1)
    try
      match ← answer s r with
      | .response x => send c (Http.writeResponse r.method x)
      | .stream id =>
        serveStream (streamHost s c) (EventStream.Stage.opening.after (.subscribed id))
      c.shutdown.block
    finally
      s.busy.modify (· - 1)

/-- Accepts connections until the gateway was told to stop and none is left. -/
partial def acceptAll (s : Server) (listener : Socket.Server) : IO Unit := do
  match ← listener.tryAccept with
  | some c =>
    let _ ← IO.asTask (serveConnection s c) .dedicated
    acceptAll s listener
  | none =>
    if (← s.gateway.get).triggered then
      return
    IO.sleep restMilliseconds
    acceptAll s listener

/-- Waits until every request has its answer. -/
partial def finish (s : Server) : IO Unit := do
  if (← s.busy.get) ≠ 0 then
    IO.sleep restMilliseconds
    finish s

/-! ## The system -/

/-- Writes a text, at once. -/
def say (out : IO.FS.Stream) (text : String) : IO Unit := do
  out.putStr text
  out.flush

/-- Listens on a port of this machine; the port that was bound. -/
def listen (port : UInt16) : IO (Except String (Socket.Server × UInt16)) := do
  try
    let listener ← Socket.Server.mk
    listener.bind (loopback port)
    listener.listen 128
    match ← listener.getSockName with
    | .v4 a => return .ok (listener, a.port)
    | .v6 a => return .ok (listener, a.port)
  catch e =>
    match e with
    | .resourceBusy _ _ => return .error Ports.inUse
    | e => return .error e.toString

/-- Why a connection was not made.  Codes of the network layer are negative. -/
def connectionError (e : IO.Error) : Forward.Connection :=
  match e with
  | .noSuchThing _ code _ =>
    if 0 - code = 111 then .refused
    else if 0 - code = 101 then .networkUnreachable
    else .other e.toString
  | e => .other e.toString

/-- Sends a request to a port of this machine. -/
def exchange (port : UInt16) (u : Url) (r : Request) : IO (Except Forward.Obstacle Response) := do
  try
    let c ← Socket.Client.mk
    (c.connect (loopback port)).block
    send c (Http.writeRequest u.serverText r)
    match Http.readResponse? (← receiveAll c []) with
    | some r => return .ok r
    | none => return .error (.notConnected (.other "the connection was closed"))
  catch e =>
    return .error (.notConnected (connectionError e))

/-- The system that this process runs on. -/
def system : Program.System IO IO.FS.Handle Socket.Server where
  makeDirectory := makeDirectory
  isDirectory := isDirectory
  openFile p := attempt (IO.FS.Handle.mk p.text .append)
  lock h := h.tryLock
  unlock h := h.unlock
  readFile := readFile
  writeFile := writeFile
  removeFile p := attempt (IO.FS.removeFile p.text)
  listen _ port := listen port
  exchange _ u r := exchange (u.port.getD 80) u r
  say text := do say (← IO.getStdout) text
  complain text := do say (← IO.getStderr) text

/-- Serves until the gateway is told to stop. -/
def attend (o : Program.Owner IO.FS.Handle Socket.Server) : IO Unit := do
  let gateway := Program.gateway o.settings .empty
  let s : Server := ⟨← IO.mkRef gateway, ← IO.mkRef 0, o.settings.keepAliveMilliseconds⟩
  acceptAll s o.listener
  finish s

end LiveDiagram.Main

/-- Starts the editor, or finds the one that runs. -/
def main (arguments : List String) : IO UInt32 := do
  let home := (← IO.getEnv "HOME").getD ""
  let directory :=
    LiveDiagram.Settings.defaultStateDirectory home (← IO.getEnv "XDG_CACHE_HOME")
  match ← LiveDiagram.Main.system.run arguments directory with
  | .exited code => return code.toUInt32
  | .serving owner =>
    LiveDiagram.Main.attend owner
    LiveDiagram.Main.system.stop owner
    return 0
