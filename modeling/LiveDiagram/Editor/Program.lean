import LiveDiagram.Editor.CommandLine
import LiveDiagram.Editor.Forward
import LiveDiagram.Editor.Instance

/-!
# The program

Starting the program has one of two outcomes.  If nobody owns the state directory the process becomes
the editor: it listens, publishes its port and serves until it is told to stop.  Otherwise it tells
where the editor is, sends it the document if one was given, and ends.

The lock of an editor goes with it on every way out.
-/

namespace LiveDiagram

/-- A running editor. -/
structure Editor where
  gateway : Gateway
  lock : InstanceLock
  address : SocketAddress

/-- What a process meets on its machine. -/
structure World where
  disk : Disk
  ports : Ports
  /-- Whether this machine can connect to itself. -/
  loopback : Except Forward.Connection Unit
  /-- The editors that run, latest first. -/
  editors : List Editor

/-- How a start of the program goes. -/
inductive Launch where
  | exited (code : Nat) (output errors : String)
  | serving (e : Editor) (output : String)

namespace Program

/-- The last words of a process that fails. -/
def report (e : Error) : String :=
  let cause :=
    match e with
    | .io cause => "\n\nCaused by:\n    " ++ cause.message
    | .invalidJson cause => "\n\nCaused by:\n    " ++ cause.message
    | _ => ""
  "Error: " ++ e.message ++ cause ++ "\n"

/-- The last words of a process that cannot read its file. -/
def reportUnreadable (file reason : String) : String :=
  "Error: Cannot read " ++ file ++ "\n\nCaused by:\n    " ++ reason ++ "\n"

/-- The document in the bytes of a file, or why there is none. -/
def documentOf (data : Except FileError Bytes) : Except String String :=
  match data with
  | .error e => .error e.message
  | .ok data =>
    match Utf8.decode? data with
    | some s => .ok s
    | none => .error "stream did not contain valid UTF-8"

/-- The document in a file, or why there is none. -/
def readDocument (t : FileTree) (file : String) : Except String String :=
  documentOf (t.read (Path.ofText file))

/-! ## Beside a running editor -/

/-- What stands between a process and the editor at an address. -/
def connection (w : World) (url : String) : Except Forward.Connection Editor :=
  match w.loopback with
  | .error why => .error why
  | .ok () =>
    match w.editors.find? fun e => e.address.url = url with
    | some e => .ok e
    | none => .error .refused

/-- Replaces an editor after it has answered. -/
def updateEditor (w : World) (e : Editor) : World :=
  { w with
    disk := { w.disk with files := e.gateway.files }
    editors := w.editors.map fun x => if x.lock = e.lock then e else x }

/-- One request to an editor, which sees the files as they are now. -/
def request (w : World) (e : Editor) (r : Request) : Answer × World :=
  let (answer, gateway) := { e.gateway with files := w.disk.files }.handle r
  (answer, updateEditor w { e with gateway })

/-- Sends a document to the editor at an address. -/
def push (w : World) (url content : String) : Except Error Version × World :=
  match Forward.target url with
  | .error fault => (.error (.forward fault.message), w)
  | .ok u =>
    match connection w url with
    | .error why => (Forward.outcome u (.error (.notConnected why)), w)
    | .ok e =>
      match request w e (Forward.request u content) with
      | (.response r, w) => (Forward.outcome u (.ok r), w)
      | (.stream _, w) => (Forward.outcome u (.ok (.ofStatus 200)), w)

/-- The line that tells where the editor is. -/
def runningLine (url : String) : String :=
  "Already running at " ++ url ++ "\n"

/-- A start beside a running editor. -/
def join (w : World) (url content : String) : Launch × World :=
  if content = "" then (.exited 0 (runningLine url) "", w)
  else
    match push w url content with
    | (.ok _, w) => (.exited 0 (runningLine url) "", w)
    | (.error e, w) => (.exited 1 (runningLine url) (report e), w)

/-! ## As the editor -/

/-- The line that tells where this editor is. -/
def servingLine (a : SocketAddress) : String :=
  "MermAId Editor running at " ++ a.url ++ "\n"

/-- The line of an editor that was told to stop. -/
def stoppedLine : String := "Stopped.\n"

/-- The gateway of an editor that begins to serve. -/
def gateway (settings : Settings) (files : FileTree) : Gateway :=
  .new (.new settings.initialContent settings.subscriberBuffer) files
    (Path.ofText settings.stateDirectory)

/-- A start as the owner of the state directory. -/
def serve (w : World) (settings : Settings) (lock : InstanceLock) : Launch × World :=
  match w.ports.bind settings.address with
  | .error e => (.exited 1 "" (report e), { w with disk := Instance.release w.disk lock })
  | .ok address =>
    match Instance.publish w.disk lock address.port with
    | (.error e, disk) => (.exited 1 "" (report e), { w with disk := Instance.release disk lock })
    | (.ok (), disk) =>
      let e : Editor := ⟨gateway settings disk.files, lock, address⟩
      (.serving e (servingLine address), { w with disk, editors := e :: w.editors })

/-- The end of an editor that was told to stop; what it says. -/
def stop (w : World) (e : Editor) : String × World :=
  (stoppedLine,
    { w with
      disk := Instance.release w.disk e.lock
      editors := w.editors.filter fun x => x.lock ≠ e.lock })

/-! ## Starting -/

/-- Starts the program with settings. -/
def begin (w : World) (settings : Settings) : Launch × World :=
  match Instance.claim w.disk (Path.ofText settings.stateDirectory) with
  | (.error e, disk) => (.exited 1 "" (report e), { w with disk })
  | (.ok (.running url), disk) => join { w with disk } url settings.initialContent
  | (.ok (.owned lock), disk) => serve { w with disk } settings lock

/-- Starts the program with options. -/
def launch (w : World) (o : Options) (defaultStateDirectory : String) : Launch × World :=
  match o.file with
  | none => begin w (o.settings "" defaultStateDirectory)
  | some file =>
    match readDocument w.disk.files file with
    | .error reason => (.exited 1 "" (reportUnreadable file reason), w)
    | .ok content => begin w (o.settings content defaultStateDirectory)

/-- Starts the program with arguments. -/
def run (w : World) (arguments : List String) (defaultStateDirectory : String) : Launch × World :=
  match CommandLine.parse arguments with
  | .start o => launch w o defaultStateDirectory
  | .help => (.exited 0 CommandLine.helpText "", w)
  | .version => (.exited 0 CommandLine.versionText "", w)
  | .wrong => (.exited 2 "" CommandLine.wrongText, w)

end Program

end LiveDiagram
