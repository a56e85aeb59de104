import LiveDiagram.Editor.Program

/-!
# The program on a system

`Program` says what a start does to a world that is in plain sight.  A process sees no such thing: it
asks its system for one small thing after another, and goes by the answers.  Here the program is
written over what it asks for, so that it can be run on any system; on the world of `Program` it does
what is said there.

Whatever fails once the lock is there, the port is taken away and the lock given up before the process
ends.
-/

namespace LiveDiagram.Program

/-- What a process asks of its system.  It holds open files by handles, and listens by listeners. -/
structure System (m : Type → Type) (Handle Listener : Type) where
  makeDirectory : Path → m (Except FileError Unit)
  isDirectory : Path → m Bool
  /-- Opens a file, which is made if there is none. -/
  openFile : Path → m (Except FileError Handle)
  /-- Locks an open file, unless it is locked. -/
  lock : Handle → m Bool
  unlock : Handle → m Unit
  readFile : Path → m (Except FileError Bytes)
  writeFile : Path → Bytes → m (Except FileError Unit)
  removeFile : Path → m (Except FileError Unit)
  /-- Listens on a port of a host; the port that was bound. -/
  listen : String → UInt16 → m (Except String (Listener × UInt16))
  /-- Sends a request to an address, which the editor at a base address answers. -/
  exchange : (base : String) → Url → Request → m (Except Forward.Obstacle Response)
  /-- Writes to the standard output. -/
  say : String → m Unit
  /-- Writes to the standard error output. -/
  complain : String → m Unit

/-- What an editor holds while it serves. -/
structure Owner (Handle Listener : Type) where
  settings : Settings
  lock : Handle
  listener : Listener
  address : SocketAddress

/-- How a start goes. -/
inductive Start (Handle Listener : Type) where
  | exited (code : Nat)
  | serving (o : Owner Handle Listener)

namespace System

variable {m : Type → Type} {Handle Listener : Type} [Monad m] (k : System m Handle Listener)

/-- Ends the process after a failure. -/
def fail (report : String) : m (Start Handle Listener) := do
  k.complain report
  return .exited 1

/-! ## Directories -/

/-- What comes of making a directory, unless it is there. -/
def settle (p : Path) : Except FileError Unit → m (Except FileError Unit)
  | .ok () => return .ok ()
  | .error e => do
    if ← k.isDirectory p then
      return .ok ()
    return .error e

/-- Makes the first directory of a list, of which each lies in the next.  The others are made as far
as they are missed. -/
def makeInnermost : List Path → m (Except FileError Unit)
  | [] => return .ok ()
  | p :: outer => do
    match ← k.makeDirectory p with
    | .error .notFound =>
      match ← makeInnermost outer with
      | .ok () => k.settle p (← k.makeDirectory p)
      | .error e => return .error e
    | made => k.settle p made

/-- Makes a directory and every one missing on the way to it. -/
def makeDirectories (p : Path) : m (Except FileError Unit) :=
  k.makeInnermost (p :: p.above)

/-! ## The state directory -/

/-- Tries to lock a state directory; nothing if someone else holds its lock. -/
def tryLock (directory : Path) : m (Except Error (Option Handle)) := do
  match ← k.makeDirectories directory with
  | .error e => return .error (.io e)
  | .ok () =>
    match ← k.openFile (Instance.lockPath directory) with
    | .error e => return .error (.io e)
    | .ok handle =>
      if ← k.lock handle then
        return .ok (some handle)
      return .ok none

/-- The port that was published in a directory. -/
def publishedPort? (directory : Path) : m (Option UInt16) := do
  return (← k.readFile (Instance.portPath directory)).toOption.bind Instance.portOfFile?

/-- Gives the lock up: first the published port goes, then the lock. -/
def release (directory : Path) (lock : Handle) : m Unit := do
  let _ ← k.removeFile (Instance.portPath directory)
  k.unlock lock

/-! ## Beside a running editor -/

/-- Sends a document to the editor at an address. -/
def push (url content : String) : m (Except Error Version) := do
  match Forward.target url with
  | .error fault => return .error (.forward fault.message)
  | .ok u => return Forward.outcome u (← k.exchange url u (Forward.request u content))

/-- A start beside a running editor. -/
def join (url content : String) : m (Start Handle Listener) := do
  k.say (runningLine url)
  if content = "" then
    return .exited 0
  match ← k.push url content with
  | .ok _ => return .exited 0
  | .error e => k.fail (report e)

/-! ## As the editor -/

/-- Listens on the first port that can be had; the reason why the last one could not. -/
def listenOnFirst (host reason : String) : List UInt16 → m (Except String (Listener × UInt16))
  | [] => return .error reason
  | port :: rest => do
    match ← k.listen host port with
    | .ok bound => return .ok bound
    | .error reason => listenOnFirst host reason rest

/-- Listens on an address or a little above it. -/
def bind (address : SocketAddress) : m (Except Error (Listener × SocketAddress)) := do
  match ← k.listenOnFirst address.host "" (Ports.candidates address.port) with
  | .ok (listener, port) => return .ok (listener, { address with port })
  | .error reason => return .error (.bind address reason)

/-- A start as the owner of the state directory. -/
def serve (settings : Settings) (lock : Handle) : m (Start Handle Listener) := do
  let directory := Path.ofText settings.stateDirectory
  match ← k.bind settings.address with
  | .error e =>
    k.release directory lock
    k.fail (report e)
  | .ok (listener, address) =>
    match ← k.writeFile (Instance.portPath directory) (Decimal.numeral address.port.toNat) with
    | .error e =>
      k.release directory lock
      k.fail (report (.io e))
    | .ok () =>
      k.say (servingLine address)
      return .serving ⟨settings, lock, listener, address⟩

/-- The end of an editor that was told to stop. -/
def stop (o : Owner Handle Listener) : m Unit := do
  k.release (Path.ofText o.settings.stateDirectory) o.lock
  k.say stoppedLine

/-! ## Starting -/

/-- Starts the program with settings. -/
def begin (settings : Settings) : m (Start Handle Listener) := do
  let directory := Path.ofText settings.stateDirectory
  match ← k.tryLock directory with
  | .error e => k.fail (report e)
  | .ok (some lock) => k.serve settings lock
  | .ok none =>
    match ← k.publishedPort? directory with
    | some port => k.join (Instance.url port) settings.initialContent
    | none => k.fail (report .locked)

/-- Starts the program with options. -/
def launch (o : Options) (defaultStateDirectory : String) : m (Start Handle Listener) := do
  match o.file with
  | none => k.begin (o.settings "" defaultStateDirectory)
  | some file =>
    match documentOf (← k.readFile (Path.ofText file)) with
    | .error reason => k.fail (reportUnreadable file reason)
    | .ok content => k.begin (o.settings content defaultStateDirectory)

/-- Starts the program with arguments. -/
def run (arguments : List String) (defaultStateDirectory : String) : m (Start Handle Listener) := do
  match CommandLine.parse arguments with
  | .start o => k.launch o defaultStateDirectory
  | .help =>
    k.say CommandLine.helpText
    return .exited 0
  | .version =>
    k.say CommandLine.versionText
    return .exited 0
  | .wrong =>
    k.complain CommandLine.wrongText
    return .exited 2

end System

end LiveDiagram.Program
