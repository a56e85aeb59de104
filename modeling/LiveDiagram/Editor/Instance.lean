import LiveDiagram.Decimal.Digits
import LiveDiagram.Files.Tree

/-!
# One instance per state directory

The first process to lock the lock file of a state directory owns the document and publishes its
port there.  A later one finds the lock held and reads the port to reach the owner.

A lock is held on an open file and goes with the process that holds it.  An orderly release also
takes the published port away; a killed process leaves it behind.
-/

namespace LiveDiagram

open LiveDiagram.Ascii

/-- The file tree and the files in it that are locked. -/
structure Disk where
  files : FileTree
  locked : List FileNumber
deriving DecidableEq

/-- An empty disk. -/
def Disk.empty : Disk := ⟨.empty, []⟩

/-- Held by the process that owns a state directory. -/
structure InstanceLock where
  file : FileNumber
  portPath : Path
deriving DecidableEq

/-- The outcome of trying to own a state directory. -/
inductive Claim where
  | owned (lock : InstanceLock)
  /-- Someone else does, and answers at this address. -/
  | running (url : String)
deriving DecidableEq

namespace Instance

/-- The name of the file that is locked. -/
def lockName : String := "instance.lock"

/-- The name of the file that holds the port. -/
def portName : String := "port"

/-- The file that is locked. -/
def lockPath (directory : Path) : Path :=
  directory.entry lockName

/-- The file that holds the port. -/
def portPath (directory : Path) : Path :=
  directory.entry portName

/-! ## The published port -/

/-- A blank of any script. -/
def isBlank (c : Char) : Bool :=
  let n := c.toNat
  (0x09 ≤ n && n ≤ 0x0D) || n == 0x20 || n == 0x85 || n == 0xA0 || n == 0x1680 ||
    (0x2000 ≤ n && n ≤ 0x200A) || n == 0x2028 || n == 0x2029 || n == 0x202F || n == 0x205F ||
    n == 0x3000

/-- A text without the blanks around it. -/
def trim (s : List Char) : List Char :=
  ((s.dropWhile isBlank).reverse.dropWhile isBlank).reverse

/-- A port in digits, with or without a plus sign. -/
def port? (s : Bytes) : Option UInt16 :=
  let digits :=
    match s with
    | [] => []
    | b :: rest => if b = plus then rest else b :: rest
  ((Decimal.read? digits).filter (· < UInt16.size)).map UInt16.ofNat

/-- The port that the bytes of a port file say. -/
def portOfFile? (data : Bytes) : Option UInt16 :=
  (Utf8.decode? data).bind fun s => port? (Utf8.encode (String.ofList (trim s.toList)))

/-- The port that was published in a directory. -/
def publishedPort? (t : FileTree) (directory : Path) : Option UInt16 :=
  (t.read (portPath directory)).toOption.bind portOfFile?

/-- Where a process on this machine that listens on a port is reached. -/
def url (port : UInt16) : String :=
  "http://127.0.0.1:" ++ port.toNat.repr

/-! ## Owning a directory -/

/-- Tries to lock a state directory; nothing if someone else holds its lock. -/
def tryLock (d : Disk) (directory : Path) : Except Error (Option InstanceLock) × Disk :=
  match d.files.makeDirectories directory with
  | (.error e, files) => (.error (.io e), { d with files })
  | (.ok (), files) =>
    match files.openFile (lockPath directory) with
    | .error e => (.error (.io e), { d with files })
    | .ok ((_, file), files) =>
      if file ∈ d.locked then (.ok none, { d with files })
      else (.ok (some ⟨file, portPath directory⟩), ⟨files, file :: d.locked⟩)

/-- Where the holder of the lock is, by what it has published. -/
def locate (d : Disk) (directory : Path) : Except Error Claim :=
  match publishedPort? d.files directory with
  | some port => .ok (.running (url port))
  | none => .error .locked

/-- Tries to own a state directory, and looks for its owner if there is one. -/
def claim (d : Disk) (directory : Path) : Except Error Claim × Disk :=
  match tryLock d directory with
  | (.error e, d) => (.error e, d)
  | (.ok (some lock), d) => (.ok (.owned lock), d)
  | (.ok none, d) => (locate d directory, d)

/-- Publishes the port of the owner. -/
def publish (d : Disk) (lock : InstanceLock) (port : UInt16) : Except Error Unit × Disk :=
  match d.files.write lock.portPath (Decimal.numeral port.toNat) with
  | .error e => (.error (.io e), d)
  | .ok files => (.ok (), { d with files })

/-- Gives the lock up without tidying, as happens when its owner is killed. -/
def abandon (d : Disk) (lock : InstanceLock) : Disk :=
  { d with locked := d.locked.erase lock.file }

/-- Takes the published port away. -/
def withdraw (d : Disk) (lock : InstanceLock) : Disk :=
  match d.files.remove lock.portPath with
  | .error _ => d
  | .ok files => { d with files }

/-- Gives the lock up: first the published port goes, then the lock. -/
def release (d : Disk) (lock : InstanceLock) : Disk :=
  abandon (withdraw d lock) lock

end Instance

end LiveDiagram
