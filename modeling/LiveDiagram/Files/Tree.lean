import LiveDiagram.Error
import LiveDiagram.Files.Path
import LiveDiagram.Text.Utf8

/-!
# The file tree

What the program keeps lies in a few small files.  The tree maps places to files and directories;
it does not hold the root, which is always a directory.  A file is known by its number as well as
by its place, because a lock belongs to the file that was opened and not to its name.

A path is followed part by part, and every part is a step from a directory that is there.  An
operation that fails leaves the tree as it was, except that directories may have been made on the
way to one that could not be.

## Main results

* `lookup_put_self`, `lookup_put_ne`, `lookup_erase_self`, `lookup_erase_ne`: how the two changes
  to the tree look from each place.
-/

namespace LiveDiagram

/-- Where something lies: names from the outermost directory to the innermost entry. -/
abbrev Location := List String

/-- Tells one file from every other, whatever becomes of its name. -/
abbrev FileNumber := Nat

/-- What lies in a place. -/
inductive Entry where
  | directory
  | file (number : FileNumber) (data : Bytes)
deriving DecidableEq

/-- Files and directories by place. -/
structure FileTree where
  entries : List (Location × Entry)
  nextNumber : FileNumber
deriving DecidableEq

namespace FileTree

/-- A tree with nothing in it. -/
def empty : FileTree := ⟨[], 0⟩

/-- What lies in a place. -/
def lookup (t : FileTree) (l : Location) : Option Entry :=
  if l = [] then some .directory else t.entries.lookup l

/-- Puts an entry in a place. -/
def put (t : FileTree) (l : Location) (e : Entry) : FileTree :=
  { t with entries := (l, e) :: t.entries.filter fun x => x.1 != l }

/-- Takes away what lies in a place. -/
def erase (t : FileTree) (l : Location) : FileTree :=
  { t with entries := t.entries.filter fun x => x.1 != l }

/-! ## Following a path -/

/-- Where the parts of a path lead from a place.  Each is a step from a directory; the last may lead
to where nothing lies yet. -/
def follow (t : FileTree) (here : Location) : List String → Except FileError Location
  | [] => .ok here
  | part :: rest =>
    match t.lookup here with
    | none => .error .notFound
    | some (.file _ _) => .error .notDirectory
    | some .directory =>
      if Path.isIdle part then t.follow here rest
      else if part = ".." then t.follow here.dropLast rest
      else if Path.nameLimit < part.utf8ByteSize then .error .nameTooLong
      else t.follow (here ++ [part]) rest

/-- Where a path leads from the root. -/
def resolve (t : FileTree) (p : Path) : Except FileError Location :=
  if p.hasNul then .error .nulInName
  else if Path.lengthLimit ≤ p.text.utf8ByteSize then .error .nameTooLong
  else t.follow [] p.parts

/-- What a path leads to, and where that lies. -/
def find (t : FileTree) (p : Path) : Except FileError (Location × Entry) :=
  match t.resolve p with
  | .error e => .error e
  | .ok l =>
    match t.lookup l with
    | none => .error .notFound
    | some e => .ok (l, e)

/-! ## Operations -/

/-- Whether a path leads to anything. -/
def exists? (t : FileTree) (p : Path) : Bool :=
  (t.find p).isOk

/-- Whether a path leads to a directory. -/
def isDirectory (t : FileTree) (p : Path) : Bool :=
  match t.find p with
  | .ok (_, .directory) => true
  | _ => false

/-- The bytes of a file. -/
def read (t : FileTree) (p : Path) : Except FileError Bytes :=
  match t.find p with
  | .error e => .error e
  | .ok (_, .directory) => .error .isDirectory
  | .ok (_, .file _ data) => .ok data

/-- Opens a file, which is made if there is none; where it lies and its number. -/
def openFile (t : FileTree) (p : Path) :
    Except FileError ((Location × FileNumber) × FileTree) :=
  match t.resolve p with
  | .error e => .error e
  | .ok l =>
    match t.lookup l with
    | some .directory => .error .isDirectory
    | some (.file number _) => .ok ((l, number), t)
    | none =>
      .ok ((l, t.nextNumber),
        { t.put l (.file t.nextNumber []) with nextNumber := t.nextNumber + 1 })

/-- Replaces the bytes of a file, which is made if there is none. -/
def write (t : FileTree) (p : Path) (data : Bytes) : Except FileError FileTree :=
  match t.openFile p with
  | .error e => .error e
  | .ok ((l, number), t) => .ok (t.put l (.file number data))

/-- Removes a file. -/
def remove (t : FileTree) (p : Path) : Except FileError FileTree :=
  match t.find p with
  | .error e => .error e
  | .ok (_, .directory) => .error .isDirectory
  | .ok (l, .file _ _) => .ok (t.erase l)

/-- Makes one directory.  Slashes behind its name do not matter. -/
def makeDirectory (t : FileTree) (p : Path) : Except FileError FileTree :=
  match t.resolve ⟨(p.parts.reverse.dropWhile (· = "")).reverse⟩ with
  | .error e => .error e
  | .ok l =>
    match t.lookup l with
    | some _ => .error .exists
    | none => .ok (t.put l .directory)

/-- Makes one directory, unless it is there. -/
def settleDirectory (t : FileTree) (p : Path) : Except FileError Unit × FileTree :=
  match t.makeDirectory p with
  | .ok t => (.ok (), t)
  | .error e => (if t.isDirectory p then .ok () else .error e, t)

/-- Makes the first directory of a list, of which each lies in the next.  The others are made as far
as they are missed. -/
def makeInnermost (t : FileTree) : List Path → Except FileError Unit × FileTree
  | [] => (.ok (), t)
  | p :: outer =>
    match t.makeDirectory p with
    | .error .notFound =>
      match t.makeInnermost outer with
      | (.ok (), t) => t.settleDirectory p
      | failed => failed
    | _ => t.settleDirectory p

/-- Makes a directory and every one missing on the way to it. -/
def makeDirectories (t : FileTree) (p : Path) : Except FileError Unit × FileTree :=
  t.makeInnermost (p :: p.above)

/-! ## Changes as seen from a place -/

private theorem lookup_filter_ne (es : List (Location × Entry)) {p q : Location} (h : q ≠ p) :
    (es.filter fun x => x.1 != p).lookup q = es.lookup q := by
  induction es with
  | nil => rfl
  | cons x es ih =>
    obtain ⟨k, e⟩ := x
    by_cases hk : k = p
    · subst hk
      simp [List.lookup_cons, ih, beq_false_of_ne h]
    · simp [List.lookup_cons, hk, ih]

private theorem lookup_filter_self (es : List (Location × Entry)) (p : Location) :
    (es.filter fun x => x.1 != p).lookup p = none := by
  induction es with
  | nil => rfl
  | cons x es ih =>
    obtain ⟨k, e⟩ := x
    by_cases hk : k = p
    · subst hk
      simp [ih]
    · simp [List.lookup_cons, hk, ih, beq_false_of_ne (Ne.symm hk)]

theorem lookup_put_self (t : FileTree) {p : Location} (h : p ≠ []) (e : Entry) :
    (t.put p e).lookup p = some e := by
  simp [lookup, put, h]

theorem lookup_put_ne (t : FileTree) {p q : Location} (h : q ≠ p) (e : Entry) :
    (t.put p e).lookup q = t.lookup q := by
  simp [lookup, put, List.lookup_cons, beq_false_of_ne h, lookup_filter_ne _ h]

theorem lookup_erase_self (t : FileTree) {p : Location} (h : p ≠ []) :
    (t.erase p).lookup p = none := by
  simp [lookup, erase, h, lookup_filter_self]

theorem lookup_erase_ne (t : FileTree) {p q : Location} (h : q ≠ p) :
    (t.erase p).lookup q = t.lookup q := by
  simp [lookup, erase, lookup_filter_ne _ h]

end FileTree

end LiveDiagram
