import LiveDiagram.Text.Pieces

/-!
# Paths

A path is kept as it is spelled: the parts between its slashes, blank ones and dots included.  Where
it leads is decided by the tree that it is followed through, because two dots undo a step only if
that step could be taken.

## Main results

* `parent_entry`: an entry of a directory lies in that directory, less the idle parts at its end.
-/

namespace LiveDiagram

/-- The parts of a path, from the outermost on. -/
structure Path where
  parts : List String
deriving DecidableEq

namespace Path

/-- A path as it is spelled, with slashes. -/
def ofText (s : String) : Path :=
  ⟨piecesAt '/' s⟩

/-- The spelling of a path. -/
def text (p : Path) : String :=
  "/".intercalate p.parts

/-- A part that stays in the directory where it is met. -/
def isIdle (part : String) : Bool :=
  part = "" || part = "."

/-- The path of an entry of the directory that a path leads to. -/
def entry (p : Path) (name : String) : Path :=
  ⟨(if p.parts.getLast? = some "" then p.parts.dropLast else p.parts) ++ [name]⟩

/-- Shorter paths by the parts of a path in reverse.  Idle parts do not count as steps. -/
def aboveReversed : List String → List Path
  | [] => []
  | part :: outer =>
    if isIdle part then aboveReversed outer
    else ⟨(outer.dropWhile isIdle).reverse⟩ :: aboveReversed outer

/-- The paths of the directories that a path passes through, nearest first. -/
def above (p : Path) : List Path :=
  aboveReversed p.parts.reverse

/-- The path of the directory that a path passes through last. -/
def parent (p : Path) : Path :=
  p.above.headD ⟨[]⟩

/-- Whether a path holds the one character that no name can hold. -/
def hasNul (p : Path) : Bool :=
  p.parts.any fun part => part.toList.contains '\x00'

/-- The most bytes that a name can have. -/
def nameLimit : Nat := 255

/-- The least number of bytes that is too much for a whole path. -/
def lengthLimit : Nat := 4096

/-! ## Entries and where they lie -/

private theorem dropWhile_reverse_dropLast {parts : List String} (h : parts.getLast? = some "") :
    parts.dropLast.reverse.dropWhile isIdle = parts.reverse.dropWhile isIdle := by
  obtain ⟨front, rfl⟩ := List.getLast?_eq_some_iff.1 h
  simp [isIdle]

theorem parent_entry (p : Path) {name : String} (h : isIdle name = false) :
    (p.entry name).parent = ⟨(p.parts.reverse.dropWhile isIdle).reverse⟩ := by
  by_cases hl : p.parts.getLast? = some ""
  · simp [parent, above, entry, aboveReversed, h, hl, dropWhile_reverse_dropLast hl]
  · simp [parent, above, entry, aboveReversed, h, hl]

end Path

end LiveDiagram
