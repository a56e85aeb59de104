import LiveDiagram.Files.Tree
import LiveDiagram.Json.Reader
import LiveDiagram.Json.Writer

/-!
# Preferences

The front end keeps its settings as one JSON object in the state directory.  What they mean is its
own business; here it is only made sure that an object is stored, written with sorted keys and
without blanks.
-/

namespace LiveDiagram

/-- Where preferences are stored. -/
structure Preferences where
  directory : Path

namespace Preferences

/-- The name of the file. -/
def fileName : String := "preferences.json"

/-- The file. -/
def path (p : Preferences) : Path :=
  p.directory.entry fileName

/-- The text that stands for preferences never saved. -/
def unsaved : Bytes := Utf8.encode "\x7b\x7d"

/-- The stored text, whatever it is. -/
def loadRaw (p : Preferences) (t : FileTree) : Except Error Bytes :=
  match t.read p.path with
  | .ok data => .ok data
  | .error .notFound => .ok unsaved
  | .error e => .error (.io e)

/-- The stored object. -/
def load (p : Preferences) (t : FileTree) : Except Error Json.Members :=
  match p.loadRaw t with
  | .error e => .error e
  | .ok data => (Json.Members.parse data).mapError .invalidJson

/-- Stores an object.  Directories may have been made even if the file could not be written. -/
def save (p : Preferences) (t : FileTree) (prefs : Json.Members) :
    Except Error Unit × FileTree :=
  match t.makeDirectories p.path.parent with
  | (.error e, t) => (.error (.io e), t)
  | (.ok (), t) =>
    match t.write p.path prefs.write with
    | .error e => (.error (.io e), t)
    | .ok t => (.ok (), t)

/-- Stores the object that a text holds. -/
def saveRaw (p : Preferences) (t : FileTree) (body : Bytes) : Except Error Unit × FileTree :=
  match Json.Members.parse body with
  | .error e => (.error (.invalidJson e), t)
  | .ok prefs => p.save t prefs

end Preferences

end LiveDiagram
