import LiveDiagram.Editor.Port
import LiveDiagram.Document.Registry

/-!
# Settings

Where an instance keeps its state, where it listens, and how it treats its listeners.
-/

namespace LiveDiagram

/-- The settings of an instance. -/
structure Settings where
  initialContent : String
  subscriberBuffer : Nat
  address : SocketAddress
  keepAliveMilliseconds : Nat
  stateDirectory : String

namespace Settings

/-- The name of the state directory. -/
def directoryName : String := "mermaid-editor"

/-- A name below a directory. -/
def below (directory name : String) : String :=
  if directory = "" ∨ directory.endsWith "/" then directory ++ name else directory ++ "/" ++ name

/-- The state directory of a user: in the cache directory that is named by an absolute path, or
else in the hidden one at home. -/
def defaultStateDirectory (home : String) (cacheHome : Option String) : String :=
  let cache :=
    match cacheHome with
    | some c => if c.startsWith "/" then c else below home ".cache"
    | none => below home ".cache"
  below cache directoryName

/-- An empty document on any port of this machine. -/
def default (stateDirectory : String) : Settings where
  initialContent := ""
  subscriberBuffer := Registry.defaultCapacity
  address := ⟨"127.0.0.1", 0⟩
  keepAliveMilliseconds := 15000
  stateDirectory

end Settings

end LiveDiagram
