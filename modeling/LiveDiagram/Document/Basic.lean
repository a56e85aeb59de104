import LiveDiagram.Json.Record
import LiveDiagram.Json.Writer

/-!
# The document and what is said about it

One text is shared by everyone who edits it.  Each write gives it the next version; readers get
text and version as one pair, listeners get a change event, and the writer gets a receipt.

All of them travel as JSON objects.  Their members are written in the order of their names, which
is also the order of declaration.
-/

namespace LiveDiagram

open LiveDiagram.Json

/-- Counts the writes of a document, from one for the text it starts with. -/
structure Version where
  number : UInt64
deriving DecidableEq

/-- The version of a document that was never written. -/
def Version.initial : Version := ⟨1⟩

/-- The version that the next write gives. -/
def Version.next (v : Version) : Version := ⟨v.number + 1⟩

/-- The version as a JSON value. -/
def Version.toJson (v : Version) : Value :=
  .number (.integer v.number.toNat)

/-- The text of a version. -/
def Version.numeral (v : Version) : Bytes :=
  Decimal.numeral v.number.toNat

/-- Reads a version that stands alone. -/
def Version.parse (input : Bytes) : Except Json.Error Version :=
  (parseUnsigned input).map Version.mk

/-- Where a write came from, when the program itself says so. -/
structure Source where
  name : String

/-- The source of a write that names none. -/
def Source.api : Source := ⟨"api"⟩

/-- The source of a document sent from the command line. -/
def Source.cli : Source := ⟨"cli"⟩

/-! ## Snapshots -/

/-- The text of the document at one version. -/
structure Snapshot where
  content : String
  version : Version
deriving DecidableEq

/-- A snapshot as it is sent. -/
def Snapshot.write (s : Snapshot) : Bytes :=
  Value.write (.object [("content", .string s.content), ("version", s.version.toJson)])

/-! ## Change events -/

/-- One write, as listeners are told of it: the whole new text, never a difference. -/
structure ChangeEvent where
  content : String
  source : String
  version : Version
deriving DecidableEq

/-- A change event as a JSON value. -/
def ChangeEvent.toJson (e : ChangeEvent) : Value :=
  .object
    [("content", .string e.content), ("source", .string e.source), ("version", e.version.toJson)]

/-- A change event as it is sent. -/
def ChangeEvent.write (e : ChangeEvent) : Bytes :=
  e.toJson.write

/-- The fields of a change event, all of which must be there. -/
def ChangeEvent.shape : Shape where
  name := "struct ChangeEvent"
  fields := [("content", .text), ("source", .text), ("version", .word)]
  required := true

/-- Reads a change event. -/
def ChangeEvent.parse (input : Bytes) : Except Json.Error ChangeEvent :=
  (ChangeEvent.shape.parse input).map fun fs =>
    { content := (fs.text? "content").getD ""
      source := (fs.text? "source").getD ""
      version := ⟨(fs.word? "version").getD 0⟩ }

/-! ## Writes -/

/-- What a writer asks for.  A text left out is empty. -/
structure WriteRequest where
  content : String
  source : Option String
deriving DecidableEq

/-- The fields of a write, none of which must be there. -/
def WriteRequest.shape : Shape where
  name := "struct WriteRequest"
  fields := [("content", .text), ("source", .optionalText)]
  required := false

/-- Reads a write. -/
def WriteRequest.parse (input : Bytes) : Except Json.Error WriteRequest :=
  (WriteRequest.shape.parse input).map fun fs =>
    { content := (fs.text? "content").getD ""
      source := fs.text? "source" }

/-- The source that listeners are told: a write that names none, or the empty one, counts as coming
through the interface. -/
def WriteRequest.sourceName (w : WriteRequest) : String :=
  match w.source with
  | none => Source.api.name
  | some s => if s = "" then Source.api.name else s

/-- A write as it is sent. -/
def WriteRequest.write (content : String) (source : Source) : Bytes :=
  Value.write (.object [("content", .string content), ("source", .string source.name)])

/-! ## Receipts -/

/-- The answer to a write. -/
structure WriteReceipt where
  version : Version
deriving DecidableEq

/-- A receipt as it is sent. -/
def WriteReceipt.write (r : WriteReceipt) : Bytes :=
  Value.write (.object [("version", r.version.toJson)])

/-- The one field of a receipt. -/
def WriteReceipt.shape : Shape where
  name := "struct WriteReceipt"
  fields := [("version", .word)]
  required := true

/-- Reads a receipt. -/
def WriteReceipt.parse (input : Bytes) : Except Json.Error WriteReceipt :=
  (WriteReceipt.shape.parse input).map fun fs => ⟨⟨(fs.word? "version").getD 0⟩⟩

end LiveDiagram
