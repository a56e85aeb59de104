import LiveDiagram.Download.Base64
import LiveDiagram.Download.Form

/-!
# Downloads

The browser side builds a file and posts it as a form, and gets it back as an attachment it can
save.  Of a field that is given more than once the first occurrence counts, whichever source it
comes from; an empty one counts as missing.

A file name goes into a quoted header value, so the characters that could end or break the value
are taken out of it.  A name that is not ASCII is sent twice: with each foreign character replaced,
and exactly, percent-encoded.
-/

namespace LiveDiagram

open LiveDiagram.Ascii

/-- A file that a client asked to be handed back. -/
structure Download where
  filename : String
  contentType : String
  body : Bytes
deriving DecidableEq

namespace Download

/-- The type of a file that names none. -/
def defaultContentType : String := "application/octet-stream"

/-- Why a form makes no file. -/
inductive Fault where
  | missing
  | contentType
  | base64 (cause : Base64.Fault)
deriving DecidableEq

/-- The words for a refused form. -/
def Fault.message : Fault → String
  | .missing => "missing filename or data"
  | .contentType => "content_type must be printable ASCII"
  | .base64 cause => "invalid base64 data: " ++ cause.message

/-- A character of a header value that needs no escape anywhere. -/
def isPrintable (c : Char) : Bool :=
  0x20 ≤ c.toNat && c.toNat ≤ 0x7E

/-- A control character, of the first or of the second set. -/
def isControl (c : Char) : Bool :=
  c.toNat < 0x20 || (0x7F ≤ c.toNat && c.toNat ≤ 0x9F)

/-- A file name without the characters that would break a quoted value. -/
def clean (name : String) : String :=
  String.ofList (name.toList.filter fun c => !isControl c && c != '"' && c != '\\')

/-- The file described by the fields of a form. -/
def ofFields (fields : List Form.Field) : Except Fault Download :=
  match Form.nonEmpty? fields "filename", Form.nonEmpty? fields "data" with
  | some filename, some data =>
    let contentType := (Form.nonEmpty? fields "content_type").getD defaultContentType
    if contentType.toList.all isPrintable then
      let body :=
        if Form.nonEmpty? fields "encoding" = some "base64" then
          (Base64.decode (Utf8.encode data)).mapError Fault.base64
        else .ok (Utf8.encode data)
      body.map fun b => ⟨clean filename, contentType, b⟩
    else .error .contentType
  | _, _ => .error .missing

/-- The file described by forms, of which the earlier count before the later. -/
def ofForms (sources : List Bytes) : Except Fault Download :=
  ofFields (sources.flatMap Form.parse)

/-! ## The header that offers it -/

/-- A byte that stands for itself in a percent-encoded parameter. -/
def isAttributeByte (b : UInt8) : Bool :=
  isAlphanumeric b || (Utf8.encode "!#$&+-.^_\x60|~").contains b

/-- Whether a character is ASCII. -/
def isAscii (c : Char) : Bool :=
  c.toNat ≤ 0x7F

/-- The value of the header that offers the file under its name. -/
def disposition (d : Download) : String :=
  if d.filename.toList.all isAscii then "attachment; filename=\"" ++ d.filename ++ "\""
  else
    let plain := String.ofList (d.filename.toList.map fun c => if isAscii c then c else '_')
    "attachment; filename=\"" ++ plain ++ "\"; filename*=UTF-8''" ++
      Percent.encode isAttributeByte d.filename

end Download

end LiveDiagram
