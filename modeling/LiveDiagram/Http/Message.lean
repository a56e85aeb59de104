import LiveDiagram.Decimal.Digits
import LiveDiagram.Download.Form
import LiveDiagram.Http.Gateway

/-!
# Messages on the wire

As much of HTTP/1.1 as an exchange takes that has its connection to itself.  A message is a head of
lines, an empty line and a body; the head of a request says how long the body is, and a response
ends where the connection does.

A reader is given all that has arrived so far and asks for more until the message is there.
-/

namespace LiveDiagram.Http

open LiveDiagram.Ascii

/-- What ends a line. -/
def lineEnd : Bytes := [carriageReturn, lineFeed]

/-- What has been found in the bytes that arrived so far. -/
inductive Arrived (α : Type) where
  | incomplete
  | malformed
  | complete (message : α)

/-! ## Heads -/

/-- The lines of a head, the empty one left out, and what stands behind it.  `line` holds the bytes
of the line being read, last first. -/
def splitLines? (line : Bytes) : Bytes → Option (List Bytes × Bytes)
  | [] => none
  | b :: rest =>
    if b = lineFeed then
      if line = [] then some ([], rest)
      else (splitLines? [] rest).map fun r => (line.reverse :: r.1, r.2)
    else splitLines? (if b = carriageReturn then line else b :: line) rest

/-- The lines of a head and what stands behind the empty line that ends it. -/
def splitHead? (s : Bytes) : Option (List Bytes × Bytes) :=
  splitLines? [] s

/-- Lines as a head. -/
def joinHead (lines : List Bytes) : Bytes :=
  lines.flatMap (· ++ lineEnd) ++ lineEnd

/-- A text in which every capital letter of ASCII is small. -/
def lowerCase (s : String) : String :=
  String.ofList (s.toList.map Char.toLower)

/-- The value of the header with this name, which is given in small letters. -/
def header? (lines : List Bytes) (name : String) : Option Bytes :=
  (lines.find? fun l => lowerCase (Utf8.decode (l.takeWhile (· != colon))) = name).map fun l =>
    ((l.dropWhile (· != colon)).drop 1).filter (· != space)

/-- One header line. -/
def headerLine (name value : String) : Bytes :=
  Utf8.encode (name ++ ": " ++ value)

/-- The header that says how long a body is. -/
def lengthLine (length : Nat) : Bytes :=
  headerLine "Content-Length" length.repr

/-- The header that says that nothing follows the exchange. -/
def closeLine : Bytes :=
  headerLine "Connection" "close"

/-! ## Requests -/

/-- The request in the bytes that arrived so far. -/
def readRequest (s : Bytes) : Arrived Request :=
  match splitHead? s with
  | none => .incomplete
  | some ([], _) => .malformed
  | some (start :: headers, rest) =>
    let length := ((header? headers "content-length").bind Decimal.read?).getD 0
    match pieces (· == space) start with
    | [method, url, _] =>
      if rest.length < length then .incomplete
      else .complete ⟨Utf8.decode method, Utf8.decode url, rest.take length⟩
    | _ => .malformed

/-- A request for text in JSON, to a host. -/
def writeRequest (host : String) (r : Request) : Bytes :=
  joinHead
    [Utf8.encode (r.method ++ " " ++ r.url ++ " HTTP/1.1"), headerLine "Host" host,
      headerLine "Content-Type" "application/json", lengthLine r.body.length, closeLine] ++ r.body

/-! ## Responses -/

/-- The words for a status. -/
def reason (status : Nat) : String :=
  match status with
  | 200 => "OK"
  | 204 => "No Content"
  | 400 => "Bad Request"
  | 404 => "Not Found"
  | 405 => "Method Not Allowed"
  | 500 => "Internal Server Error"
  | 503 => "Service Unavailable"
  | _ => "Unknown"

/-- A response to a request of this method. -/
def writeResponse (method : String) (r : Response) : Bytes :=
  let headers := r.contentType.toList.map (headerLine "Content-Type") ++
    r.disposition.toList.map (headerLine "Content-Disposition") ++
    [lengthLine r.body.length, closeLine]
  joinHead (Utf8.encode ("HTTP/1.1 " ++ r.status.repr ++ " " ++ reason r.status) :: headers) ++
    (r.delivered method).body

/-- The response in all the bytes that arrived. -/
def readResponse? (s : Bytes) : Option Response :=
  match splitHead? s with
  | some (start :: headers, body) =>
    match pieces (· == space) start with
    | _ :: status :: _ =>
      (Decimal.read? status).map fun n =>
        { status := n
          contentType := (header? headers "content-type").map Utf8.decode
          disposition := (header? headers "content-disposition").map Utf8.decode
          body }
    | _ => none
  | _ => none

end LiveDiagram.Http
