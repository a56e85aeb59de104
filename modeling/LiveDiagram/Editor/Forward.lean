import LiveDiagram.Http.Gateway
import LiveDiagram.Http.Url

/-!
# Sending a document to a running instance

A second process does not open the document again: it writes its text through the gateway of the
one that runs.
-/

namespace LiveDiagram.Forward

/-- Why a connection is not made. -/
inductive Connection where
  | refused
  | networkUnreachable
  /-- A reason given in words. -/
  | other (reason : String)
deriving DecidableEq

/-- The words of the operating system. -/
def Connection.message : Connection → String
  | .refused => "Connection refused (os error 111)"
  | .networkUnreachable => "Network is unreachable (os error 101)"
  | .other reason => reason

/-- Why a request to an address has no good answer. -/
inductive Obstacle where
  | unknownScheme
  /-- No host is found by the name, for a reason given in words. -/
  | unknownName (reason : String)
  | notConnected (why : Connection)
  | status (n : Nat)
deriving DecidableEq

/-- The words for what came between. -/
def Obstacle.message (u : Url) : Obstacle → String
  | .unknownScheme => "Unknown Scheme: unknown scheme '" ++ u.scheme ++ "'"
  | .unknownName reason =>
    let port := (u.port.or (Url.usualPort? u.scheme)).elim "" fun n => ":" ++ n.toNat.repr
    "Dns Failed: resolve dns name '" ++ u.host.text ++ port ++ "': " ++ reason
  | .notConnected why => "Connection Failed: Connect error: " ++ why.message
  | .status n => "status code " ++ n.repr

/-- Why a document was not sent. -/
inductive Fault where
  | badUrl (why : Url.Fault)
  | unanswered (u : Url) (why : Obstacle)
deriving DecidableEq

/-- The words for a document that was not sent. -/
def Fault.message : Fault → String
  | .badUrl why => "Bad URL: failed to parse URL: " ++ why.message
  | .unanswered u why => u.text ++ ": " ++ why.message u

/-! ## Addresses -/

/-- The address of the document of an instance, as it is spelled. -/
def documentUrl (base : String) : String :=
  base ++ "/api/diagram"

/-- The address of the document of an instance, if requests to it can be made at all. -/
def target (base : String) : Except Fault Url :=
  match Url.parse (documentUrl base) with
  | .error why => .error (.badUrl why)
  | .ok u =>
    if u.scheme = "http" ∨ u.scheme = "https" then .ok u else .error (.unanswered u .unknownScheme)

/-! ## The exchange -/

/-- The request that replaces the document at an address. -/
def request (u : Url) (content : String) : Request where
  method := "PUT"
  url := u.target
  body := WriteRequest.write content .cli

/-- The version given to the document, by what came of the request. -/
def outcome (u : Url) (r : Except Obstacle Response) : Except Error Version :=
  match r with
  | .error why => .error (.forward (Fault.unanswered u why).message)
  | .ok response =>
    if 400 ≤ response.status then
      .error (.forward (Fault.unanswered u (.status response.status)).message)
    else
      match WriteReceipt.parse (Utf8.encode (Utf8.decode response.body)) with
      | .ok receipt => .ok receipt.version
      | .error e => .error (.invalidJson e)

/-- Sends a document to a gateway, if what lies between lets it through. -/
def send (obstacle : Option Obstacle) (g : Gateway) (u : Url) (content : String) :
    Except Error Version × Gateway :=
  match obstacle with
  | some why => (outcome u (.error why), g)
  | none =>
    match g.handle (request u content) with
    | (.response r, g) => (outcome u (.ok r), g)
    | (.stream _, g) => (outcome u (.ok (.ofStatus 200)), g)

/-- Sends a document to the gateway with this address.  What lies between is known by address. -/
def push (obstacle : Url → Option Obstacle) (g : Gateway) (base content : String) :
    Except Error Version × Gateway :=
  match target base with
  | .error fault => (.error (.forward fault.message), g)
  | .ok u => send (obstacle u) g u content

end LiveDiagram.Forward
