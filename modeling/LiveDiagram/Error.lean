import LiveDiagram.Json.Fault

/-!
# What can go wrong at the edges of the program

The document itself cannot fail.  Everything here happens where it meets files, requests, ports
and other processes.
-/

namespace LiveDiagram

/-- Why an operation on a file or a directory failed. -/
inductive FileError where
  | notFound
  | exists
  | notDirectory
  | isDirectory
  | nameTooLong
  | nulInName
  /-- A reason given in words. -/
  | other (reason : String)
deriving DecidableEq

/-- The words of the operating system. -/
def FileError.message : FileError → String
  | .notFound => "No such file or directory (os error 2)"
  | .exists => "File exists (os error 17)"
  | .notDirectory => "Not a directory (os error 20)"
  | .isDirectory => "Is a directory (os error 21)"
  | .nameTooLong => "File name too long (os error 36)"
  | .nulInName => "file name contained an unexpected NUL byte"
  | .other reason => reason

/-- A host and a port to listen on. -/
structure SocketAddress where
  host : String
  port : UInt16
deriving DecidableEq

/-- The usual spelling of an address. -/
def SocketAddress.text (a : SocketAddress) : String :=
  a.host ++ ":" ++ a.port.toNat.repr

/-- A failure of the program. -/
inductive Error where
  | io (cause : FileError)
  | invalidJson (cause : Json.Error)
  | invalidRequest (reason : String)
  | invalidDownload (reason : String)
  | bind (address : SocketAddress) (reason : String)
  | locked
  | forward (reason : String)
deriving DecidableEq

/-- The words for a failure. -/
def Error.message : Error → String
  | .io cause => "IO error: " ++ cause.message
  | .invalidJson cause => "Invalid JSON: " ++ cause.message
  | .invalidRequest reason => "Invalid request: " ++ reason
  | .invalidDownload reason => "Invalid download: " ++ reason
  | .bind address reason => "Failed to bind " ++ address.text ++ ": " ++ reason
  | .locked => "State directory is locked by another process"
  | .forward reason => "Forwarding to running instance failed: " ++ reason

/-- The status of the response that reports a failure: the request was at fault, or the program. -/
def Error.status : Error → Nat
  | .invalidJson _ | .invalidRequest _ | .invalidDownload _ => 400
  | _ => 500

end LiveDiagram
