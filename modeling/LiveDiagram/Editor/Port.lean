import LiveDiagram.Error

/-!
# Finding a port

A port that is taken is no reason to give up: the nine above it are tried as well, as far as there
are that many.  Port zero leaves the choice to the system and is tried once.
-/

namespace LiveDiagram

/-- The ports of one host, as someone finds them who wants to listen. -/
structure Ports where
  /-- Someone listens there already. -/
  taken : UInt16 → Bool
  /-- The port that the system gives to those who ask for none. -/
  ephemeral : UInt16

namespace Ports

/-- The words for a port that is taken. -/
def inUse : String := "Address already in use (os error 98)"

/-- Listens on one port; the port that was bound. -/
def listen (ports : Ports) (port : UInt16) : Except String UInt16 :=
  if port = 0 then .ok ports.ephemeral
  else if ports.taken port then .error inUse
  else .ok port

/-- The port `offset` above, or the highest one. -/
def above (port : UInt16) (offset : Nat) : UInt16 :=
  UInt16.ofNat (min (port.toNat + offset) (UInt16.size - 1))

/-- The ports to try, in order. -/
def candidates (port : UInt16) : List UInt16 :=
  (List.range (if port = 0 then 1 else 10)).map (above port)

/-- Listens on the first port that can be had; the reason why the last one could not. -/
def first (ports : Ports) (reason : String) : List UInt16 → Except String UInt16
  | [] => .error reason
  | port :: rest =>
    match ports.listen port with
    | .ok bound => .ok bound
    | .error reason => ports.first reason rest

/-- Listens on an address or a little above it. -/
def bind (ports : Ports) (address : SocketAddress) : Except Error SocketAddress :=
  match ports.first "" (candidates address.port) with
  | .ok port => .ok { address with port }
  | .error reason => .error (.bind address reason)

end Ports

/-- Where whoever listens on an address is reached. -/
def SocketAddress.url (a : SocketAddress) : String :=
  "http://" ++ a.text

end LiveDiagram
