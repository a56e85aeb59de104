import LiveDiagram.Http.Host
import LiveDiagram.Text.Pieces

/-!
# Addresses

An address is read generously and written in one way.  Blanks around it and line breaks in it do not
count, dots in its path are resolved, and characters that may not stand in a part of it are
percent-encoded there.  What was escaped stays escaped: `%2e` is a dot to the path and nowhere else.

Only addresses with a host are kept, since only those can be connected to.
-/

namespace LiveDiagram

/-- The address of something that a host offers.  Every part is kept as it is written. -/
structure Url where
  scheme : String
  username : String
  password : String
  host : Host
  /-- The port, unless it is the usual one of the scheme. -/
  port : Option UInt16
  path : String
  query : Option String
  fragment : Option String
deriving DecidableEq

namespace Url

/-- Why a text is no address of something that a host offers. -/
inductive Fault where
  /-- There is no scheme, so that it would need another address to start from. -/
  | relative
  | port
  | host (why : Host.Fault)
deriving DecidableEq

/-- The words for a refused address: the kind of fault, and what it means. -/
def Fault.message : Fault → String
  | .relative => "RelativeUrlWithoutBase: relative URL without a base"
  | .port => "InvalidPort: invalid port number"
  | .host .empty => "EmptyHost: empty host"
  | .host .name => "IdnaError: invalid international domain name"
  | .host .character => "InvalidDomainCharacter: invalid domain character"
  | .host .bytes => "InvalidIpv4Address: invalid IPv4 address"
  | .host .words => "InvalidIpv6Address: invalid IPv6 address"

/-! ## What may stand where -/

/-- A printable ASCII byte that is not in a list. -/
def isPrintableExcept (others : String) (b : UInt8) : Bool :=
  0x21 ≤ b && b ≤ 0x7E && !(Utf8.encode others).contains b

/-- A byte that stands for itself in a fragment. -/
def isFragmentByte : UInt8 → Bool :=
  isPrintableExcept "\"<>\x60"

/-- A byte that stands for itself in a path. -/
def isPathByte : UInt8 → Bool :=
  isPrintableExcept "\"<>\x60#?\x7b\x7d"

/-- A byte that stands for itself in a user's name or password. -/
def isUserByte : UInt8 → Bool :=
  isPrintableExcept "\"<>\x60#?\x7b\x7d/:;=@[\\]^|"

/-- A byte that stands for itself in a query.  An apostrophe does so only in some schemes. -/
def isQueryByte (special : Bool) : UInt8 → Bool :=
  isPrintableExcept (if special then "\"#<>'" else "\"#<>")

/-! ## Schemes -/

/-- A character of a scheme behind its first letter. -/
def isSchemeCharacter (c : Char) : Bool :=
  c.isAlphanum || c == '+' || c == '-' || c == '.'

/-- The scheme that an address starts with, in lower case, and what stands behind the colon. -/
def splitScheme? (s : List Char) : Option (String × List Char) :=
  match s, s.dropWhile isSchemeCharacter with
  | c :: _, ':' :: rest =>
    if c.isAlpha then
      some (String.ofList ((s.takeWhile isSchemeCharacter).map Char.toLower), rest)
    else none
  | _, _ => none

/-- Whether a scheme has hosts with rules of their own, and paths that a backslash divides too. -/
def isSpecial (scheme : String) : Bool :=
  ["http", "https", "ws", "wss", "ftp", "file"].contains scheme

/-- The usual port of a scheme. -/
def usualPort? (scheme : String) : Option UInt16 :=
  if scheme = "http" ∨ scheme = "ws" then some 80
  else if scheme = "https" ∨ scheme = "wss" then some 443
  else if scheme = "ftp" then some 21
  else none

/-- Whether a character divides a path. -/
def isSlash (special : Bool) (c : Char) : Bool :=
  c == '/' || (special && c == '\\')

/-- What stands behind the slashes in front of a host, if there are enough of them. -/
def splitSlashes? (scheme : String) (s : List Char) : Option (List Char) :=
  if scheme = "file" then
    match s with
    | a :: b :: rest => if isSlash true a && isSlash true b then some rest else none
    | _ => none
  else if isSpecial scheme then some (s.dropWhile (isSlash true))
  else
    match s with
    | '/' :: '/' :: rest => some rest
    | _ => none

/-! ## Host and port -/

/-- The last at sign divides the user from the host. -/
def splitUser (s : List Char) : List Char × List Char :=
  if s.contains '@' then
    (((s.reverse.dropWhile (· != '@')).drop 1).reverse, (s.reverse.takeWhile (· != '@')).reverse)
  else ([], s)

/-- The host and what stands behind it, from its first colon outside brackets on. -/
def splitHost (inside : Bool) : List Char → List Char × List Char
  | [] => ([], [])
  | c :: rest =>
    if c = ':' ∧ !inside then ([], c :: rest)
    else
      let (host, port) := splitHost (if c = '[' then true else if c = ']' then false else inside) rest
      (c :: host, port)

/-- A port behind its colon; none if it has no digits. -/
def port? : List Char → Except Fault (Option UInt16)
  | [] | [':'] => .ok none
  | _ :: digits =>
    match (if digits.all Char.isDigit then Host.numberIn 10 digits else none) with
    | some n => if n < UInt16.size then .ok (some (UInt16.ofNat n)) else .error .port
    | none => .error .port

/-- The host that a text spells in a scheme.  A file of this machine has none. -/
def host? (scheme : String) (s : List Char) : Except Fault Host :=
  let text := String.ofList s
  let host := if isSpecial scheme && s ≠ [] then Host.parse text else Host.parseFree text
  match host with
  | .error why => .error (.host why)
  | .ok host => if scheme = "file" ∧ host = .named "localhost" then .error (.host .empty) else .ok host

/-! ## Paths -/

/-- Whether a segment stays in the directory where it is met. -/
def isDot (segment : String) : Bool :=
  [".", "%2e"].contains (String.ofList (segment.toList.map Char.toLower))

/-- Whether a segment leads up. -/
def isDoubleDot (segment : String) : Bool :=
  ["..", ".%2e", "%2e.", "%2e%2e"].contains (String.ofList (segment.toList.map Char.toLower))

/-- The segments of a path with its dots resolved.  `kept` holds those gone through, last first.
Dots at the end leave an empty segment, so that the path still leads to a directory. -/
def resolveOnto (kept : List String) : List String → List String
  | [] => kept.reverse
  | segment :: rest =>
    let slash := if rest = [] then [""] else []
    if isDoubleDot segment then resolveOnto (slash ++ kept.drop 1) rest
    else if isDot segment then resolveOnto (slash ++ kept) rest
    else resolveOnto (segment :: kept) rest

/-- A path as it is written.  A scheme whose paths may be empty keeps them so. -/
def writePath (special : Bool) (s : List Char) : String :=
  if s = [] ∧ !special then ""
  else
    let segments := (pieces (isSlash special) (s.drop 1)).map fun piece =>
      Percent.encode isPathByte (String.ofList piece)
    "/" ++ "/".intercalate (resolveOnto [] segments)

/-! ## Addresses -/

/-- Whether a character ends the part of an address that names its host. -/
def endsHost (special : Bool) (c : Char) : Bool :=
  isSlash special c || c == '?' || c == '#'

/-- The text behind a character that a text starts with. -/
def behind? (c : Char) (s : List Char) : Option (List Char) :=
  match s with
  | [] => none
  | d :: rest => if d = c then some rest else none

/-- An address of which the scheme was read and the slashes are gone. -/
def parseBehind (scheme : String) (s : List Char) : Except Fault Url :=
  let special := isSpecial scheme
  let authority := s.takeWhile (!endsHost special ·)
  let rest := s.dropWhile (!endsHost special ·)
  let (user, server) := if scheme = "file" then ([], authority) else splitUser authority
  let (hostText, portText) := if scheme = "file" then (server, []) else splitHost false server
  match host? scheme hostText, port? portText with
  | .error f, _ => .error f
  | _, .error f => .error f
  | .ok host, .ok port =>
    let tail := rest.dropWhile fun c => c != '?' && c != '#'
    let escape (plain : UInt8 → Bool) (cs : List Char) : String :=
      Percent.encode plain (String.ofList cs)
    .ok {
      scheme
      username := escape isUserByte (user.takeWhile (· != ':'))
      password := escape isUserByte ((user.dropWhile (· != ':')).drop 1)
      host
      port := port.filter fun n => usualPort? scheme ≠ some n
      path := writePath special (rest.takeWhile fun c => c != '?' && c != '#')
      query := (behind? '?' tail).map fun q => escape (isQueryByte special) (q.takeWhile (· != '#'))
      fragment := (behind? '#' (tail.dropWhile (· != '#'))).map (escape isFragmentByte) }

/-- A character that does not count at either end of an address. -/
def isBlank (c : Char) : Bool :=
  c.toNat ≤ 0x20

/-- The characters of an address that count. -/
def significant (s : List Char) : List Char :=
  (((s.dropWhile isBlank).reverse.dropWhile isBlank).reverse).filter fun c =>
    c != '\t' && c != '\n' && c != '\r'

/-- The address that a text spells. -/
def parse (s : String) : Except Fault Url :=
  match splitScheme? (significant s.toList) with
  | none => .error .relative
  | some (scheme, rest) =>
    match splitSlashes? scheme rest with
    | none => .error (.host .empty)
    | some rest => parseBehind scheme rest

/-- The user, if one is named, and the at sign behind it. -/
def userText (u : Url) : String :=
  if u.username = "" ∧ u.password = "" then ""
  else u.username ++ (if u.password = "" then "" else ":" ++ u.password) ++ "@"

/-- The host, and the port unless it is the usual one. -/
def serverText (u : Url) : String :=
  u.host.text ++ u.port.elim "" fun n => ":" ++ n.toNat.repr

/-- What a request to an address asks its host for. -/
def target (u : Url) : String :=
  u.path ++ u.query.elim "" ("?" ++ ·)

/-- The one way of writing an address. -/
def text (u : Url) : String :=
  u.scheme ++ "://" ++ u.userText ++ u.serverText ++ u.target ++ u.fragment.elim "" ("#" ++ ·)

end Url

end LiveDiagram
