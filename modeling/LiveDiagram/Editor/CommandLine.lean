import LiveDiagram.Editor.Settings
import LiveDiagram.Decimal.Digits

/-!
# The command line

One optional file, and options in the usual two spellings: a letter behind one dash, in clusters,
with the value attached or in the next argument; or a word behind two dashes, with the value behind
an equals sign or in the next argument.  Two dashes alone end the options.  Arguments are read from
left to right, and the first that is wrong, or asks for help or for the version, settles the
outcome.
-/

namespace LiveDiagram

open LiveDiagram.Ascii

/-- What the arguments ask for. -/
structure Options where
  file : Option String
  port : Option UInt16
  stateDirectory : Option String
  keepAliveSeconds : Option Nat
  debug : Bool
deriving DecidableEq

/-- What the arguments amount to. -/
inductive CommandLine where
  | start (o : Options)
  | help
  | version
  /-- They are wrong. -/
  | wrong
deriving DecidableEq

namespace CommandLine

/-- The name and the version of the program. -/
def versionText : String := "mermaid-editor 0.1.0\n"

/-- The help page. -/
def helpText : String :=
  "Live diagram editor backend\n\n" ++
  "Usage: mermaid-editor [OPTIONS] [FILE]\n\n" ++
  "Arguments:\n" ++
  "  [FILE]  Diagram file to open (or push to an already running editor)\n\n" ++
  "Options:\n" ++
  "  -p, --port <PORT>\n" ++
  "          Port to listen on (0 picks a free one) [default: 0]\n" ++
  "      --state-dir <STATE_DIR>\n" ++
  "          Directory for the instance lock, port file and preferences\n" ++
  "      --keepalive-secs <KEEPALIVE_SECS>\n" ++
  "          Seconds between keep-alive frames on idle change streams [default: 15]\n" ++
  "  -d, --debug\n" ++
  "          Verbose logging\n" ++
  "  -h, --help\n" ++
  "          Print help\n" ++
  "  -V, --version\n" ++
  "          Print version\n"

/-- What is said about wrong arguments. -/
def wrongText : String :=
  "error: the arguments make no sense\n\nFor more information, try '--help'.\n"

/-! ## Values -/

/-- A port.  A sign is accepted, though below zero there are none. -/
def port? (s : String) : Option UInt16 :=
  let magnitude :=
    match Utf8.encode s with
    | [] => none
    | b :: rest =>
      if b = plus then Decimal.read? rest
      else if b = minus then (Decimal.read? rest).filter (· = 0)
      else Decimal.read? (b :: rest)
  (magnitude.filter (· < UInt16.size)).map UInt16.ofNat

/-- A number of seconds below `2 ^ 64`. -/
def seconds? (s : String) : Option Nat :=
  let magnitude :=
    match Utf8.encode s with
    | [] => none
    | b :: rest => if b = plus then Decimal.read? rest else Decimal.read? (b :: rest)
  magnitude.filter (· < UInt64.size)

/-! ## Options -/

/-- An option that takes a value. -/
inductive Valued where
  | port
  | stateDirectory
  | keepAlive
deriving DecidableEq

/-- Sets an option.  None may be given twice. -/
def Valued.set (v : Valued) (o : Options) (value : String) : Option Options :=
  match v with
  | .port =>
    if o.port.isSome then none else (port? value).map fun p => { o with port := some p }
  | .stateDirectory =>
    if o.stateDirectory.isSome ∨ value = "" then none
    else some { o with stateDirectory := some value }
  | .keepAlive =>
    if o.keepAliveSeconds.isSome then none
    else (seconds? value).map fun n => { o with keepAliveSeconds := some n }

/-- An option without a value. -/
inductive Flag where
  | debug
  | help
  | version
deriving DecidableEq

/-- The meaning of a word behind two dashes. -/
def long? (name : String) : Option (Valued ⊕ Flag) :=
  match name with
  | "port" => some (.inl .port)
  | "state-dir" => some (.inl .stateDirectory)
  | "keepalive-secs" => some (.inl .keepAlive)
  | "debug" => some (.inr .debug)
  | "help" => some (.inr .help)
  | "version" => some (.inr .version)
  | _ => none

/-- The meaning of a letter behind one dash. -/
def short? (c : Char) : Option (Valued ⊕ Flag) :=
  match c with
  | 'p' => some (.inl .port)
  | 'd' => some (.inr .debug)
  | 'h' => some (.inr .help)
  | 'V' => some (.inr .version)
  | _ => none

/-- One argument, as it looks by itself. -/
inductive Argument where
  /-- The end of the options. -/
  | endOfOptions
  /-- A word, and what stands behind its equals sign. -/
  | long (name : String) (value : Option String)
  /-- Letters, of which there is at least one. -/
  | cluster (first : Char) (rest : List Char)
  | plain (text : String)
deriving DecidableEq

/-- How an argument looks. -/
def Argument.ofText (s : String) : Argument :=
  match s.toList with
  | ['-', '-'] => .endOfOptions
  | '-' :: '-' :: rest =>
    let name := String.ofList (rest.takeWhile (· != '='))
    match rest.dropWhile (· != '=') with
    | [] => .long name none
    | _ :: value => .long name (some (String.ofList value))
  | '-' :: c :: rest => .cluster c rest
  | _ => .plain s

/-- Sets a flag, or settles the outcome. -/
def Flag.set (f : Flag) (o : Options) : Options ⊕ CommandLine :=
  match f with
  | .debug => if o.debug then .inr .wrong else .inl { o with debug := true }
  | .help => .inr .help
  | .version => .inr .version

/-- A cluster of letters.  An option with a value takes the rest of the cluster, if there is any,
or waits for the next argument. -/
def cluster (o : Options) : List Char → (Options × Option Valued) ⊕ CommandLine
  | [] => .inl (o, none)
  | c :: rest =>
    match short? c with
    | none => .inr .wrong
    | some (.inr f) =>
      match f.set o with
      | .inl o => cluster o rest
      | .inr outcome => .inr outcome
    | some (.inl v) =>
      match rest with
      | [] => .inl (o, some v)
      | '=' :: value | value =>
        match v.set o (String.ofList value) with
        | some o => .inl (o, none)
        | none => .inr .wrong

/-- The file, which is given once and has a name. -/
def setFile (o : Options) (name : String) : Option Options :=
  if o.file.isSome ∨ name = "" then none else some { o with file := some name }

/-- Files only. -/
def files (o : Options) : List String → CommandLine
  | [] => .start o
  | s :: rest =>
    match setFile o s with
    | some o => files o rest
    | none => .wrong

/-- Reads arguments.  `waiting` is an option whose value comes next. -/
def read (o : Options) (waiting : Option Valued) : List String → CommandLine
  | [] => if waiting.isSome then .wrong else .start o
  | s :: rest =>
    match waiting, Argument.ofText s with
    | some v, .plain value =>
      match v.set o value with
      | some o => read o none rest
      | none => .wrong
    | some _, _ => .wrong
    | none, .endOfOptions => files o rest
    | none, .plain name =>
      match setFile o name with
      | some o => read o none rest
      | none => .wrong
    | none, .cluster c cs =>
      match cluster o (c :: cs) with
      | .inl (o, waiting) => read o waiting rest
      | .inr outcome => outcome
    | none, .long name value =>
      match long? name, value with
      | some (.inl v), some value =>
        match v.set o value with
        | some o => read o none rest
        | none => .wrong
      | some (.inl v), none => read o (some v) rest
      | some (.inr f), none =>
        match f.set o with
        | .inl o => read o none rest
        | .inr outcome => outcome
      | _, _ => .wrong

/-- What the arguments amount to. -/
def parse (arguments : List String) : CommandLine :=
  read ⟨none, none, none, none, false⟩ none arguments

end CommandLine

/-- The settings that the arguments ask for. -/
def Options.settings (o : Options) (initialContent defaultStateDirectory : String) : Settings :=
  let base := Settings.default (o.stateDirectory.getD defaultStateDirectory)
  { base with
    initialContent
    address := { base.address with port := o.port.getD 0 }
    keepAliveMilliseconds := max (o.keepAliveSeconds.getD 15) 1 * 1000 }

end LiveDiagram
