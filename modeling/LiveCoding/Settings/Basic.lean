import LiveCoding.Settings.Flags

/-!
# Settings

What the flags leave open is filled in from defaults.  The result may still be
unusable: ports stay whole numbers until they have been checked.

## Main Definitions

* `Settings`, `Flags.resolve`: every choice made.
* `Settings.problems`: what is wrong with them, in a fixed order.
* `Settings.ports`: both ports as ports, if nothing is wrong.
-/

namespace LiveCoding

/-- Every choice made. -/
structure Settings where
  sclangPath : String
  oscHost : String
  oscPort : Int
  useLanguageServer : Bool
  languageServerPort : Int
  quiet : Bool
deriving DecidableEq, Repr

/-- Makes every choice that is still open. -/
def Flags.resolve (flags : Flags) : Settings where
  sclangPath := flags.sclangPath.getD "sclang"
  oscHost := flags.oscHost.getD "127.0.0.1"
  oscPort := flags.oscPort.getD 57120
  useLanguageServer := !flags.noLanguageServer
  languageServerPort := flags.languageServerPort.getD 57121
  quiet := flags.quiet

namespace Settings

instance : Inhabited Settings := ⟨({} : Flags).resolve⟩

/-- The settings as a user reads them, without a line feed at the end. -/
def display (settings : Settings) : String :=
  let server := if settings.useLanguageServer then "enabled" else "disabled"
  s!"sclang path:          {settings.sclangPath}\n" ++
    s!"OSC target:           {settings.oscHost}:{settings.oscPort}\n" ++
    s!"language server:      {server}\n" ++
    s!"language server port: {settings.languageServerPort}"

/-- What can be wrong with settings. -/
inductive Problem where
  | emptyPath
  | oscPort
  | languageServerPort
deriving DecidableEq, Repr

/-- The wording of a problem. -/
def Problem.message : Problem → String
  | .emptyPath => "sclangPath cannot be empty"
  | .oscPort => "oscPort must be between 1 and 65535"
  | .languageServerPort => "languageServerPort must be between 1 and 65535"

/-- A number that a port can have. -/
def isPort (n : Int) : Bool :=
  1 ≤ n && n ≤ 65535

/-- Everything that is wrong, in a fixed order. -/
def problems (settings : Settings) : List Problem :=
  (if settings.sclangPath.isEmpty then [.emptyPath] else []) ++
    (if isPort settings.oscPort then [] else [.oscPort]) ++
    (if isPort settings.languageServerPort then [] else [.languageServerPort])

/-- A number as a port, if it fits. -/
def toPort? (n : Int) : Option UInt16 :=
  if 0 ≤ n && n < 65536 then some (UInt16.ofNat n.toNat) else none

/-- The port for code and the port of the language server, unless something is
wrong. -/
def ports (settings : Settings) : Except (List Problem) (UInt16 × UInt16) :=
  match settings.problems with
  | [] =>
    match toPort? settings.oscPort, toPort? settings.languageServerPort with
    | some oscPort, some serverPort => .ok (oscPort, serverPort)
    | none, _ => .error [.oscPort]
    | _, none => .error [.languageServerPort]
  | problems => .error problems

end Settings

end LiveCoding
