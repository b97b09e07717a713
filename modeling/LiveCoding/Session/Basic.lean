import LiveCoding.Interpreter.Basic
import LiveCoding.Osc.Client
import LiveCoding.Settings.Basic
import LiveCoding.Status

/-!
# Sessions

A session owns what lives longer than one command: the settings in force, the
client that code is sent with, an interpreter that it launched, and what is known
of the language server.

## Main Definitions

* `Session`: that state.
* `Session.Error`: why a command failed.
* `Session.ofSettings`: a session under given settings.
* `Session.status`: what the user sees.

## Design Notes

A session can exist only under settings without a problem.  The port of the
language server is kept beside them as a port, so that it is never narrowed at the
moment of use.
-/

namespace LiveCoding

/-- How long a session waits, in milliseconds. -/
structure Timings where
  /-- For a script to run. -/
  script : Nat := 5000
  /-- For the library of a launched interpreter to be compiled. -/
  launch : Nat := 2000
  /-- For a launched interpreter to start its language server. -/
  relaunch : Nat := 3000
  /-- For a launched interpreter to exit when asked to. -/
  shutdown : Nat := 500
deriving DecidableEq, Repr, Inhabited

/-- What lives longer than one command. -/
structure Session where
  settings : Settings
  /-- The port of the language server. -/
  serverPort : UInt16
  client : Osc.Client
  /-- The interpreter that the session launched. -/
  interpreter : Option Subprocess := none
  /-- Whether the language server is bridged. -/
  bridged : Bool := false
  /-- Whether any connection was ever tried. -/
  touched : Bool := false
  timings : Timings := {}

namespace Session

/-- Why a command failed. -/
inductive Error where
  | invalidSettings (problems : List Settings.Problem)
  | notConnected
  | noSymbol
  | serverUnreachable (server : Endpoint) (fault : Fault)
  | osc (error : Osc.Error)
  | interpreter (error : Interpreter.Error)
deriving DecidableEq, Repr

namespace Error

/-- The wording for settings that are wrong. -/
def settingsMessage (problems : List String) : String :=
  "SuperCollider configuration errors: " ++ ", ".intercalate problems

/-- The wording of an error. -/
def message : Error → String
  | .invalidSettings problems => settingsMessage (problems.map Settings.Problem.message)
  | .notConnected => "Not connected to sclang"
  | .noSymbol => "No symbol under cursor"
  | .serverUnreachable server fault =>
    s!"could not reach the language server at {server.host}:{server.port}: {fault.message}. " ++
      "Make sure the LanguageServer quark is installed and sclang is running"
  | .osc error => error.message
  | .interpreter error => error.message

/-- The fault of the surroundings behind an error. -/
def cause? : Error → Option Fault
  | .serverUnreachable _ fault => some fault
  | .osc (.socket fault) => some fault
  | .interpreter (.start _ fault) => some fault
  | .interpreter (.pipe fault) => some fault
  | _ => none

end Error

/-- A session under settings, unless something is wrong with them. -/
def ofSettings (settings : Settings) (timings : Timings := {}) : Except Error Session :=
  match settings.ports with
  | .error problems => .error (.invalidSettings problems)
  | .ok (oscPort, serverPort) =>
    .ok { settings, serverPort, timings, client := ⟨settings.oscHost, oscPort, none⟩ }

/-- Whether the client has a socket. -/
def isConnected (session : Session) : Bool :=
  session.client.isConnected

/-- What the user sees. -/
def status (session : Session) : Status :=
  if session.touched then Status.render session.isConnected session.bridged else .initial

/-- Where the language server listens. -/
def server (session : Session) : Endpoint :=
  ⟨session.settings.oscHost, session.serverPort⟩

/-- Puts other settings in force, unless something is wrong with them.  A launched
interpreter, and a connection that still fits, are kept.  The flag says whether a
connection was closed. -/
def applySettings (session : Session) (settings : Settings) : Except Error (Session × Bool) :=
  match settings.ports with
  | .error problems => .error (.invalidSettings problems)
  | .ok (oscPort, serverPort) =>
    let (client, closed) := session.client.retarget settings.oscHost oscPort
    .ok ({ session with settings, serverPort, client }, closed)

end Session

end LiveCoding
