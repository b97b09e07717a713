import LiveCoding.Document.Word
import LiveCoding.Help.Lookup
import LiveCoding.Session.Basic
import LiveCoding.Target

/-!
# What a session does

The commands of a user, as actions on a session in its surroundings.  An action
that fails keeps what it did before it failed.

## Main Definitions

* `Stage`: a session and its surroundings.
* `Action`: a step that may fail.
* `Session.evaluate`, `Session.evaluateFile`, `Session.bootServer`,
  `Session.quitServer`, `Session.stopSound`: what is sent to the interpreter.
* `Session.startLanguageServer`, `Session.launchInterpreter`, `Session.shutdown`:
  the life of the other connections.
* `Session.helpAt`: help for the name at a position.

## Design Notes

Code is sent only after the client is connected, even if there turns out to be
nothing to send.  Quitting the sound server alone does not connect: without a
connection there is nothing to quit.
-/

namespace LiveCoding

/-- A session and its surroundings. -/
structure Stage where
  session : Session
  world : World

/-- A step of a session that may fail. -/
abbrev Action (α : Type) := EStateM Session.Error Stage α

namespace Session

/-- What an attempt to connect comes to. -/
inductive Connection where
  | fresh
  /-- There was a connection already. -/
  | standing
deriving DecidableEq, Repr

/-- Changes the session alone. -/
def update (change : Session → Session) : Action Unit := fun stage =>
  .ok () { stage with session := change stage.session }

/-- Opens the client's socket. -/
def connect : Action Connection := do
  update fun session => { session with touched := true }
  let stage ← get
  if stage.session.isConnected then return .standing
  match stage.session.client.connect stage.world.network with
  | .error error => throw (.osc error)
  | .ok client =>
    update fun session => { session with client }
    return .fresh

/-- Opens the client's socket unless it is open. -/
def ensureConnected : Action Unit := do
  if (← get).session.isConnected then return
  let _ ← connect

/-- Sends a message to the interpreter. -/
def send (message : Osc.Message) : Action Unit := do
  let stage ← get
  match stage.session.client.send stage.world.network message with
  | .error error => throw (.osc error)
  | .ok datagram => set { stage with world := stage.world.emit datagram }

/-- Sends the code of a target, if there is one. -/
def evaluateTarget (target? : Option Target) : Action (Option Target) := do
  ensureConnected
  match target? with
  | none => return none
  | some target =>
    send (Osc.evaluate target.code)
    return some target

/-- Sends what a selection or a bare cursor stands for. -/
def evaluate {σ : Type} [TextSource σ] (source : σ) (selection : Range) :
    Action (Option Target) :=
  evaluateTarget (Target.resolve? source selection)

/-- Sends the whole text. -/
def evaluateFile {σ : Type} [TextSource σ] (source : σ) : Action (Option Target) :=
  evaluateTarget (Target.ofFile? source)

/-- Starts the sound server. -/
def bootServer : Action Unit := do
  ensureConnected
  send Osc.bootServer

/-- Stops the sound server, over a connection that is there. -/
def quitServer : Action Unit := do
  if !(← get).session.isConnected then throw .notConnected
  send Osc.quitServer

/-- Silences the sound server. -/
def stopSound : Action Unit := do
  ensureConnected
  send Osc.freeAll

/-- Help for a symbol. -/
def helpFor (symbol : String) : Action Help.Target := do
  let stage ← get
  let session := stage.session
  let (world, target) :=
    Help.lookup stage.world session.settings.sclangPath symbol session.timings.script
  set { stage with world }
  return target

/-- Help for the name at a position. -/
def helpAt (document : Document) (position : Position) : Action Help.Target := do
  match document.wordAt position with
  | none => throw .noSymbol
  | some symbol => helpFor symbol

/-- Whether the launched interpreter is still running. -/
def isRunning : Action Bool := do
  match (← get).session.interpreter with
  | none => return false
  | some process =>
    match process.status with
    | .error fault => throw (.interpreter (.pipe fault))
    | .ok ended => return ended.isNone

/-- Launches an interpreter that hosts the language server, unless one that was
launched before is still running.  The flag says whether one was launched. -/
def launchInterpreter : Action Bool := do
  if ← isRunning then return false
  let stage ← get
  let session := stage.session
  match Interpreter.launch stage.world session.settings.sclangPath session.serverPort
      session.timings.launch with
  | (world, .error error) =>
    set { stage with world }
    throw (.interpreter error)
  | (world, .ok process) =>
    set { stage with world, session.interpreter := some process }
    return true

/-- Lets time pass for the launched interpreter. -/
def pass (milliseconds : Nat) : Action Unit :=
  update fun session =>
    { session with interpreter := session.interpreter.map (·.pass milliseconds) }

/-- Waits, while time passes for the surroundings too. -/
def wait (milliseconds : Nat) : Action Unit := do
  pass milliseconds
  modify fun stage => { stage with world := stage.world.later }

/-- Tries to reach the language server. -/
def reachServer : Action Endpoint := do
  let stage ← get
  let server := stage.session.server
  match stage.world.network.reach .stream server with
  | .error fault => throw (.serverUnreachable server fault)
  | .ok () => return server

/-- Reaches the language server, after launching an interpreter if it is allowed
and needed. -/
def reachOrLaunch (mayLaunch : Bool) : Action Endpoint := fun stage =>
  match reachServer stage, mayLaunch with
  | .error _ stage, true => (do
      let _ ← launchInterpreter
      wait stage.session.timings.relaunch
      reachServer : Action Endpoint) stage
  | result, _ => result

/-- Connects to the language server; nothing happens if the settings forbid it. -/
def startLanguageServer (mayLaunch : Bool) : Action (Option Endpoint) := do
  update fun session => { session with touched := true }
  if !(← get).session.settings.useLanguageServer then return none
  let server ← reachOrLaunch mayLaunch
  update fun session => { session with bridged := true }
  return some server

/-- The bridge to the language server is closed. -/
def languageServerStopped : Action Unit :=
  update fun session => { session with bridged := false }

/-- Puts other settings in force.  The flag says whether a connection was closed. -/
def apply (settings : Settings) : Action Bool := do
  match (← get).session.applySettings settings with
  | .error error => throw error
  | .ok (session, closed) =>
    update fun _ => session
    return closed

/-- Closes every connection and ends the launched interpreter. -/
def shutdown : Action Unit := do
  let process? := (← get).session.interpreter
  update fun session =>
    { session with
      client := session.client.disconnect
      bridged := false
      interpreter := none }
  match process? with
  | none => return
  | some process =>
    let stage ← get
    let (finished, result) := process.shutdown stage.session.timings.shutdown
    set { stage with world := stage.world.leave finished.leaves }
    match result with
    | .error fault => throw (.interpreter (.pipe fault))
    | .ok _ => return

end Session

end LiveCoding
