import LiveCoding.CommandLine.Arguments
import LiveCoding.CommandLine.Report
import LiveCoding.Document.File
import LiveCoding.Frame.Relay
import LiveCoding.Json.Value
import LiveCoding.Session.Action
import LiveCoding.Watch

/-!
# Running a command

A command line becomes a request, the settings of all layers are put together, and
the command runs in a session that is shut down afterwards.  Answers go to the
output; everything else that a user is told goes to the notices.

## Main Definitions

* `Transcript`: what the user has been told.
* `Job`: a step of a command.
* `CommandLine.selection`, `CommandLine.blockAnswer`: what code a command is about.
* `CommandLine.runCommand`: one command in a session.
* `CommandLine.run`: a whole command line.

## Design Notes

Stored settings are managed without a session, so that settings with a problem can
still be shown and replaced.
-/

namespace LiveCoding

/-- What the user has been told. -/
structure Transcript where
  /-- The answers. -/
  output : List UInt8 := []
  /-- Everything else. -/
  notices : String := ""
  /-- What the user's input became for the language server. -/
  toServer : List UInt8 := []
deriving DecidableEq, Repr, Inhabited

/-- A step of a command, on a state and what the user has been told. -/
abbrev Job (σ α : Type) := EStateM Failure (σ × Transcript) α

namespace Job

variable {σ α : Type}

/-- Changes what the user has been told. -/
def tell (change : Transcript → Transcript) : Job σ Unit :=
  modify fun state => (state.1, change state.2)

/-- An answer in one line. -/
def answer (text : String) : Job σ Unit :=
  tell fun transcript => { transcript with output := transcript.output ++ utf8Bytes (text ++ "\n") }

/-- A notice in one line. -/
def notice (text : String) : Job σ Unit :=
  tell fun transcript => { transcript with notices := transcript.notices ++ text ++ "\n" }

/-- A notice that is left out when the user wants silence. -/
def mention (quiet : Bool) (text : String) : Job σ Unit :=
  if quiet then pure () else notice text

/-- An action of the session. -/
def act (action : Action α) : Job Stage α := fun (stage, transcript) =>
  match action stage with
  | .ok a stage => .ok a (stage, transcript)
  | .error error stage => .error (.ofSession error) (stage, transcript)

/-- A change of the files that may fail. -/
def change (operation : Files → Files × Except Store.Error Unit) : Job World Unit :=
  fun (world, transcript) =>
    match operation world.files with
    | (files, .ok ()) => .ok () ({ world with files }, transcript)
    | (files, .error error) => .error (.ofStore error) ({ world with files }, transcript)

end Job

namespace CommandLine

open Job

/-- The document in a file. -/
def openDocument (file : String) : Job Stage Document := do
  let (stage, _) ← get
  match Document.ofFile stage.world.files (.ofText file) with
  | .error fault => throw (.because s!"Failed to read {file}" fault)
  | .ok document => return document

/-- The selection from a cursor to its end, or a bare cursor without one. -/
def selection (cursor : Position) (selectionEnd : Option Position) : Range :=
  match selectionEnd with
  | none => .cursor cursor
  | some stop => .between cursor stop

/-- A position as a user counts. -/
def positionValue (position : Position) : Json.Value :=
  let ordinal (n : Nat) := Json.Value.number (.whole (n + 1))
  .record [("column", ordinal position.column), ("line", ordinal position.line)]

/-- The block at a cursor, as a value. -/
def blockValue (document : Document) (cursor : Position) : Json.Value :=
  match document.enclosingBlock cursor with
  | none => .null
  | some range =>
    .record [("code", .text (document.slice range)), ("end", positionValue range.stop),
      ("start", positionValue range.start)]

/-- What is answered about the block at a cursor. -/
def blockAnswer (document : Document) (cursor : Position) (json : Bool) :
    Except Failure String :=
  if json then .ok (blockValue document cursor).render
  else
    match document.enclosingBlock cursor with
    | none => .error ⟨"No enclosing block at the cursor", []⟩
    | some range => .ok (document.slice range)

/-- Sends a whole file. -/
def runFile (file : String) (quiet : Bool) : Job Stage Unit := do
  let document ← openDocument file
  match ← act (Session.evaluateFile document) with
  | some _ => mention quiet s!"Evaluating {file}..."
  | none => mention quiet "Nothing to evaluate"

/-- How long a file has to be quiet before it is sent again, in milliseconds. -/
def saveQuiet : Nat := 200

/-- Starts to watch a file. -/
def runWatch (file : String) (quiet : Bool) : Job Stage Unit := do
  let (stage, _) ← get
  match Watch.start stage.world.files (.ofText file) saveQuiet with
  | .error fault => throw (.because s!"Failed to watch {file}" fault)
  | .ok watch => mention quiet s!"Watching {watch.file.display} (Ctrl-C to stop)"

/-- Bridges the input to the language server. -/
def runBridge (mayLaunch quiet : Bool) (input : List UInt8) : Job Stage Unit := do
  match ← act (Session.startLanguageServer mayLaunch) with
  | none => mention quiet "Language Server disabled in configuration"
  | some server =>
    let (stage, _) ← get
    mention quiet stage.session.status.display
    let passage := Relay.bridge (stage.world.network.answer server) (some input) .open
    tell fun transcript =>
      { transcript with
        output := transcript.output ++ passage.toClient.written
        toServer := transcript.toServer ++ passage.toServer.written }
    act Session.languageServerStopped
    match passage.ending with
    | .error fault => throw (.because "Language server bridge failed" fault)
    | .ok () => return

/-- One command in a session. -/
def runCommand (command : Command) (quiet : Bool) (input : List UInt8) : Job Stage Unit := do
  match command with
  | .evaluate file cursor selectionEnd =>
    let document ← openDocument file
    match ← act (Session.evaluate document (selection cursor selectionEnd)) with
    | some _ => return
    | none => mention quiet "Nothing to evaluate"
  | .evaluateFile file watch =>
    runFile file quiet
    if watch then runWatch file quiet
  | .bootServer =>
    act Session.bootServer
    mention quiet "Booting SuperCollider server..."
  | .quitServer =>
    let _ ← act Session.connect
    act Session.quitServer
    mention quiet "Quitting SuperCollider server..."
  | .stopSound => act Session.stopSound
  | .locate file cursor json =>
    let document ← openDocument file
    match blockAnswer document cursor json with
    | .error failure => throw failure
    | .ok text => answer text
  | .languageServer mayLaunch => runBridge mayLaunch quiet input
  | .status =>
    match ← act Session.connect with
    | .fresh => mention quiet "Connected to sclang via OSC"
    | .standing => mention quiet "Already connected to sclang"
    let (stage, _) ← get
    answer stage.session.status.display
  | .settings _ _ _ => return

/-- The stored flags, the local ones on top. -/
def storedFlags (files : Files) (home : Store.Home) : Except Store.Error Flags := do
  let globalFlags ← Store.load files (Store.globalPath home)
  let localFlags ← Store.load files Store.localPath
  return globalFlags.union localFlags

/-- Manages the stored settings. -/
def runSettings (home : Store.Home) (flags : Flags) (save clear display : Bool) :
    Job World Unit := do
  let path := Store.globalPath home
  if clear then
    change fun files => Store.clear files path
    notice s!"Cleared {path.display}"
  if save then
    change fun files => Store.save files path flags
    notice s!"Saved defaults to {path.display}"
  if display || !(save || clear) then
    let (world, _) ← get
    match storedFlags world.files home with
    | .error error => throw (.ofStore error)
    | .ok stored => answer (stored.union flags).resolve.display

/-- How a program ends. -/
structure Outcome where
  code : UInt8
  transcript : Transcript := {}
deriving DecidableEq, Repr

/-- The outcome of a job. -/
def outcome {σ : Type} (result : EStateM.Result Failure (σ × Transcript) Unit) : σ × Outcome :=
  match result with
  | .ok () (state, transcript) => (state, ⟨0, transcript⟩)
  | .error failure (state, transcript) =>
    (state, ⟨1, { transcript with notices := transcript.notices ++ failure.report }⟩)

/-- A failure before any session. -/
def failed (failure : Failure) : Outcome :=
  ⟨1, { notices := failure.report }⟩

/-- A command in a session of its own. -/
def runSession (world : World) (settings : Settings) (command : Command)
    (input : List UInt8) : World × Outcome :=
  match Session.ofSettings settings with
  | .error error => (world, failed (.ofSession error))
  | .ok session =>
    let (stage, outcome) :=
      outcome (runCommand command settings.quiet input (⟨session, world⟩, {}))
    match Session.shutdown stage with
    | .ok () stage | .error _ stage => (stage.world, outcome)

/-- A command with the flags from its command line. -/
def runRequest (world : World) (home : Store.Home) (flags : Flags) (command : Command)
    (input : List UInt8) : World × Outcome :=
  match command with
  | .settings save clear display =>
    outcome (runSettings home flags save clear display (world, {}))
  | command =>
    match storedFlags world.files home with
    | .error error => (world, failed (.ofStore error))
    | .ok stored => runSession world (stored.union flags).resolve command input

/-- The name and the version of the program. -/
def versionLine : String := "sclink 0.3.2"

/-- The outcome of a command line that makes no sense. -/
def refused : Outcome := ⟨2, {}⟩

/-- A whole command line. -/
def run (world : World) (home : Store.Home) (arguments : List String) (input : List UInt8) :
    World × Outcome :=
  match Arguments.read arguments with
  | .refused => (world, refused)
  | .version => (world, ⟨0, { output := utf8Bytes (versionLine ++ "\n") }⟩)
  | .guide topic => (world, ⟨0, { output := utf8Bytes (Guide.page topic) }⟩)
  | .run flags command => runRequest world home flags command input

end CommandLine

end LiveCoding
