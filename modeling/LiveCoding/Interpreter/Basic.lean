import LiveCoding.Duration
import LiveCoding.Interpreter.Subprocess
import LiveCoding.Text.Blank
import LiveCoding.World

/-!
# The interpreter as a program

The interpreter is started in two ways: once for a script whose output is the
answer, and for long, to host the language server.

## Main Definitions

* `Interpreter.Error`: why that failed.
* `Interpreter.start`: a process.
* `Interpreter.runScript`: a script and its output.
* `Interpreter.launch`: a process that was asked to start the language server.
-/

namespace LiveCoding

namespace Interpreter

/-- Why an interpreter could not be used. -/
inductive Error where
  /-- It could not be started. -/
  | start (path : String) (fault : Fault)
  /-- It took too long. -/
  | timeout (limit : Duration)
  /-- It complained. -/
  | failed (complaint : String)
  /-- It could not be talked to. -/
  | pipe (fault : Fault)
deriving DecidableEq, Repr

/-- The wording of an error. -/
def Error.message : Error → String
  | .start path fault => s!"failed to start {path}: {fault.message}"
  | .timeout limit => s!"sclang timeout after {limit.display}"
  | .failed complaint => complaint
  | .pipe fault => s!"sclang io error: {fault.message}"

/-- The longest argument that a program can be given, in bytes. -/
def maxArgument : Nat := 131071

/-- Starts the program at a path. -/
def start (world : World) (path : String) (arguments : List String) :
    Except Fault (World × Subprocess) :=
  if arguments.any fun argument => argument.toList.contains '\x00' then .error .nulInArgument
  else
    match world.files.program path with
    | .error fault => .error fault
    | .ok program =>
      if arguments.any fun argument => argument.utf8ByteSize > maxArgument then
        .error .argumentsTooLong
      else
        let process : Subprocess := { run := program arguments }
        .ok (world.leave process.leaves, process)

/-- What a script that ran to its end says.  Output counts even if the interpreter
then ends badly, since it often does after a good answer. -/
def outcome (run : Run) (exit : Exit) : Except Error String :=
  if exit.isSuccess || !run.output.isEmpty then
    .ok (String.ofList (Utf8.decodeLossy run.output))
  else
    let complaint := trim (Utf8.decodeLossy run.complaints)
    .error (.failed (if complaint.isEmpty then "sclang failed" else String.ofList complaint))

/-- Has a script run, for so many milliseconds at most.  It gets no input. -/
def runScript (world : World) (path code : String) (limit : Nat) :
    World × Except Error String :=
  match start world path ["-e", code] with
  | .error fault => (world, .error (.start path fault))
  | .ok (world, process) =>
    let process := process.close.pass limit
    let world := world.leave process.leaves
    match process.status with
    | .error fault => (world, .error (.pipe fault))
    | .ok none => (world, .error (.timeout (.ofMilliseconds limit)))
    | .ok (some exit) => (world, outcome process.run exit)

/-- The line that starts the language server. -/
def serverLine (port : UInt16) : String :=
  s!"LanguageServer.start({port});"

/-- Starts an interpreter and, after a delay in which its library is compiled,
asks it to start the language server. -/
def launch (world : World) (path : String) (port : UInt16) (delay : Nat) :
    World × Except Error Subprocess :=
  match start world path ["-i", "scvim"] with
  | .error fault => (world, .error (.start path fault))
  | .ok (world, process) =>
    match (process.pass delay).send (serverLine port) with
    | .error fault => (world, .error (.pipe fault))
    | .ok process =>
      let world := world.leave process.leaves
      ({ world with network := process.run.listens world.network }, .ok process)

end Interpreter

end LiveCoding
