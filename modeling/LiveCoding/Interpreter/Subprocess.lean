import LiveCoding.Interpreter.Program

/-!
# A running program

A process is a run that has had some input and some time.  It is over once its
run ends by itself or it is killed; from then on it takes no input.

## Main Definitions

* `Subprocess`: a run, its input and its time.
* `Subprocess.pass`: time passes.
* `Subprocess.send`: a line of input.
* `Subprocess.shutdown`: the request to exit, and the end if it goes unheard.
-/

namespace LiveCoding

/-- A program that was started. -/
structure Subprocess where
  run : Run
  /-- All input so far. -/
  input : List UInt8 := []
  /-- Whether there is no more input to come. -/
  closed : Bool := false
  /-- The milliseconds since anything last changed about the input. -/
  idle : Nat := 0
  /-- How it ended, if it has. -/
  ended : Option Exit := none

namespace Subprocess

/-- Time passes. -/
def pass (process : Subprocess) (milliseconds : Nat) : Subprocess :=
  let idle := process.idle + milliseconds
  if process.ended.isSome then process
  else
    match process.run.lifetime process.input process.closed with
    | none => { process with idle }
    | some (length, exit) =>
      if length ≤ idle then { process with idle, ended := some exit } else { process with idle }

/-- Waits for the end, however long it takes. -/
def await (process : Subprocess) : Subprocess :=
  match process.run.lifetime process.input process.closed with
  | none => process
  | some (length, _) => process.pass (length - process.idle)

/-- How the process ended, as far as the system can tell. -/
def status (process : Subprocess) : Except Fault (Option Exit) :=
  match process.run.observable with
  | .error fault => .error fault
  | .ok () => .ok process.ended

/-- Sends a line of input. -/
def send (process : Subprocess) (line : String) : Except Fault Subprocess :=
  if process.closed || process.ended.isSome then .error .brokenPipe
  else .ok { process with input := process.input ++ utf8Bytes line ++ [10], idle := 0 }

/-- Ends the input. -/
def close (process : Subprocess) : Subprocess :=
  if process.closed then process else { process with closed := true, idle := 0 }

/-- Kills the process, unless it is over. -/
def kill (process : Subprocess) : Subprocess :=
  { process with ended := process.ended.or (some .killed) }

/-- The line that asks an interpreter to exit. -/
def exitLine : String := "0.exit;"

/-- Asks the process to exit, ends its input, and kills it if that is not enough
within a time of grace. -/
def shutdown (process : Subprocess) (grace : Nat) : Subprocess × Except Fault Exit :=
  match process.status with
  | .error fault => (process, .error fault)
  | .ok _ =>
    let asked :=
      match process.send exitLine with
      | .ok asked => asked
      | .error _ => process
    let finished := (asked.close.pass grace).kill
    (finished, .ok (finished.ended.getD .killed))

/-- The files that the process has left so far. -/
def leaves (process : Subprocess) : List (Path × List UInt8) :=
  process.run.leaves process.input process.closed

end Subprocess

end LiveCoding
