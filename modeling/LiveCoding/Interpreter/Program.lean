import LiveCoding.Files.Path
import LiveCoding.Network

/-!
# Programs as the surroundings offer them

The interpreter is a program that somebody else wrote.  All that is known of it
is what it does once it is started: what it prints, which input makes it end, and
what it leaves behind.  A `Run` is a record of that, and a `Program` says for every
list of arguments what its run is like.

## Main Definitions

* `Exit`: how a program ended.
* `Run`: what a started program does.
* `Program`: what may be started.

## Design Notes

Time is counted from the last input on, in milliseconds: a run that is given
nothing more ends after so long, or never.
-/

namespace LiveCoding

/-- How a program ended. -/
inductive Exit where
  /-- By itself, with a number that says how it went. -/
  | code (number : UInt8)
  /-- By a signal. -/
  | signal (number : Nat)
deriving DecidableEq, Repr

namespace Exit

/-- The end of a program that was killed. -/
def killed : Exit := .signal 9

/-- Whether a program says that all went well. -/
def isSuccess (exit : Exit) : Bool :=
  exit == .code 0

end Exit

/-- What a started program does. -/
structure Run where
  /-- What it prints. -/
  output : List UInt8
  /-- What it prints to complain. -/
  complaints : List UInt8
  /-- How long after its last input it ends by itself, and how, given all the
  input it has had and whether there is no more to come. -/
  lifetime : List UInt8 → Bool → Option (Nat × Exit)
  /-- The files that it leaves, given the same. -/
  leaves : List UInt8 → Bool → List (Path × List UInt8)
  /-- What it makes of the network; it may start to listen. -/
  listens : Network → Network := id
  /-- Whether the system can tell how it is. -/
  observable : Except Fault Unit := .ok ()

/-- What may be started: a run for each list of arguments. -/
abbrev Program := List String → Run

end LiveCoding
