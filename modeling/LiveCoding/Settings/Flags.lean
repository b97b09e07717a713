/-!
# Flags

Settings are given as flags, on the command line and in two files.  A flag that is
not given leaves the choice to another layer, so every value here may be absent.

## Main Definitions

* `Flags`: what one layer gives.
* `Flags.union`: a layer under another.

## Design Notes

The union is no mere override: a value comes from the later layer that gives one,
but a switch that any layer turns on stays on.
-/

namespace LiveCoding

/-- What one layer of settings gives. -/
structure Flags where
  /-- Where the interpreter is started from. -/
  sclangPath : Option String := none
  /-- The host of the interpreter. -/
  oscHost : Option String := none
  /-- The port for code, as it was written; it may be out of range. -/
  oscPort : Option Int := none
  /-- The port of the language server, as it was written. -/
  languageServerPort : Option Int := none
  noLanguageServer : Bool := false
  quiet : Bool := false
deriving DecidableEq, Repr, Inhabited

namespace Flags

/-- A layer with a later one on top. -/
def union (flags later : Flags) : Flags where
  sclangPath := later.sclangPath.or flags.sclangPath
  oscHost := later.oscHost.or flags.oscHost
  oscPort := later.oscPort.or flags.oscPort
  languageServerPort := later.languageServerPort.or flags.languageServerPort
  noLanguageServer := flags.noLanguageServer || later.noLanguageServer
  quiet := flags.quiet || later.quiet

/-- All layers, later ones on top. -/
def unionAll (layers : List Flags) : Flags :=
  layers.foldl union {}

end Flags

end LiveCoding
