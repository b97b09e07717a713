/-!
# The status indicator

After each command the user sees whether the interpreter can be reached and
whether the language server is bridged.  Before the first attempt at either, the
indicator invites to connect instead.
-/

namespace LiveCoding

/-- What the user sees. -/
structure Status where
  text : String
  tooltip : String
deriving DecidableEq, Repr

namespace Status

/-- The symbol of a connection. -/
def connectedText : String := "SC ●"

/-- The symbol of no connection. -/
def disconnectedText : String := "SC ○"

/-- The indicator before anything was tried. -/
def initial : Status :=
  ⟨disconnectedText, "SuperCollider (Click to connect)"⟩

/-- The indicator for a state of both connections. -/
def render (connected bridged : Bool) : Status :=
  let state := if connected then "Connected" else "Disconnected"
  { text := if connected then connectedText else disconnectedText
    tooltip := s!"SuperCollider ({state})" ++ if bridged then " | LSP Active" else "" }

/-- The indicator in one line. -/
def display (status : Status) : String :=
  status.text ++ "  " ++ status.tooltip

instance : Inhabited Status := ⟨initial⟩

end Status

end LiveCoding
