import LiveCoding.Session.Basic
import LiveCoding.Settings.Store
import LiveCoding.Text.Split

/-!
# Reports of failure

A command that fails says what it wanted and, one after the other, why that failed.
Lines that a text brings along are indented like its first one.

## Main Definitions

* `Failure`: what failed, and the causes behind it.
* `Failure.report`: the text for the user.
-/

namespace LiveCoding

/-- What failed, and the causes behind it, nearest first. -/
structure Failure where
  message : String
  causes : List String := []
deriving DecidableEq, Repr

namespace Failure

/-- A failure because of a fault. -/
def because (message : String) (fault : Fault) : Failure :=
  ⟨message, [fault.message]⟩

/-- The failure of a session. -/
def ofSession (error : Session.Error) : Failure :=
  ⟨error.message, (error.cause?.map Fault.message).toList⟩

/-- The failure to load or store settings. -/
def ofStore (error : Store.Error) : Failure :=
  because error.message error.fault

/-- A text whose first line has a label in front and whose other lines have blanks
there. -/
def indented (label margin : String) (text : String) : String :=
  label ++ ("\n" ++ margin).intercalate ((splitAll '\n' text.toList).map String.ofList)

/-- The number of a cause, right-aligned. -/
def numberLabel (number : Nat) : String :=
  let digits := toString number
  String.ofList (List.replicate (5 - digits.length) ' ') ++ digits ++ ": "

/-- The causes, numbered if there are several. -/
def causeLines (causes : List String) : List String :=
  match causes with
  | [only] => [indented "    " "    " only]
  | several =>
    several.zipIdx.map fun (cause, number) => indented (numberLabel number) "       " cause

/-- The text for the user. -/
def report (failure : Failure) : String :=
  let causes :=
    if failure.causes.isEmpty then ""
    else "\n\nCaused by:" ++ String.join ((causeLines failure.causes).map ("\n" ++ ·))
  "Error: " ++ failure.message ++ causes ++ "\n"

end Failure

end LiveCoding
