import LiveCoding.Target
import LiveCoding.Text.Numeral
import LiveCoding.Text.Rows

/-!
# The flash of evaluated code

Where a terminal shows the result, evaluated code flashes by: a dim heading that
says what was sent and from where, then every row in black on yellow.  A row ends
its colours before its line ends.

## Main Definitions

* `Flash.text`: everything that is written, colour codes included.
* `Flash.write`: what reaches a writer that takes only so many bytes.
-/

namespace LiveCoding

namespace Flash

/-- A colour code of the terminal. -/
def code (body : String) : String :=
  "\x1b[" ++ body ++ "m"

/-- Dim letters. -/
def dim : String := code "2"

/-- No style. -/
def reset : String := code "0"

/-- A yellow ground. -/
def yellowGround : String := code "48;5;11"

/-- Black letters. -/
def blackLetters : String := code "38;5;0"

/-- A line or column as a user counts, from one, in the 64 bits of a position. -/
def ordinal (n : Nat) : Nat :=
  (n + 1) % (maxUnsigned + 1)

/-- The heading over a target. -/
def heading (target : Target) : String :=
  let start := target.range.start
  s!"-- {target.kind.label} at {ordinal start.line}:{ordinal start.column}\n"

/-- One row of code. -/
def row (text : List Char) : String :=
  yellowGround ++ blackLetters ++ String.ofList text ++ reset ++ "\n"

/-- Everything that is written for a target. -/
def text (target : Target) : String :=
  dim ++ heading target ++ reset ++ String.join ((rows target.code.toList).map row)

/-- What reaches a writer that takes so many bytes, and whether that is all. -/
def write (capacity : Option Nat) (target : Target) : List UInt8 × Bool :=
  let bytes := utf8Bytes (text target)
  match capacity with
  | none => (bytes, true)
  | some limit => (bytes.take limit, bytes.length ≤ limit)

end Flash

end LiveCoding
