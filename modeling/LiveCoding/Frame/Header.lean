import LiveCoding.Text.Blank
import LiveCoding.Text.Numeral
import LiveCoding.Text.Quoted
import LiveCoding.Text.Split
import LiveCoding.Text.Utf8

/-!
# Frame headers

The language server and the editor exchange frames: a block of header lines, an
empty line, and a body.  Only one header counts, the length of the body in bytes;
its name may be written in any case.

## Main Definitions

* `Frame.contentLength`: the length that a header block announces.
* `Frame.Error`: what can be wrong with a frame.
-/

namespace LiveCoding

namespace Frame

/-- A header block without an end that is longer than this is no header. -/
def maxHeader : Nat := 8 * 1024

/-- A body that claims to be longer than this is not waited for. -/
def maxBody : Nat := 64 * 1024 * 1024

/-- What is wrong with a frame. -/
inductive Error where
  /-- No header gives a length. -/
  | missingLength
  /-- The length is no number. -/
  | badLength (value : String)
  /-- The header block does not end. -/
  | headerTooLarge
  /-- The body is too long to be waited for. -/
  | bodyTooLarge (length : Nat)
  /-- The body is no message. -/
  | notMessage
deriving DecidableEq, Repr

/-- The wording of an error. -/
def Error.message : Error → String
  | .missingLength => "frame header has no Content-Length"
  | .badLength value => "invalid Content-Length " ++ quoted value
  | .headerTooLarge => "frame header exceeds 8 KiB without a terminator"
  | .bodyTooLarge length => s!"frame body of {length} bytes exceeds 64 MiB"
  | .notMessage => "frame body is not JSON-RPC"

/-- The lines found so far, newest first, then those of a header block, of which
`line` is the beginning, newest character first.  Only both characters of an
ending together end a line. -/
def headerLinesFrom (line : List Char) (found : List (List Char)) : List Char → List (List Char)
  | '\r' :: '\n' :: rest => headerLinesFrom [] (line.reverse :: found) rest
  | c :: rest => headerLinesFrom (c :: line) found rest
  | [] => (line.reverse :: found).reverse

/-- The lines of a header block. -/
def headerLines (text : List Char) : List (List Char) :=
  headerLinesFrom [] [] text

/-- A text with ASCII capitals made small. -/
def lowerAscii (text : List Char) : List Char :=
  text.map Char.toLower

/-- The value of a line, if the line gives the length. -/
def lengthValue? (line : List Char) : Option (List Char) := do
  let (name, value) ← splitFirst? ':' line
  if lowerAscii (trim name) = "content-length".toList then some (trim value) else none

/-- The length that a header block announces: the first line that gives one
counts. -/
def contentLength (header : List UInt8) : Except Error Nat :=
  match (headerLines (Utf8.decodeLossy header)).findSome? lengthValue? with
  | none => .error .missingLength
  | some value =>
    match readUnsigned? value with
    | none => .error (.badLength (String.ofList value))
    | some length => .ok length

end Frame

end LiveCoding
