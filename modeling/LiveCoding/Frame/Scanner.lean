import LiveCoding.Frame.Envelope

/-!
# The frame scanner

The scanner reads a stream of frames that arrives in pieces.  It holds the bytes
that do not make a frame yet, and after each piece reports every frame that is
now complete, in order.

## Main Definitions

* `Frame.Scanner`: where in a frame the stream is, with the bytes held.
* `Frame.Scanner.push`: a piece arrives.
* `Frame.encode`: a frame around a body.

## Design Notes

Every byte is looked at once.  The state tells all that the next byte needs, so a
long body that arrives in many pieces is not read again with each of them, and
where the pieces are cut changes nothing as long as no bytes are given up.

A header block without a usable length is reported and passed over, and reading
goes on behind its empty line.  Where a header does not end, or a body is too long
to wait for, there is nothing to go on behind: all bytes held are given up, and in
the second case what follows in the same piece too.
-/

namespace LiveCoding

namespace Frame

/-- What the scanner reports: a frame, or what is wrong with one. -/
abbrev Report := Except Error Summary

/-- Where in a frame a stream is.  Bytes are held newest first. -/
inductive Scanner where
  /-- In a header block. -/
  | inHeader (behind : List UInt8)
  /-- In a body of so many bytes, of which some are behind and `left` are to come,
  at least one. -/
  | inBody (header : List UInt8) (length : Nat) (behind : List UInt8) (left : Nat)
deriving DecidableEq, Repr

namespace Scanner

/-- The beginning of a frame. -/
def start : Scanner := .inHeader []

instance : Inhabited Scanner := ⟨start⟩

/-- What one byte leads to. -/
inductive Step where
  /-- The frame goes on. -/
  | goOn (scanner : Scanner)
  /-- The frame has ended, well or badly, and another one may begin. -/
  | ends (report : Report)
  /-- There is nothing to go on behind. -/
  | giveUp (error : Error)

/-- What lies in front of the empty line with which some bytes end.  All bytes are
given, and returned, newest first. -/
def endedHeader? : List UInt8 → Option (List UInt8)
  | 10 :: 13 :: 10 :: 13 :: header => some header
  | _ => none

/-- What the end of a header block leads to. -/
def behindHeader (header : List UInt8) : Step :=
  match contentLength header.reverse with
  | .error error => .ends (.error error)
  | .ok length =>
    if maxBody < length then .giveUp (.bodyTooLarge length)
    else if length = 0 then .ends (summarize [])
    else .goOn (.inBody header length [] length)

/-- One byte. -/
def step : Scanner → UInt8 → Step
  | .inHeader behind, b =>
    match endedHeader? (b :: behind) with
    | some header => behindHeader header
    | none => .goOn (.inHeader (b :: behind))
  | .inBody header length behind left, b =>
    if left ≤ 1 then .ends (summarize (b :: behind).reverse)
    else .goOn (.inBody header length (b :: behind) (left - 1))

/-- Bytes one after the other.  The reports are put on top of those found so far,
newest first. -/
def feed (found : List Report) (scanner : Scanner) : List UInt8 → List Report × Scanner
  | [] => (found, scanner)
  | b :: rest =>
    match scanner.step b with
    | .goOn scanner => feed found scanner rest
    | .ends report => feed (report :: found) start rest
    | .giveUp error => (.error error :: found, start)

/-- A header block that is too long to be waited for. -/
def isOverlong : Scanner → Bool
  | .inHeader behind => maxHeader < behind.length
  | .inBody .. => false

/-- A piece of the stream arrives.  How long a header block may be is asked only
once the piece is used up, so that one which ends in it may be longer. -/
def push (scanner : Scanner) (bytes : List UInt8) : List Report × Scanner :=
  let (found, scanner) := scanner.feed [] bytes
  if scanner.isOverlong then ((.error .headerTooLarge :: found).reverse, start)
  else (found.reverse, scanner)

/-- The bytes that are held, as they came. -/
def held : Scanner → List UInt8
  | .inHeader behind => behind.reverse
  | .inBody header _ behind _ => header.reverse ++ [13, 10, 13, 10] ++ behind.reverse

/-- How many bytes are held. -/
def pending : Scanner → Nat
  | .inHeader behind => behind.length
  | .inBody header length _ left => header.length + 4 + (length - left)

/-- All reports on a stream that arrives in the given pieces, and the scanner
afterwards. -/
def pushAll (scanner : Scanner) : List (List UInt8) → List Report × Scanner
  | [] => ([], scanner)
  | piece :: rest =>
    let (reports, scanner) := scanner.push piece
    let (more, scanner) := scanner.pushAll rest
    (reports ++ more, scanner)

end Scanner

/-- A frame around a body. -/
def encode (body : String) : List UInt8 :=
  utf8Bytes s!"Content-Length: {body.utf8ByteSize}\r\n\r\n" ++ utf8Bytes body

end Frame

end LiveCoding
