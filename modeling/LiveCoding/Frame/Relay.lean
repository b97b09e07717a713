import LiveCoding.Fault
import LiveCoding.Frame.Scanner
import LiveCoding.Network

/-!
# The relay between editor and language server

An editor talks to a language server over its standard streams; the server
listens on the network.  A relay passes the bytes on in both directions, exactly
as they come.  It scans them for frames on the way, but only to report what
passes; what the scanner makes of them changes nothing.

## Main Definitions

* `Relay.Event`: what comes of one attempt to read.
* `Relay.Writer`: what comes of the attempts to write.
* `Relay.Flow.forward`: what becomes of a piece that was read.
* `Relay.pump`: one direction, from a sequence of reads to a writer.
* `Relay.bridge`: both directions, until the server closes.
-/

namespace LiveCoding

namespace Relay

/-- What comes of one attempt to read. -/
inductive Event where
  /-- Some bytes; none of them means the end of the input. -/
  | bytes (piece : List UInt8)
  /-- Nothing yet; the attempt is to be repeated. -/
  | interrupted
  /-- The input is broken. -/
  | failed (fault : Fault)
deriving DecidableEq, Repr

/-- A writer takes a piece whole or fails and takes none of it.  What it has taken it
passes on, which can fail too.  It is told how many bytes it passed on before. -/
structure Writer where
  /-- Whether a piece is taken. -/
  take : Nat → List UInt8 → Except Fault Unit
  /-- Whether a piece that was taken is passed on. -/
  flush : Nat → List UInt8 → Except Fault Unit := fun _ _ => .ok ()

/-- A writer that takes everything. -/
def Writer.open : Writer where
  take _ _ := .ok ()

/-- A writer that has no room. -/
def Writer.full : Writer where
  take _ _ := .error .storageFull

/-- One direction of a relay so far. -/
structure Flow where
  /-- The bytes that the writer took. -/
  written : List UInt8 := []
  /-- How many bytes the writer passed on. -/
  count : Nat := 0
  /-- The scanner that looks at what was read. -/
  scanner : Frame.Scanner := .start
  /-- What the scanner reported. -/
  reports : List Frame.Report := []
deriving Inhabited

/-- A piece that was read goes to the scanner and then to the writer.  It counts once
the writer has passed it on. -/
def Flow.forward (flow : Flow) (writer : Writer) (piece : List UInt8) :
    Flow × Except Fault Unit :=
  let (reports, scanner) := flow.scanner.push piece
  let seen := { flow with scanner, reports := flow.reports ++ reports }
  match writer.take flow.count piece with
  | .error fault => (seen, .error fault)
  | .ok () =>
    let taken := { seen with written := flow.written ++ piece }
    match writer.flush flow.count piece with
    | .error fault => (taken, .error fault)
    | .ok () => ({ taken with count := flow.count + piece.length }, .ok ())

/-- Passes on what is read until the input ends or something fails.  Where the
events end, the input does. -/
def pump (writer : Writer) (flow : Flow) : List Event → Flow × Except Fault Unit
  | [] | .bytes [] :: _ => (flow, .ok ())
  | .interrupted :: rest => pump writer flow rest
  | .failed fault :: _ => (flow, .error fault)
  | .bytes piece :: rest =>
    match flow.forward writer piece with
    | (flow, .error fault) => (flow, .error fault)
    | (flow, .ok ()) => pump writer flow rest

/-- The most bytes that one read takes. -/
def maxRead : Nat := 8192

/-- The reads that it takes to read some bytes. -/
def reads (bytes : List UInt8) : List Event :=
  match bytes with
  | [] => []
  | first :: rest =>
    .bytes (first :: rest.take (maxRead - 1)) :: reads (rest.drop (maxRead - 1))
termination_by bytes.length
decreasing_by simp only [List.length_drop, List.length_cons]; omega

/-- What passed a bridge, and how it ended. -/
structure Passage where
  toServer : Flow
  toClient : Flow
  ending : Except Fault Unit
deriving Inhabited

/-- Passes the input of an editor to a server and the answer of the server to the
editor.  An editor that stays silent sends nothing and never ends its input; the
bridge ends when the server closes. -/
def bridge (answer : List UInt8) (input : Option (List UInt8)) (output : Writer) : Passage :=
  let (toServer, _) := pump .open {} (reads (input.getD []))
  let (toClient, ending) := pump output {} (reads answer)
  { toServer, toClient, ending }

end Relay

end LiveCoding
