import LiveCoding.Text.Split
import LiveCoding.Text.Utf8

/-!
# Paths

A path is a string of bytes, cut into segments by slashes.  Empty segments and
segments `.` say nothing, so `a//b/.` names what `a/b` names; but a path that
begins with `.` keeps it, which tells `./run` from a bare `run`.

## Main Definitions

* `Path`: the bytes.
* `Path.segments`: everything between slashes.
* `Path.fileName?`, `Path.parents`, `Path.extension?`: the parts of a path.
* `Path.join`: a path seen from another.

## Design Notes

A path need not be UTF-8.  To show one, bytes that are no character are replaced;
everything else here works on the bytes themselves.
-/

namespace LiveCoding

/-- A path, as its bytes. -/
structure Path where
  bytes : List UInt8
deriving DecidableEq, Repr

namespace Path

/-- What stands between two slashes. -/
abbrev Segment := List UInt8

/-- The byte of a slash. -/
def slash : UInt8 := 47

/-- The byte of a full stop. -/
def dot : UInt8 := 46

/-- The segment that stays where it is. -/
def here : Segment := [dot]

/-- The segment that goes up. -/
def up : Segment := [dot, dot]

/-- The path that a text writes. -/
def ofText (text : String) : Path :=
  ⟨utf8Bytes text⟩

instance : Inhabited Path := ⟨⟨[]⟩⟩

/-- The path as a text, with U+FFFD for what is no character. -/
def display (path : Path) : String :=
  String.ofList (Utf8.decodeLossy path.bytes)

/-- A path without anything in it. -/
def isEmpty (path : Path) : Bool :=
  path.bytes.isEmpty

/-- A path that begins at the root. -/
def isAbsolute (path : Path) : Bool :=
  path.bytes.head? == some slash

/-- Everything between slashes, empty segments included. -/
def segments (path : Path) : List Segment :=
  splitAll slash path.bytes

/-- The segments below the root of an absolute path, or all segments of another. -/
def relativeSegments (path : Path) : List Segment :=
  if path.isAbsolute then splitAll slash path.bytes.tail else path.segments

/-- A segment that says nothing.  A full stop says something only where it begins a
relative path. -/
def isSilent (begins : Bool) (segment : Segment) : Bool :=
  segment.isEmpty || (segment == here && !begins)

/-- Leaves out the segments at the end that say nothing.  The segments are given,
and returned, last one first; the first one of a relative path may be `.`. -/
def dropSilent (keepsDot : Bool) : List Segment → List Segment
  | [] => []
  | last :: before =>
    if isSilent (keepsDot && before.isEmpty) last then dropSilent keepsDot before
    else last :: before

/-- The segments of a path up to the last one that says something, last one
first. -/
def tellingSegments (path : Path) : List Segment :=
  dropSilent (!path.isAbsolute) path.relativeSegments.reverse

/-- The name of what the path leads to; a path that ends by going up or staying
has none. -/
def fileName? (path : Path) : Option Segment :=
  match path.tellingSegments with
  | [] => none
  | last :: _ => if last == here || last == up then none else some last

/-- The path of segments that are given last one first. -/
def ofSegments (absolute : Bool) (segments : List Segment) : Path :=
  let kept := (dropSilent (!absolute) segments).reverse
  let root := if absolute then [slash] else []
  ⟨root ++ [slash].intercalate kept⟩

/-- The segments in front of each one that says something, for segments that are
given last one first. -/
def waysFrom (keepsDot : Bool) : List Segment → List (List Segment)
  | [] => []
  | last :: before =>
    if isSilent (keepsDot && before.isEmpty) last then waysFrom keepsDot before
    else before :: waysFrom keepsDot before

/-- The segments, last one first, that lead to what lies above, nearest first, up to
the root or the empty path. -/
def ways (path : Path) : List (List Segment) :=
  waysFrom (!path.isAbsolute) path.relativeSegments.reverse

/-- The paths to what lies above, nearest first, up to the root or the empty
path. -/
def parents (path : Path) : List Path :=
  path.ways.map (ofSegments path.isAbsolute)

/-- The path without its last segment.  The root and the empty path have no
parent. -/
def parent? (path : Path) : Option Path :=
  path.ways.head?.map (ofSegments path.isAbsolute)

/-- What follows the last full stop of the file name.  A full stop at the
beginning of a name does not count. -/
def extension? (path : Path) : Option Segment := do
  let name ← path.fileName?
  let (after, before) ← splitFirst? dot name.reverse
  if before.isEmpty then none else some after.reverse

/-- The path `step` seen from `path`; an absolute `step` is itself. -/
def join (path step : Path) : Path :=
  if step.isAbsolute then step
  else if path.isEmpty || path.bytes.getLast? == some slash then ⟨path.bytes ++ step.bytes⟩
  else ⟨path.bytes ++ slash :: step.bytes⟩

end Path

end LiveCoding
