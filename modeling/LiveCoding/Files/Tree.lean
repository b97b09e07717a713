import LiveCoding.Interpreter.Program

/-!
# The tree of files

Names stand for files, for programs, and for directories that hold further names.

## Main Definitions

* `Files.Entry`: what a name stands for, with everything below it.
* `Files.Place`: the names on the way to an entry.
* `Files.Entry.at?`, `Files.Entry.setAt`: what there is at a place, and something else
  there.
* `Files.Change`: what somebody else may do to the tree.

## Design Notes

Everything goes along the place and never over the whole tree, so the work grows with
the length of the way and not with the number of files.
-/

namespace LiveCoding

/-- What a name stands for. -/
inductive Files.Entry where
  | file (content : List UInt8)
  /-- A file that can be started. -/
  | program (program : Program)
  | directory (members : List (Path.Segment × Files.Entry))

/-- A place in the tree: the names on the way to it from the root. -/
abbrev Files.Place := List Path.Segment

namespace Files

namespace Entry

instance : Inhabited Entry := ⟨.directory []⟩

/-- Whether an entry is a directory. -/
def isDirectory : Entry → Bool
  | .directory _ => true
  | _ => false

/-- The names in a directory and what they stand for. -/
def members : Entry → List (Path.Segment × Entry)
  | .directory members => members
  | _ => []

/-- What a name in a directory stands for. -/
def member? (entry : Entry) (name : Path.Segment) : Option Entry :=
  entry.members.lookup name

/-- The directory in which a name stands for something else, or for nothing. -/
def setMember (entry : Entry) (name : Path.Segment) (new : Option Entry) : Entry :=
  .directory ((new.map (name, ·)).toList ++ entry.members.filter fun member => member.1 != name)

/-- What there is at a place below an entry. -/
def at? (entry : Entry) : Place → Option Entry
  | [] => some entry
  | name :: rest => (entry.member? name).bind (at? · rest)

/-- The tree with something else, or nothing, at a place.  The entry at the top stays
if nothing should take its place, and so does everything if the way to the place is
not there. -/
def setAt (new : Option Entry) (entry : Entry) : Place → Entry
  | [] => new.getD entry
  | [name] => entry.setMember name new
  | name :: rest =>
    match entry.member? name with
    | none => entry
    | some member => entry.setMember name (some (setAt new member rest))

/-- A tree that holds nothing but the directories on the way to a place. -/
def wayTo : Place → Entry
  | [] => .directory []
  | name :: rest => .directory [(name, wayTo rest)]

end Entry

/-- What somebody else may do to the tree. -/
inductive Change where
  /-- What is at a place is made or written. -/
  | written (place : Place)
  /-- What is at a place is removed. -/
  | removed (place : Place)
  /-- What is at one place goes to another, where something may have been. -/
  | moved (source target : Place)
deriving DecidableEq, Repr

namespace Change

/-- The places where something happens in a change. -/
def places : Change → List Place
  | .written place | .removed place => [place]
  | .moved source target => [source, target]

/-- Where a directory is after a change, if it is still there. -/
def follow (change : Change) (directory : Place) : Option Place :=
  match change with
  | .written _ => some directory
  | .removed place => if place == directory then none else some directory
  | .moved source target =>
    if source.isPrefixOf directory then some (target ++ directory.drop source.length)
    else if target == directory then none
    else some directory

end Change

end Files

end LiveCoding
