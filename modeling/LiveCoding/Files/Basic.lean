import LiveCoding.Files.Tree

/-!
# Files

Documents, settings and programs are found by path.  `Files` is a tree with one of
its directories as the working directory, from which relative paths start.

## Main Definitions

* `Files`: what there is.
* `Files.find`: what a path leads to, or why it leads nowhere.
* `Files.read`, `Files.write`, `Files.makeDirectories`, `Files.removeFile`,
  `Files.rename`: what can be done.
* `Files.program`: the program that a path starts.

## Design Notes

A path is walked segment by segment, and every segment needs a directory to start
from, even one that stays there.  So a slash behind the name of a file is a fault.
Going up from the root stays at the root.
-/

namespace LiveCoding

/-- A tree with a working directory. -/
structure Files where
  /-- The root and everything below it. -/
  root : Files.Entry := .directory []
  /-- Where relative paths start. -/
  workingDirectory : Files.Place := []

namespace Files

instance : Inhabited Files := ⟨{}⟩

/-- A tree with nothing but the way to its working directory. -/
def within (place : Place) : Files where
  root := .wayTo place
  workingDirectory := place

/-- The longest name that a directory can hold. -/
def maxName : Nat := 255

/-- The longest path that the system takes. -/
def maxPath : Nat := 4095

/-- A walk down the tree: the names taken and what they stand for, last one first. -/
abbrev Walk := List (Path.Segment × Entry)

/-- Where a walk has led. -/
def Walk.place (walk : Walk) : Place :=
  (walk.map (·.1)).reverse

/-- What a walk has led to. -/
def reached (files : Files) (walk : Walk) : Entry :=
  (walk.head?.map (·.2)).getD files.root

/-- The walk to a place; directories that are missing on the way count as empty. -/
def walkTo (files : Files) (place : Place) : Walk :=
  place.foldl (fun walk name =>
    (name, ((files.reached walk).member? name).getD (.directory [])) :: walk) []

/-- A segment further, from a directory. -/
def step (files : Files) (walk : Walk) (segment : Path.Segment) : Except Fault Walk :=
  if segment.isEmpty || segment == Path.here then .ok walk
  else if segment == Path.up then .ok walk.tail
  else if segment.length > maxName then .error .nameTooLong
  else
    match (files.reached walk).member? segment with
    | none => .error .notFound
    | some entry => .ok ((segment, entry) :: walk)

/-- All segments further. -/
def steps (files : Files) (walk : Walk) : List Path.Segment → Except Fault Walk
  | [] => .ok walk
  | segment :: rest =>
    if !(files.reached walk).isDirectory then .error .notADirectory
    else
      match files.step walk segment with
      | .error fault => .error fault
      | .ok walk => files.steps walk rest

/-- Why a path leads nowhere at all. -/
def pathFault? (path : Path) : Option Fault :=
  if path.bytes.contains 0 then some .nulInName
  else if path.isEmpty then some .notFound
  else if path.bytes.length > maxPath then some .nameTooLong
  else none

/-- The walk with which a path starts. -/
def origin (files : Files) (path : Path) : Walk :=
  if path.isAbsolute then [] else files.walkTo files.workingDirectory

/-- What a path leads to. -/
def find (files : Files) (path : Path) : Except Fault (Place × Entry) :=
  match pathFault? path with
  | some fault => .error fault
  | none =>
    match files.steps (files.origin path) path.segments with
    | .error fault => .error fault
    | .ok walk => .ok (walk.place, files.reached walk)

/-- Whether a path leads anywhere. -/
def contains (files : Files) (path : Path) : Bool :=
  (files.find path).isOk

/-- Whether a path leads to a directory. -/
def isDirectory (files : Files) (path : Path) : Bool :=
  match files.find path with
  | .ok (_, entry) => entry.isDirectory
  | .error _ => false

/-- The bytes of a file. -/
def read (files : Files) (path : Path) : Except Fault (List UInt8) :=
  match files.find path with
  | .error fault => .error fault
  | .ok (_, .directory _) => .error .isADirectory
  | .ok (_, .program _) => .ok []
  | .ok (_, .file content) => .ok content

/-- What there is at a place. -/
def entryAt? (files : Files) (place : Place) : Option Entry :=
  files.root.at? place

/-- The same tree without what is at a place. -/
def without (files : Files) (place : Place) : Files :=
  { files with root := files.root.setAt none place }

/-- The same tree with an entry at a place. -/
def put (files : Files) (place : Place) (entry : Entry) : Files :=
  { files with root := files.root.setAt (some entry) place }

/-- The place where a path wants something new, unless the path cannot name
anything new.  The flag tells whether slashes follow the name. -/
def newcomer (files : Files) (path : Path) : Except Fault (Option (Place × Bool)) := do
  if let some fault := pathFault? path then throw fault
  match path.segments.reverse.dropWhile List.isEmpty with
  | [] => return none
  | name :: before =>
    let walk ← files.steps (files.origin path) before.reverse
    if !(files.reached walk).isDirectory then throw .notADirectory
    if name == Path.here || name == Path.up then return none
    if name.length > maxName then throw .nameTooLong
    return some (walk.place ++ [name], path.segments.getLast? == some [])

/-- Writes a file, in place of one that may be there. -/
def write (files : Files) (path : Path) (content : List UInt8) : Except Fault Files := do
  match ← files.newcomer path with
  | none | some (_, true) => throw .isADirectory
  | some (place, false) =>
    match files.entryAt? place with
    | some (.directory _) => throw .isADirectory
    | _ => return files.put place (.file content)

/-- Makes a directory where nothing is. -/
def makeDirectory (files : Files) (path : Path) : Except Fault Files := do
  match ← files.newcomer path with
  | none => throw .alreadyExists
  | some (place, _) =>
    match files.entryAt? place with
    | some _ => throw .alreadyExists
    | none => return files.put place (.directory [])

/-- Makes a directory, and before it whatever is missing on the ways to those above
it.  A directory that is there is fine. -/
def makeMissing (files : Files) (path : Path) (ways : List (List Path.Segment)) :
    Files × Except Fault Unit :=
  if path.isEmpty then (files, .ok ())
  else
    match files.makeDirectory path, ways with
    | .ok files, _ => (files, .ok ())
    | .error .notFound, [] => (files, .error .notFound)
    | .error .notFound, way :: ways =>
      match files.makeMissing (.ofSegments path.isAbsolute way) ways with
      | (files, .error fault) => (files, .error fault)
      | (files, .ok ()) =>
        match files.makeDirectory path with
        | .ok files => (files, .ok ())
        | .error fault =>
          if files.isDirectory path then (files, .ok ()) else (files, .error fault)
    | .error fault, _ =>
      if files.isDirectory path then (files, .ok ()) else (files, .error fault)

/-- Makes a directory and whatever parents of it are missing. -/
def makeDirectories (files : Files) (path : Path) : Files × Except Fault Unit :=
  files.makeMissing path path.ways

/-- Removes a file. -/
def removeFile (files : Files) (path : Path) : Except Fault Files :=
  match files.find path with
  | .error fault => .error fault
  | .ok (_, .directory _) => .error .isADirectory
  | .ok (place, _) => .ok (files.without place)

/-- Gives a file or a directory another name, in place of a file or an empty
directory that may be there. -/
def rename (files : Files) (path target : Path) : Except Fault Files := do
  let (source, entry) ← files.find path
  match ← files.newcomer target with
  | none => throw .invalidArgument
  | some (place, slashes) =>
    if slashes && !entry.isDirectory then throw .notADirectory
    if place == source then return files
    if source.isPrefixOf place then throw .invalidArgument
    match files.entryAt? place, entry.isDirectory with
    | some (.directory _), false => throw .isADirectory
    | some (.directory (_ :: _)), true => throw .directoryNotEmpty
    | some (.file _), true | some (.program _), true => throw .notADirectory
    | _, _ => return (files.without source).put place entry

/-- The program that a path starts.  A bare name is looked for among the installed
programs, of which there are none; it still has to be one that a directory can hold. -/
def program (files : Files) (name : String) : Except Fault Program :=
  let path := Path.ofText name
  if path.bytes.contains 0 then .error .nulInArgument
  else if path.bytes == Path.here || path.bytes == Path.up then .error .permissionDenied
  else if !path.bytes.contains Path.slash then
    .error (if path.bytes.length > maxName then .nameTooLong else .notFound)
  else
    match files.find path with
    | .error fault => .error fault
    | .ok (_, .program program) => .ok program
    | .ok (_, _) => .error .permissionDenied

end Files

end LiveCoding
