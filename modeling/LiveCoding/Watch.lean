import LiveCoding.Files.Basic

/-!
# Watching a file

A file is evaluated again whenever it is saved.  Editors save in bursts, and some
save by renaming, so the directory is watched and a save is reported once nothing
more has happened for a while.

## Main Definitions

* `Debounce`: changes that have not been reported, and `Debounce.poll`.
* `Watch`: a watched file.
* `Watch.start`: where to watch.
* `Watch.notice`: a change, and whether it counts.
* `Watch.poll`: a look at the clock.

## Design Notes

The clock is an argument of each poll.  A change counts from the poll that sees it,
so every poll that sees one starts the wait anew.

It is the directory itself that is watched and not its name: a directory that goes
elsewhere is watched there, and one that is removed is not watched any more.
-/

namespace LiveCoding

/-- A wait for quiet. -/
structure Debounce where
  /-- How long it has to be quiet, in milliseconds. -/
  quiet : Nat
  /-- When a change was last noticed that has not been reported. -/
  dirtySince : Option Nat := none
deriving DecidableEq, Repr

namespace Debounce

/-- A look at the clock, after which changes were noticed or not.  The flag reports
them once it has been quiet for long enough. -/
def poll (debounce : Debounce) (now : Nat) (touched : Bool) : Debounce × Bool :=
  let dirtySince := if touched then some now else debounce.dirtySince
  match dirtySince with
  | none => ({ debounce with dirtySince }, false)
  | some since =>
    if debounce.quiet ≤ now - since then ({ debounce with dirtySince := none }, true)
    else ({ debounce with dirtySince }, false)

/-- What each of several polls reports. -/
def pollAll (debounce : Debounce) : List (Nat × Bool) → List Bool
  | [] => []
  | (now, touched) :: later =>
    let (debounce, report) := debounce.poll now touched
    report :: debounce.pollAll later

end Debounce

/-- A watched file. -/
structure Watch where
  /-- The file: the way to it from the root, or as it was named if it is not there. -/
  file : Path
  /-- Where the directory is whose changes are noticed, as long as there is one. -/
  directory : Option Files.Place
  /-- The name of the file in it. -/
  name : Option Path.Segment
  /-- Whether what happens to the directory itself counts. -/
  followsDirectory : Bool
  /-- Whether something has happened that counts and that no poll has seen. -/
  touched : Bool := false
  debounce : Debounce
deriving DecidableEq, Repr

namespace Watch

/-- Starts to watch the file at a path.  The file need not be there, but what should
be its directory has to be.  A directory that was not found through the file is known
only as it was named, so what happens to it counts if that is its way from the root,
or if it has the same name as the file. -/
def start (files : Files) (path : Path) (quiet : Nat) : Except Fault Watch :=
  match files.find path with
  | .ok (place, _) =>
    .ok
      { file := ⟨Path.slash :: [Path.slash].intercalate place⟩
        directory := some place.dropLast
        name := place.getLast?
        followsDirectory := true
        debounce := ⟨quiet, none⟩ }
  | .error _ =>
    let directory := (path.parent?.filter (!·.isEmpty)).getD ⟨Path.here⟩
    let name := path.fileName?
    match files.find directory with
    | .error fault => .error fault
    | .ok (place, _) =>
      .ok
        { file := path
          directory := some place
          name
          followsDirectory := directory.isAbsolute || (name.isSome && directory.fileName? == name)
          debounce := ⟨quiet, none⟩ }

/-- Whether what happens at a place counts: it does at the file in the directory, and
at the directory itself if that is followed. -/
def concerns (watch : Watch) (place : Files.Place) : Bool :=
  watch.directory.any fun directory =>
    (watch.followsDirectory && place == directory) ||
      (!place.isEmpty && place.dropLast == directory && place.getLast? == watch.name)

/-- Notices a change. -/
def notice (watch : Watch) (change : Files.Change) : Watch :=
  { watch with
    directory := watch.directory.bind change.follow
    touched := watch.touched || change.places.any watch.concerns }

/-- A look at the clock, which sees what has been noticed since the last one. -/
def poll (watch : Watch) (now : Nat) : Watch × Bool :=
  let (debounce, report) := watch.debounce.poll now watch.touched
  ({ watch with debounce, touched := false }, report)

end Watch

end LiveCoding
