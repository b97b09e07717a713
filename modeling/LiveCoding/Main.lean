import LiveCoding.CommandLine.Run

/-!
# The program

Reads what a command line needs from the surroundings, runs it, and hands back what
came of it.  No sockets and no programs are at hand here, so a command that talks to
an interpreter reports that the network cannot be reached.
-/

namespace LiveCoding

namespace Shell

/-- The working directory, as the shell tells it. -/
def currentDirectory : IO String := do
  return (← IO.getEnv "PWD").getD "/"

/-- A path from the root. -/
def absolute (directory : String) (path : Path) : Path :=
  (Path.ofText directory).join path

/-- Adds the file at a path, and the directories above it, if it is there. -/
def addFile (directory : String) (files : Files) (path : Path) : IO Files := do
  let path := absolute directory path
  let files := match path.parent? with
    | none => files
    | some parent => (files.makeDirectories parent).1
  try
    let content ← IO.FS.readBinFile path.display
    match files.write path content.data.toList with
    | .ok files => return files
    | .error _ => return files
  catch
    | .inappropriateType .. => return (files.makeDirectories path).1
    | _ => return files

/-- The files that a request can read. -/
def needed (home : Store.Home) : Arguments.Request → List Path
  | .run _ (.evaluate file _ _) | .run _ (.evaluateFile file _) | .run _ (.locate file _ _) =>
    [Store.globalPath home, Store.localPath, .ofText file]
  | _ => [Store.globalPath home, Store.localPath]

/-- Carries a change of one file out. -/
def commit (directory : String) (path : Path) (before after : Files) : IO Unit := do
  let place := absolute directory path
  let held (files : Files) := (files.read path).toOption
  match held before, held after with
  | some _, none => IO.FS.removeFile place.display
  | old, some content =>
    if old != some content then
      if let some parent := place.parent? then IO.FS.createDirAll parent.display
      IO.FS.writeBinFile place.display ⟨content.toArray⟩
  | none, none => return

end Shell

end LiveCoding

open LiveCoding in
/-- Runs a command line. -/
def main (arguments : List String) : IO UInt32 := do
  let home : Store.Home := ⟨← IO.getEnv "XDG_CONFIG_HOME", ← IO.getEnv "HOME"⟩
  let directory ← Shell.currentDirectory
  let request := Arguments.read arguments
  let bare := Files.within ((Path.ofText directory).segments.filter (!·.isEmpty))
  let files ← (Shell.needed home request).foldlM (Shell.addFile directory) bare
  let input ← match request with
    | .run _ (.languageServer _) => (← IO.getStdin).readBinToEnd
    | _ => pure ByteArray.empty
  let (world, outcome) :=
    CommandLine.run { files } home arguments input.data.toList
  Shell.commit directory (Store.globalPath home) files world.files
  (← IO.getStdout).write ⟨outcome.transcript.output.toArray⟩
  (← IO.getStderr).putStr outcome.transcript.notices
  if outcome.code == 2 then IO.eprint "For more information, try '--help'.\n"
  return outcome.code.toUInt32
