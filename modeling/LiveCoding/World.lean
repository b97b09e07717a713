import LiveCoding.Files.Basic

/-!
# The surroundings

Everything that a session can touch but does not own: the files below the working
directory, the network, and the datagrams that have been handed to it.

## Main Definitions

* `World`: the surroundings.
* `World.emit`: a datagram is handed over.
* `World.leave`: a program leaves files behind.
* `World.later`: time has passed.
-/

namespace LiveCoding

/-- The surroundings of a session. -/
structure World where
  files : Files := {}
  network : Network := .offline
  /-- The datagrams handed over so far, in order. -/
  sent : List Datagram := []
  /-- What becomes of the network while a session waits. -/
  drift : Network → Network := id

namespace World

instance : Inhabited World := ⟨{}⟩

/-- A datagram is handed over. -/
def emit (world : World) (datagram : Datagram) : World :=
  { world with sent := world.sent ++ [datagram] }

/-- Files are left behind.  One that cannot be written is not. -/
def leave (world : World) (traces : List (Path × List UInt8)) : World :=
  let files := traces.foldl (fun (files : Files) trace =>
    match files.write trace.1 trace.2 with
    | .ok files => files
    | .error _ => files) world.files
  { world with files }

/-- Time has passed. -/
def later (world : World) : World :=
  { world with network := world.drift world.network }

end World

end LiveCoding
