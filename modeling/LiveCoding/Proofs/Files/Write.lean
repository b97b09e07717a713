import LiveCoding.Files.Basic
import LiveCoding.Proofs.Files.Tree

/-!
# What was written is read back

Writing a file and making a directory put one entry where none is, or in place of a file.
All that there was is still there, so a path goes the same way afterwards as before, and
ends at what was written.

## Main Definitions

* `Files.Keeps`: all that there was is still there.
* `Files.Sound`: a walk that goes along the tree.
* `Files.HasWorkingDirectory`: there is something at the working directory.

## Main Statements

* `Files.keeps_makeDirectories`: making directories keeps all that there was.
* `Files.find_of_write`: what was written is found by its path.
-/

namespace LiveCoding

namespace Files

variable {files later : Files} {walk walk' next : Walk} {path : Path} {place : Place}
variable {entry : Entry} {name segment : Path.Segment} {content : List UInt8}

/-- There is something at the working directory. -/
def HasWorkingDirectory (files : Files) : Prop :=
  ∃ entry, files.entryAt? files.workingDirectory = some entry

/-- All that there was is still there, and a directory is still one. -/
structure Keeps (files later : Files) : Prop where
  workingDirectory : later.workingDirectory = files.workingDirectory
  entryAt? : ∀ {place entry}, files.entryAt? place = some entry →
    ∃ entry', later.entryAt? place = some entry' ∧
      (entry.isDirectory = true → entry'.isDirectory = true)

theorem Keeps.refl (files : Files) : Keeps files files :=
  ⟨rfl, fun h => ⟨_, h, id⟩⟩

theorem Keeps.trans {last : Files} (h : Keeps files later) (h' : Keeps later last) :
    Keeps files last := by
  refine ⟨h'.workingDirectory.trans h.workingDirectory, fun hentry => ?_⟩
  obtain ⟨entry', hentry', directory⟩ := h.entryAt? hentry
  obtain ⟨entry'', hentry'', directory'⟩ := h'.entryAt? hentry'
  exact ⟨entry'', hentry'', directory' ∘ directory⟩

theorem Keeps.hasWorkingDirectory (h : Keeps files later) (here : files.HasWorkingDirectory) :
    later.HasWorkingDirectory := by
  obtain ⟨entry, hentry⟩ := here
  obtain ⟨entry', hentry', -⟩ := h.entryAt? hentry
  exact ⟨entry', by rw [h.workingDirectory, hentry']⟩

theorem keeps_put (hold : ∀ old, files.entryAt? place = some old → old.isDirectory = false)
    (entry : Entry) : Keeps files (files.put place entry) :=
  ⟨rfl, fun h => Entry.exists_at?_setAt hold h entry⟩

/-! ### Walks -/

/-- A walk that goes along the tree. -/
def Sound (files : Files) : Walk → Prop
  | [] => True
  | (name, entry) :: walk => (files.reached walk).member? name = some entry ∧ Sound files walk

theorem place_cons (name : Path.Segment) (entry : Entry) (walk : Walk) :
    Walk.place ((name, entry) :: walk) = walk.place ++ [name] := by
  rw [Walk.place, List.map_cons, List.reverse_cons]
  rfl

/-- A sound walk leads to what is at its place. -/
theorem Sound.entryAt? (h : Sound files walk) :
    files.entryAt? walk.place = some (files.reached walk) := by
  induction walk with
  | nil => rfl
  | cons last walk ih =>
    obtain ⟨name, entry⟩ := last
    have before : files.root.at? (Walk.place walk) = some (files.reached walk) := ih h.2
    rw [place_cons, Files.entryAt?, Entry.at?_append, before, Option.bind_some, Entry.at?, h.1]
    rfl

theorem Sound.member? (h : Sound files walk)
    (hentry : files.entryAt? (walk.place ++ [name]) = some entry) :
    (files.reached walk).member? name = some entry := by
  have before : files.root.at? walk.place = some (files.reached walk) := h.entryAt?
  rw [Files.entryAt?, Entry.at?_append, before, Option.bind_some] at hentry
  obtain ⟨member, hmember, hentry⟩ := Option.bind_eq_some_iff.mp hentry
  obtain rfl := Option.some.inj hentry
  exact hmember

theorem Sound.tail (h : Sound files walk) : Sound files walk.tail := by
  cases walk with
  | nil => trivial
  | cons last walk => exact h.2

/-- The walk to a place that is there is sound, and goes along the place. -/
theorem sound_walkTo (h : files.entryAt? place = some entry) :
    Sound files (files.walkTo place) ∧ (files.walkTo place).map (·.1) = place.reverse := by
  have along : ∀ (place : Place) (walk : Walk), Sound files walk →
      (files.reached walk).at? place = some entry →
      ∀ walk', walk' = place.foldl (fun walk name =>
        (name, ((files.reached walk).member? name).getD (.directory [])) :: walk) walk →
      Sound files walk' ∧ walk'.map (·.1) = place.reverse ++ walk.map (·.1) := by
    intro place
    induction place with
    | nil =>
      rintro walk sound - _ rfl
      exact ⟨sound, rfl⟩
    | cons name place ih =>
      rintro walk sound hplace _ rfl
      obtain ⟨member, hmember, hplace⟩ := Option.bind_eq_some_iff.mp hplace
      rw [List.foldl_cons, hmember, Option.getD_some]
      have further := ih ((name, member) :: walk) ⟨hmember, sound⟩ hplace _ rfl
      rw [List.reverse_cons, List.append_assoc]
      exact further
  have found := along place [] trivial h _ rfl
  rw [List.map_nil, List.append_nil] at found
  exact found

/-- Two sound walks with the same names, each in its own tree. -/
structure Alongside (files later : Files) (walk walk' : Walk) : Prop where
  sound : Sound files walk
  sound' : Sound later walk'
  names : walk'.map (·.1) = walk.map (·.1)

theorem Alongside.place_eq (h : Alongside files later walk walk') : walk'.place = walk.place :=
  congrArg List.reverse h.names

theorem Alongside.isDirectory (keeps : Keeps files later) (h : Alongside files later walk walk')
    (directory : (files.reached walk).isDirectory = true) :
    (later.reached walk').isDirectory = true := by
  obtain ⟨entry', hentry', still⟩ := keeps.entryAt? h.sound.entryAt?
  rw [← h.place_eq, h.sound'.entryAt?] at hentry'
  obtain rfl := Option.some.inj hentry'
  exact still directory

theorem Alongside.member? (keeps : Keeps files later) (h : Alongside files later walk walk')
    (hmember : (files.reached walk).member? name = some entry) :
    ∃ entry', Alongside files later ((name, entry) :: walk) ((name, entry') :: walk') := by
  have sound : Sound files ((name, entry) :: walk) := ⟨hmember, h.sound⟩
  obtain ⟨entry', hentry', -⟩ := keeps.entryAt? sound.entryAt?
  rw [place_cons, ← h.place_eq] at hentry'
  refine ⟨entry', sound, ⟨h.sound'.member? hentry', h.sound'⟩, ?_⟩
  rw [List.map_cons, List.map_cons, h.names]

/-- A segment leads further in both trees. -/
theorem Alongside.step (keeps : Keeps files later) (h : Alongside files later walk walk')
    (hstep : files.step walk segment = .ok next) :
    ∃ next', later.step walk' segment = .ok next' ∧ Alongside files later next next' := by
  unfold Files.step at hstep ⊢
  split at hstep
  next stays =>
    obtain rfl := Except.ok.inj hstep
    exact ⟨walk', if_pos stays, h⟩
  next stays =>
    rw [if_neg stays]
    split at hstep
    next goesUp =>
      obtain rfl := Except.ok.inj hstep
      refine ⟨walk'.tail, if_pos goesUp, h.sound.tail, h.sound'.tail, ?_⟩
      rw [List.map_tail, List.map_tail, h.names]
    next goesUp =>
      rw [if_neg goesUp]
      split at hstep
      · contradiction
      next short =>
        rw [if_neg short]
        split at hstep
        · contradiction
        next entry hmember =>
          obtain rfl := Except.ok.inj hstep
          obtain ⟨entry', h'⟩ := h.member? keeps hmember
          exact ⟨_, by rw [h'.sound'.1], h'⟩

/-- All segments lead further in both trees. -/
theorem Alongside.steps {segments : List Path.Segment} (keeps : Keeps files later)
    (h : Alongside files later walk walk') (hsteps : files.steps walk segments = .ok next) :
    ∃ next', later.steps walk' segments = .ok next' ∧ Alongside files later next next' := by
  induction segments generalizing walk walk' with
  | nil =>
    obtain rfl := Except.ok.inj hsteps
    exact ⟨walk', rfl, h⟩
  | cons segment segments ih =>
    rw [Files.steps] at hsteps ⊢
    split at hsteps
    · contradiction
    next directory =>
      have directory' := h.isDirectory keeps (by simpa using directory)
      rw [directory', Bool.not_true, if_neg Bool.false_ne_true]
      split at hsteps
      · contradiction
      next further hstep =>
        obtain ⟨further', hstep', h'⟩ := h.step keeps hstep
        rw [hstep']
        exact ih h' hsteps

theorem alongside_origin (here : files.HasWorkingDirectory) (keeps : Keeps files later)
    (path : Path) : Alongside files later (files.origin path) (later.origin path) := by
  unfold origin
  split
  · exact ⟨trivial, trivial, rfl⟩
  · obtain ⟨entry, hentry⟩ := here
    obtain ⟨entry', hentry', -⟩ := keeps.entryAt? hentry
    rw [keeps.workingDirectory]
    obtain ⟨sound, names⟩ := sound_walkTo hentry
    obtain ⟨sound', names'⟩ := sound_walkTo hentry'
    exact ⟨sound, sound', names'.trans names.symm⟩

theorem steps_append (files : Files) (walk : Walk) (front back : List Path.Segment) :
    files.steps walk (front ++ back) =
      match files.steps walk front with
      | .error fault => .error fault
      | .ok next => files.steps next back := by
  induction front generalizing walk with
  | nil => rfl
  | cons segment front ih =>
    rw [List.cons_append, steps, steps]
    split
    · rfl
    · cases files.step walk segment with
      | error fault => rfl
      | ok next => exact ih next

/-! ### Something new -/

/-- A place for something new is a name that is not taken apart, behind a walk to a
directory. -/
theorem newcomer_eq_ok {slashes : Bool} (h : files.newcomer path = .ok (some (place, slashes))) :
    pathFault? path = none ∧ ∃ before name walk,
      path.segments.reverse.dropWhile List.isEmpty = name :: before ∧
      files.steps (files.origin path) before.reverse = .ok walk ∧
      (files.reached walk).isDirectory = true ∧ name ≠ Path.here ∧ name ≠ Path.up ∧
      name.length ≤ maxName ∧ place = walk.place ++ [name] ∧
      slashes = (path.segments.getLast? == some []) := by
  unfold newcomer at h
  cases hfault : pathFault? path with
  | some fault =>
    rw [hfault] at h
    contradiction
  | none =>
    rw [hfault] at h
    refine ⟨rfl, ?_⟩
    simp only [bind, Except.bind, pure, Except.pure] at h
    split at h
    · exact absurd (Except.ok.inj h) (by simp)
    next name before hlast =>
      split at h
      · contradiction
      next walk hwalk =>
        refine ⟨before, name, walk, hlast, hwalk, ?_⟩
        split at h
        · contradiction
        next directory =>
          split at h
          · exact absurd (Except.ok.inj h) (by simp)
          next named =>
            split at h
            · contradiction
            next short =>
              obtain ⟨rfl, rfl⟩ := Prod.mk.inj (Option.some.inj (Except.ok.inj h))
              rw [Bool.or_eq_true, beq_iff_eq, beq_iff_eq] at named
              exact ⟨by simpa using directory, (not_or.mp named).1, (not_or.mp named).2,
                Nat.le_of_not_lt short, rfl, rfl⟩

theorem write_eq_ok (h : files.write path content = .ok later) :
    ∃ place, files.newcomer path = .ok (some (place, false)) ∧
      (∀ old, files.entryAt? place = some old → old.isDirectory = false) ∧
      later = files.put place (.file content) := by
  unfold write at h
  simp only [bind, Except.bind, pure, Except.pure] at h
  split at h
  · contradiction
  next found hfound =>
    split at h
    · contradiction
    · contradiction
    next place =>
      refine ⟨place, hfound, ?_⟩
      split at h
      · contradiction
      next leaf =>
        refine ⟨?_, (Except.ok.inj h).symm⟩
        intro old hold
        cases old with
        | file | program => rfl
        | directory members => exact absurd hold (leaf members)

theorem makeDirectory_eq_ok (h : files.makeDirectory path = .ok later) :
    ∃ place, files.entryAt? place = none ∧ later = files.put place (.directory []) := by
  unfold makeDirectory at h
  simp only [bind, Except.bind, pure, Except.pure] at h
  split at h
  · contradiction
  · split at h
    · contradiction
    next place _ _ =>
      split at h
      · contradiction
      next free => exact ⟨place, free, (Except.ok.inj h).symm⟩

theorem keeps_makeDirectory (h : files.makeDirectory path = .ok later) : Keeps files later := by
  obtain ⟨place, free, rfl⟩ := makeDirectory_eq_ok h
  refine keeps_put (fun old hold => ?_) _
  rw [free] at hold
  contradiction

theorem keeps_makeMissing (files : Files) (path : Path) (ways : List (List Path.Segment)) :
    Keeps files (files.makeMissing path ways).1 := by
  induction ways generalizing files path with
  | nil =>
    unfold makeMissing
    split
    · exact Keeps.refl files
    · split
      next hmade => exact keeps_makeDirectory hmade
      next => exact Keeps.refl files
      next => contradiction
      next => split <;> exact Keeps.refl files
  | cons way ways ih =>
    unfold makeMissing
    split
    · exact Keeps.refl files
    · split
      next hmade => exact keeps_makeDirectory hmade
      next => contradiction
      next heq =>
        obtain ⟨rfl, rfl⟩ := List.cons.inj heq
        have above := ih files (.ofSegments path.isAbsolute way)
        split
        next hfailed =>
          rw [hfailed] at above
          exact above
        next hdone =>
          rw [hdone] at above
          split
          next hmade => exact above.trans (keeps_makeDirectory hmade)
          next => split <;> exact above
      next => split <;> exact Keeps.refl files

/-- **Making directories keeps all that there was**, also where it fails half way. -/
theorem keeps_makeDirectories (files : Files) (path : Path) :
    Keeps files (files.makeDirectories path).1 :=
  keeps_makeMissing files path path.ways

/-- If no slash follows the name, the name is the last segment. -/
theorem segments_of_no_slash {before : List Path.Segment}
    (hlast : path.segments.reverse.dropWhile List.isEmpty = name :: before)
    (flag : false = (path.segments.getLast? == some [])) :
    path.segments = before.reverse ++ [name] ∧ name ≠ [] := by
  have notEmpty : path.segments.reverse.head? ≠ some [] := by
    rw [List.head?_reverse]
    exact ne_of_beq_false flag.symm
  cases hreverse : path.segments.reverse with
  | nil =>
    rw [hreverse] at hlast
    contradiction
  | cons last rest =>
    rw [hreverse] at hlast notEmpty
    have nonempty : last ≠ [] := fun h => notEmpty (congrArg some h)
    rw [List.dropWhile_cons_of_neg (by simpa using nonempty)] at hlast
    obtain ⟨rfl, rfl⟩ := List.cons.inj hlast
    refine ⟨?_, nonempty⟩
    rw [← List.reverse_cons, ← hreverse, List.reverse_reverse]

/-- **What was written is found** by the same path. -/
theorem find_of_write (here : files.HasWorkingDirectory)
    (h : files.write path content = .ok later) :
    ∃ place, later.find path = .ok (place, .file content) := by
  obtain ⟨place, hplace, leaf, rfl⟩ := write_eq_ok h
  obtain ⟨usable, before, name, walk, hlast, hwalk, directory, notHere, notUp, short, rfl, flag⟩ :=
    newcomer_eq_ok hplace
  obtain ⟨segments, nonempty⟩ := segments_of_no_slash hlast flag
  have keeps := keeps_put leaf (.file content)
  obtain ⟨walk', hwalk', alongside⟩ := (alongside_origin here keeps path).steps keeps hwalk
  have directory' := alongside.isDirectory keeps directory
  have written : (files.put (walk.place ++ [name]) (.file content)).entryAt?
      (walk'.place ++ [name]) = some (.file content) := by
    rw [alongside.place_eq]
    exact Entry.at?_setAt_self alongside.sound.entryAt? name _
  have hmember := alongside.sound'.member? written
  -- the last segment is a name that leads to what was written
  have last : (files.put (walk.place ++ [name]) (.file content)).step walk' name =
      .ok ((name, .file content) :: walk') := by
    have named : (name.isEmpty || name == Path.here) = false := by
      simp [nonempty, notHere]
    rw [step, named, if_neg Bool.false_ne_true, if_neg (by simpa using notUp),
      if_neg (Nat.not_lt_of_le short), hmember]
  refine ⟨Walk.place ((name, .file content) :: walk'), ?_⟩
  rw [find, usable]
  dsimp only
  rw [segments, steps_append, hwalk']
  dsimp only
  rw [steps, directory', Bool.not_true, if_neg Bool.false_ne_true, last]
  rfl

end Files

end LiveCoding
