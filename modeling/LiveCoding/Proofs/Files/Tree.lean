import LiveCoding.Files.Tree

/-!
# Changing one place of a tree

An entry that is put at a place is found there, and whatever was at any other place is
still there: a directory on the way has one more member, or another one.

## Main Statements

* `Files.Entry.at?_setAt_self`: what was put is found.
* `Files.Entry.exists_at?_setAt`: what there was is still there.
-/

namespace LiveCoding

namespace Files

namespace Entry

variable {entry old new found : Entry} {name other : Path.Segment} {place rest : Place}

theorem at?_append (entry : Entry) (front back : Place) :
    entry.at? (front ++ back) = (entry.at? front).bind (at? · back) := by
  induction front generalizing entry with
  | nil => rfl
  | cons name front ih =>
    rw [List.cons_append, at?, at?]
    cases entry.member? name with
    | none => rfl
    | some member => exact ih member

theorem isDirectory_of_member? (h : entry.member? name = some found) :
    entry.isDirectory = true := by
  cases entry with
  | directory members => rfl
  | file | program => contradiction

/-! ### One directory -/

theorem member?_setMember_self (entry : Entry) (name : Path.Segment) (new : Entry) :
    (entry.setMember name (some new)).member? name = some new :=
  List.lookup_cons_self

theorem lookup_filter_of_ne (h : other ≠ name) (members : List (Path.Segment × Entry)) :
    (members.filter fun member => member.1 != name).lookup other = members.lookup other := by
  induction members with
  | nil => rfl
  | cons member members ih =>
    obtain ⟨key, value⟩ := member
    by_cases hkey : key = name
    · have elsewhere : (other == key) = false := by
        rw [hkey]
        exact beq_eq_false_iff_ne.mpr h
      rw [List.filter_cons_of_neg (by simp [hkey]), ih, List.lookup_cons, elsewhere]
    · rw [List.filter_cons_of_pos (by simp [hkey]), List.lookup_cons, List.lookup_cons, ih]

theorem member?_setMember_of_ne (h : other ≠ name) (entry : Entry) (new : Option Entry) :
    (entry.setMember name new).member? other = entry.member? other := by
  have elsewhere : (other == name) = false := beq_eq_false_iff_ne.mpr h
  cases new with
  | none => exact lookup_filter_of_ne h entry.members
  | some new =>
    show ((name, new) :: _).lookup other = _
    rw [List.lookup_cons, elsewhere]
    exact lookup_filter_of_ne h entry.members

/-! ### One place -/

/-- Where there is a way on, something is put further down. -/
theorem setAt_of_member? (h : entry.member? name = some old) (new : Entry) (place : Place) :
    entry.setAt (some new) (name :: place) =
      entry.setMember name (some (old.setAt (some new) place)) := by
  cases place with
  | nil => rfl
  | cons next place =>
    rw [setAt, h]
    exact List.cons_ne_nil next place

/-- Nothing changes beside the way. -/
theorem member?_setAt_of_ne (h : other ≠ name) (entry new : Entry) (place : Place) :
    (entry.setAt (some new) (name :: place)).member? other = entry.member? other := by
  cases hname : entry.member? name with
  | some old => rw [setAt_of_member? hname, member?_setMember_of_ne h]
  | none =>
    cases place with
    | nil => exact member?_setMember_of_ne h entry (some new)
    | cons next place =>
      rw [setAt, hname]
      exact List.cons_ne_nil next place

theorem isDirectory_setAt (h : entry.isDirectory = true) (new : Entry) (name : Path.Segment)
    (place : Place) : (entry.setAt (some new) (name :: place)).isDirectory = true := by
  cases hname : entry.member? name with
  | some old =>
    rw [setAt_of_member? hname]
    rfl
  | none =>
    cases place with
    | nil => rfl
    | cons next place =>
      rw [setAt, hname]
      · exact h
      · exact List.cons_ne_nil next place

/-- **What was put is found**, if there is a way to its place. -/
theorem at?_setAt_self (h : entry.at? place = some found) (name : Path.Segment) (new : Entry) :
    (entry.setAt (some new) (place ++ [name])).at? (place ++ [name]) = some new := by
  induction place generalizing entry with
  | nil =>
    show ((entry.setMember name (some new)).member? name).bind (at? · []) = _
    rw [member?_setMember_self]
    rfl
  | cons first place ih =>
    obtain ⟨member, hmember, h⟩ := Option.bind_eq_some_iff.mp h
    rw [List.cons_append, setAt_of_member? hmember, at?, member?_setMember_self]
    exact ih h

/-- **What there was is still there**, and a directory is still one, unless something is
put in place of a directory. -/
theorem exists_at?_setAt (hold : ∀ old, entry.at? place = some old → old.isDirectory = false)
    (h : entry.at? rest = some found) (new : Entry) :
    ∃ found', (entry.setAt (some new) place).at? rest = some found' ∧
      (found.isDirectory = true → found'.isDirectory = true) := by
  induction place generalizing entry rest with
  | nil =>
    have leaf : entry.isDirectory = false := hold entry rfl
    cases rest with
    | nil =>
      obtain rfl := Option.some.inj h
      refine ⟨new, rfl, fun directory => ?_⟩
      rw [directory] at leaf
      contradiction
    | cons other rest =>
      obtain ⟨member, hmember, -⟩ := Option.bind_eq_some_iff.mp h
      rw [isDirectory_of_member? hmember] at leaf
      contradiction
  | cons name place ih =>
    cases rest with
    | nil =>
      obtain rfl := Option.some.inj h
      exact ⟨_, rfl, fun directory => isDirectory_setAt directory new name place⟩
    | cons other rest =>
      obtain ⟨member, hmember, h⟩ := Option.bind_eq_some_iff.mp h
      by_cases same : other = name
      · subst same
        have below : ∀ old, member.at? place = some old → old.isDirectory = false := by
          intro old hold'
          refine hold old ?_
          rw [at?, hmember]
          exact hold'
        rw [setAt_of_member? hmember, at?, member?_setMember_self]
        exact ih below h
      · rw [at?, member?_setAt_of_ne same, hmember]
        exact ⟨found, h, id⟩

end Entry

end Files

end LiveCoding
