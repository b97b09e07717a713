import LiveCoding.Watch
import Mathlib.Order.Fin.Basic
import Mathlib.Order.WellFounded

/-!
# Each burst of saves is reported once

What the wait for quiet remembers is one time at most.  It tells of the whole history all
the same: if there is one, it is that of the latest poll that saw a change, and no poll
since then came late enough to report it.  So a poll reports exactly if it is the first
that comes late enough after the latest change that was seen.

## Main Definitions

* `Debounce.Settles`: a poll settles the burst that ended with the change another one saw.
* `Debounce.after`: the wait for quiet after several polls.
* `Watch.sees`: whether any of several changes counts.
* `Watch.looks`, `Watch.pollAll`: the polls of a watch, and what they report.

## Main Statements

* `Debounce.dirtySince_after_iff`: what is remembered, in terms of the history.
* `Debounce.reports_iff`: what is reported, in terms of the history.
* `Debounce.IsLatest.existsUnique_reports`: a burst is reported by one poll.
* `Watch.pollAll_eq`: a watch reports what its wait for quiet does.
* `Debounce.bursts_reported_once`: all of this in one.

## Design Notes

The clock is not assumed to go forward.  Where it goes back, no time has passed, as a
difference of natural numbers says.
-/

namespace LiveCoding

namespace Debounce

/-! ### One poll -/

section Poll

variable (debounce : Debounce) (now : Nat) (touched : Bool)

@[simp] theorem quiet_poll : (debounce.poll now touched).1.quiet = debounce.quiet := by
  unfold poll
  dsimp only
  split
  · rfl
  · split <;> rfl

/-- A change is remembered as long as it is not reported. -/
theorem dirtySince_poll_iff {since : Nat} :
    (debounce.poll now touched).1.dirtySince = some since ↔
      (if touched then some now else debounce.dirtySince) = some since ∧
        now - since < debounce.quiet := by
  unfold poll
  dsimp only
  split
  next h => simp [h]
  next earlier h =>
    rw [h]
    split
    next late =>
      simp only [reduceCtorEq, Option.some.injEq, false_iff, not_and, Nat.not_lt]
      rintro rfl
      exact late
    next early =>
      simp only [Option.some.injEq]
      refine ⟨?_, And.left⟩
      rintro rfl
      exact ⟨rfl, Nat.lt_of_not_le early⟩

/-- A change is reported once it has been quiet for long enough. -/
theorem report_poll_iff :
    (debounce.poll now touched).2 = true ↔
      ∃ since, (if touched then some now else debounce.dirtySince) = some since ∧
        debounce.quiet ≤ now - since := by
  unfold poll
  dsimp only
  split
  next h => simp [h]
  next earlier h =>
    rw [h]
    split
    next late => simp [late]
    next early => simp [Nat.lt_of_not_le early]

end Poll

/-! ### Several polls -/

/-- The wait for quiet after several polls. -/
def after (debounce : Debounce) (polls : List (Nat × Bool)) : Debounce :=
  polls.foldl (fun debounce look => (debounce.poll look.1 look.2).1) debounce

@[simp] theorem quiet_after (debounce : Debounce) (polls : List (Nat × Bool)) :
    (debounce.after polls).quiet = debounce.quiet := by
  induction polls generalizing debounce with
  | nil => rfl
  | cons look later ih => exact (ih _).trans (quiet_poll _ _ _)

theorem getElem?_pollAll (debounce : Debounce) (polls : List (Nat × Bool)) (i : Nat) :
    (debounce.pollAll polls)[i]? =
      polls[i]?.map fun look => ((debounce.after (polls.take i)).poll look.1 look.2).2 := by
  induction polls generalizing debounce i with
  | nil => rfl
  | cons look later ih =>
    cases i with
    | zero => rfl
    | succ i => exact ih _ i

theorem after_take_succ (debounce : Debounce) {polls : List (Nat × Bool)}
    (i : Fin polls.length) :
    debounce.after (polls.take (i + 1)) =
      ((debounce.after (polls.take i)).poll polls[i].1 polls[i].2).1 := by
  rw [after, List.take_succ_eq_append_getElem i.isLt, List.foldl_append]
  rfl

/-! ### What is remembered and what is reported -/

section History

variable {quiet : Nat} {polls : List (Nat × Bool)} {i j : Fin polls.length} {n : Nat}

/-- Of the first polls, this one was the latest that saw a change. -/
structure IsLatest (polls : List (Nat × Bool)) (n : Nat) (j : Fin polls.length) : Prop where
  lt : j < n
  seen : polls[j].2 = true
  last : ∀ k : Fin polls.length, j < k → k < n → polls[k].2 = false

/-- Of the first polls, none came late enough to report what this one saw. -/
def Waits (quiet : Nat) (polls : List (Nat × Bool)) (n : Nat) (j : Fin polls.length) : Prop :=
  ∀ k : Fin polls.length, j ≤ k → k < n → polls[k].1 - polls[j].1 < quiet

/-- A poll settles the burst that ended with the change another one saw: it is the first
that comes late enough after it, and no change was seen in between. -/
structure Settles (quiet : Nat) (polls : List (Nat × Bool)) (j i : Fin polls.length) :
    Prop where
  le : j ≤ i
  seen : polls[j].2 = true
  last : ∀ k : Fin polls.length, j < k → k ≤ i → polls[k].2 = false
  late : quiet ≤ polls[i].1 - polls[j].1
  first : ∀ k : Fin polls.length, j ≤ k → k < i → polls[k].1 - polls[j].1 < quiet

theorem IsLatest.unique {j j' : Fin polls.length} (h : IsLatest polls n j)
    (h' : IsLatest polls n j') : j = j' := by
  rcases lt_trichotomy j j' with lt | rfl | lt
  · exact absurd h'.seen (Bool.eq_false_iff.mp (h.last j' lt h'.lt))
  · rfl
  · exact absurd h.seen (Bool.eq_false_iff.mp (h'.last j lt h.lt))

/-- A poll that sees a change is the latest itself; another one leaves it as it was. -/
theorem isLatest_succ_iff :
    IsLatest polls (i + 1) j ↔ if polls[i].2 then j = i else IsLatest polls i j := by
  cases seen : polls[i].2 with
  | true =>
    have here : IsLatest polls (i + 1) i :=
      ⟨Nat.lt_succ_self _, seen, fun k lt le =>
        absurd (Nat.lt_of_lt_of_le lt (Nat.le_of_lt_succ le)) (lt_irrefl _)⟩
    exact ⟨fun h => h.unique here, fun h => h ▸ here⟩
  | false =>
    constructor
    · rintro ⟨lt, hj, last⟩
      have ne : (j : Nat) ≠ i := fun eq => by
        rw [Fin.ext eq, seen] at hj
        contradiction
      exact ⟨by omega, hj, fun k lt le => last k lt (Nat.lt_succ_of_lt le)⟩
    · rintro ⟨lt, hj, last⟩
      refine ⟨Nat.lt_succ_of_lt lt, hj, fun k hk le => ?_⟩
      rcases Nat.lt_succ_iff_lt_or_eq.mp le with lt | eq
      · exact last k hk lt
      · rwa [Fin.ext eq]

theorem waits_succ_iff (h : IsLatest polls (i + 1) j) :
    Waits quiet polls (i + 1) j ↔ Waits quiet polls i j ∧ polls[i].1 - polls[j].1 < quiet := by
  constructor
  · intro waits
    exact ⟨fun k le lt => waits k le (Nat.lt_succ_of_lt lt),
      waits i (Nat.le_of_lt_succ h.lt) (Nat.lt_succ_self _)⟩
  · rintro ⟨waits, early⟩ k le lt
    rcases Nat.lt_succ_iff_lt_or_eq.mp lt with lt | eq
    · exact waits k le lt
    · rwa [Fin.ext eq]

theorem settles_iff : Settles quiet polls j i ↔
    IsLatest polls (i + 1) j ∧ Waits quiet polls i j ∧ quiet ≤ polls[i].1 - polls[j].1 := by
  constructor
  · rintro ⟨le, seen, last, late, first⟩
    exact ⟨⟨Nat.lt_succ_of_le le, seen, fun k lt le => last k lt (Nat.le_of_lt_succ le)⟩, first,
      late⟩
  · rintro ⟨⟨lt, seen, last⟩, first, late⟩
    exact ⟨Nat.le_of_lt_succ lt, seen, fun k lt le => last k lt (Nat.lt_succ_of_le le), late,
      first⟩

/-- What a poll goes by is its own time if it sees a change, or else what is remembered. -/
theorem considered_iff {debounce : Debounce} {since : Nat}
    (remembered : debounce.dirtySince = some since ↔
      ∃ j, IsLatest polls i j ∧ Waits quiet polls i j ∧ polls[j].1 = since) :
    (if polls[i].2 then some polls[i].1 else debounce.dirtySince) = some since ↔
      ∃ j, IsLatest polls (i + 1) j ∧ Waits quiet polls i j ∧ polls[j].1 = since := by
  simp only [isLatest_succ_iff]
  split
  · have here : Waits quiet polls i i := fun k le lt => absurd lt (Nat.not_lt_of_le le)
    simp [here]
  · exact remembered

/-- **What is remembered** after several polls is the time of the latest one that saw a
change, unless one came late enough to report it. -/
theorem dirtySince_after_iff (quiet : Nat) {polls : List (Nat × Bool)} {n : Nat}
    (hn : n ≤ polls.length) {since : Nat} :
    ((⟨quiet, none⟩ : Debounce).after (polls.take n)).dirtySince = some since ↔
      ∃ j, IsLatest polls n j ∧ Waits quiet polls n j ∧ polls[j].1 = since := by
  induction n generalizing since with
  | zero =>
    refine iff_of_false nofun ?_
    rintro ⟨j, latest, -⟩
    exact absurd latest.lt (Nat.not_lt_zero _)
  | succ n ih =>
    obtain ⟨i, rfl⟩ : ∃ i : Fin polls.length, (i : Nat) = n := ⟨⟨n, hn⟩, rfl⟩
    rw [after_take_succ, dirtySince_poll_iff, considered_iff (ih (Nat.le_of_lt hn)), quiet_after]
    constructor
    · rintro ⟨⟨j, latest, waits, rfl⟩, early⟩
      exact ⟨j, latest, (waits_succ_iff latest).mpr ⟨waits, early⟩, rfl⟩
    · rintro ⟨j, latest, waits, rfl⟩
      obtain ⟨waits, early⟩ := (waits_succ_iff latest).mp waits
      exact ⟨⟨j, latest, waits, rfl⟩, early⟩

/-- Of the polls after a fresh start, this one reports. -/
def Reports (quiet : Nat) (polls : List (Nat × Bool)) (i : Fin polls.length) : Prop :=
  ((⟨quiet, none⟩ : Debounce).pollAll polls)[(i : Nat)]? = some true

/-- **What is reported**: a poll reports exactly if it settles a burst. -/
theorem reports_iff : Reports quiet polls i ↔ ∃ j, Settles quiet polls j i := by
  have remembered {since : Nat} := @dirtySince_after_iff quiet polls i (Nat.le_of_lt i.isLt) since
  rw [Reports, getElem?_pollAll, List.getElem?_eq_getElem i.isLt, Option.map_some,
    Option.some.injEq]
  simp only [report_poll_iff, quiet_after, settles_iff]
  constructor
  · rintro ⟨since, going, late⟩
    obtain ⟨j, latest, waits, rfl⟩ := (considered_iff remembered).mp going
    exact ⟨j, latest, waits, late⟩
  · rintro ⟨j, latest, waits, late⟩
    exact ⟨_, (considered_iff remembered).mpr ⟨j, latest, waits, rfl⟩, late⟩

/-! ### Bursts -/

/-- A burst is settled by one poll at most. -/
theorem Settles.unique {i' : Fin polls.length} (h : Settles quiet polls j i)
    (h' : Settles quiet polls j i') : i = i' := by
  rcases lt_trichotomy i i' with lt | rfl | lt
  · exact absurd h.late (Nat.not_le_of_lt (h'.first i h.le lt))
  · rfl
  · exact absurd h'.late (Nat.not_le_of_lt (h.first i' h'.le lt))

/-- A burst is settled as soon as a poll comes late enough. -/
theorem IsLatest.exists_settles (h : IsLatest polls (i + 1) j)
    (late : quiet ≤ polls[i].1 - polls[j].1) : ∃ r ≤ i, Settles quiet polls j r := by
  obtain ⟨r, ⟨le, hr⟩, first⟩ := @WellFounded.has_min (Fin polls.length) _ wellFounded_lt
    {k | j ≤ k ∧ quiet ≤ polls[k].1 - polls[j].1} ⟨i, Nat.le_of_lt_succ h.lt, late⟩
  have before : r ≤ i := not_lt.mp (first i ⟨Nat.le_of_lt_succ h.lt, late⟩)
  refine ⟨r, before, le, h.seen, fun k lt le => h.last k lt ?_, hr, fun k le lt => ?_⟩
  · exact Nat.lt_succ_of_le (le.trans before)
  · exact Nat.lt_of_not_le fun late => first k ⟨le, late⟩ lt

/-- **A burst is reported by one poll**, as soon as it has been quiet for long enough. -/
theorem IsLatest.existsUnique_reports (h : IsLatest polls (i + 1) j)
    (late : quiet ≤ polls[i].1 - polls[j].1) :
    ∃! r : Fin polls.length, j ≤ r ∧ r ≤ i ∧ Reports quiet polls r := by
  obtain ⟨r, before, settles⟩ := h.exists_settles late
  refine ⟨r, ⟨settles.le, before, reports_iff.mpr ⟨j, settles⟩⟩, ?_⟩
  rintro r' ⟨le, before', reports⟩
  obtain ⟨j', settles'⟩ := reports_iff.mp reports
  -- whatever is reported there is this burst, for no change is seen in between
  have latest : IsLatest polls (r' + 1) j :=
    ⟨Nat.lt_succ_of_le le, h.seen, fun k lt le =>
      h.last k lt (Nat.lt_succ_of_le ((Nat.le_of_lt_succ le).trans before'))⟩
  obtain rfl : j' = j := (settles_iff.mp settles').1.unique latest
  exact settles'.unique settles

end History

end Debounce

/-! ### Watches -/

namespace Watch

variable {watch : Watch} {changes : List Files.Change}

/-- Notices several changes, one after the other. -/
def noticeAll (watch : Watch) (changes : List Files.Change) : Watch :=
  changes.foldl notice watch

/-- Whether any of several changes counts, each where the directory is by then. -/
def sees (watch : Watch) : List Files.Change → Bool
  | [] => false
  | change :: later => change.places.any watch.concerns || (watch.notice change).sees later

/-- What each of several polls reports, each at its time and after the changes since the one
before. -/
def pollAll (watch : Watch) : List (Nat × List Files.Change) → List Bool
  | [] => []
  | (now, changes) :: later =>
    let (watch, report) := (watch.noticeAll changes).poll now
    report :: watch.pollAll later

/-- The same polls, each with its time and whether it sees a change that counts. -/
def looks (watch : Watch) : List (Nat × List Files.Change) → List (Nat × Bool)
  | [] => []
  | (now, changes) :: later =>
    (now, watch.sees changes) :: ((watch.noticeAll changes).poll now).1.looks later

theorem debounce_noticeAll (watch : Watch) (changes : List Files.Change) :
    (watch.noticeAll changes).debounce = watch.debounce := by
  induction changes generalizing watch with
  | nil => rfl
  | cons change later ih => exact ih _

/-- What a poll is told is whether anything that counts has happened since the last one. -/
theorem touched_noticeAll (watch : Watch) (changes : List Files.Change) :
    (watch.noticeAll changes).touched = (watch.touched || watch.sees changes) := by
  induction changes generalizing watch with
  | nil => exact (Bool.or_false _).symm
  | cons change later ih => exact (ih _).trans (Bool.or_assoc _ _ _)

/-- **A watch reports what its wait for quiet does.** -/
theorem pollAll_eq (untouched : watch.touched = false) (polls : List (Nat × List Files.Change)) :
    watch.pollAll polls = watch.debounce.pollAll (watch.looks polls) := by
  induction polls generalizing watch with
  | nil => rfl
  | cons visit later ih =>
    obtain ⟨now, changes⟩ := visit
    have told : (watch.noticeAll changes).touched = watch.sees changes := by
      rw [touched_noticeAll, untouched, Bool.false_or]
    have same : (watch.noticeAll changes).debounce.poll now (watch.noticeAll changes).touched =
        watch.debounce.poll now (watch.sees changes) := by
      rw [debounce_noticeAll, told]
    show ((watch.noticeAll changes).poll now).2 ::
        ((watch.noticeAll changes).poll now).1.pollAll later =
      (watch.debounce.poll now (watch.sees changes)).2 ::
        (watch.debounce.poll now (watch.sees changes)).1.pollAll _
    rw [ih rfl, ← same]
    rfl

/-- A watch starts with nothing to report. -/
theorem of_start {files : Files} {path : Path} {quiet : Nat}
    (h : Watch.start files path quiet = .ok watch) :
    watch.debounce = ⟨quiet, none⟩ ∧ watch.touched = false := by
  unfold start at h
  split at h
  · obtain rfl := Except.ok.inj h
    exact ⟨rfl, rfl⟩
  · dsimp only at h
    split at h
    · contradiction
    · obtain rfl := Except.ok.inj h
      exact ⟨rfl, rfl⟩

end Watch

/-- **Each burst of saves is reported once**, when it has been quiet for long enough, and
nothing else is reported.  This holds of polls at any times, whatever they see, and so of
those of every watch. -/
theorem Debounce.bursts_reported_once (quiet : Nat) (polls : List (Nat × Bool)) :
    (∀ i, Reports quiet polls i ↔ ∃ j, Settles quiet polls j i) ∧
      (∀ i j : Fin polls.length, IsLatest polls (i + 1) j →
        quiet ≤ polls[i].1 - polls[j].1 →
          ∃! r : Fin polls.length, j ≤ r ∧ r ≤ i ∧ Reports quiet polls r) ∧
      ∀ (files : Files) (path : Path) (watch : Watch) (visits : List (Nat × List Files.Change)),
        Watch.start files path quiet = .ok watch → watch.looks visits = polls →
          watch.pollAll visits = (⟨quiet, none⟩ : Debounce).pollAll polls := by
  refine ⟨fun i => reports_iff, fun i j latest late => latest.existsUnique_reports late, ?_⟩
  rintro files path watch visits started rfl
  obtain ⟨debounce, untouched⟩ := Watch.of_start started
  rw [Watch.pollAll_eq untouched, debounce]

/-- A file is written, and a tenth of a second later replaced by another that was written
beside it.  Only the poll that comes a fifth of a second after that reports it, although
one in between saw that a file beside it was written. -/
theorem Debounce.bursts_reported_once_replaced :
    ∃ (watch : Watch) (visits : List (Nat × List Files.Change)) (polls : List (Nat × Bool))
      (i j : Fin polls.length),
      Watch.start {} (.ofText "live.scd") 200 = .ok watch ∧ watch.looks visits = polls ∧
        polls = [(0, true), (100, true), (250, false), (300, false), (900, false)] ∧
        IsLatest polls (i + 1) j ∧ 200 ≤ polls[i].1 - polls[j].1 ∧
        (∃! r : Fin polls.length, j ≤ r ∧ r ≤ i ∧ Reports 200 polls r) ∧
        watch.pollAll visits = [false, false, false, true, false] := by
  obtain ⟨-, once, told⟩ := bursts_reported_once 200
    [(0, true), (100, true), (250, false), (300, false), (900, false)]
  have latest : IsLatest [(0, true), (100, true), (250, false), (300, false), (900, false)] 5
      ⟨1, by decide⟩ := ⟨by decide, by decide, by decide⟩
  let file : Files.Place := [(Path.ofText "live.scd").bytes]
  let beside : Files.Place := [(Path.ofText "live.scd~").bytes]
  refine ⟨_, [(0, [.written file]), (100, [.written beside, .moved beside file]),
      (250, [.written beside]), (300, []), (900, [])], _,
    ⟨4, by decide⟩, ⟨1, by decide⟩, rfl, rfl, rfl, latest, by decide, once _ _ latest (by decide),
    (told {} (.ofText "live.scd") _ _ rfl rfl).trans (by decide)⟩

end LiveCoding
