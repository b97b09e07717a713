import LiveCoding.Block
import Mathlib.Data.List.Basic
import Mathlib.Tactic.Common

/-!
# Balanced brackets

Both scans of `Block.locate` do the same thing in opposite directions: they look
for the first bracket of one kind that has no partner of the other kind in front
of it.  This module says what that scan finds on an arbitrary list, balanced or
not, and leaves directions, offsets and bytes to `Proofs.Block.Locate`.

## Main Definitions

* `Block.BalancedFrom`: a list in which every bracket finds its partner, once a
  number of partners is owed from before.
* `Block.unmatched?`: the index of the first bracket that has no partner.

## Design Notes

A backward scan reads brackets with exchanged roles, so the two kinds are
parameters here: `up` raises the depth and `down` lowers it.  The scan is described
by counts of prefixes and not by its own depth counter; `BalancedFrom` at depth
zero does not even mention one, and reversal then exchanges the two kinds
(`balancedFrom_reverse`).
-/

namespace LiveCoding

namespace Block

/-- A prefix of a list with an element in front is empty or has that element in front. -/
theorem forall_prefix_cons {α : Type} {P : List α → Prop} (x : α) (xs : List α) :
    (∀ front, front <+: x :: xs → P front) ↔
      P [] ∧ ∀ front, front <+: xs → P (x :: front) := by
  constructor
  · intro h
    refine ⟨h [] List.nil_prefix, ?_⟩
    intro front hfront
    exact h (x :: front) (List.cons_prefix_cons.mpr ⟨rfl, hfront⟩)
  · rintro ⟨empty, more⟩ front hfront
    rcases List.prefix_cons_iff.mp hfront with rfl | ⟨rest, rfl, hrest⟩
    · exact empty
    · exact more rest hrest

variable {α : Type} [DecidableEq α] {up down : α}

/-- Every `down` has an `up` in front of it, and every `up` a `down` behind it,
once `depth` more `up` are thought to stand in front of the list. -/
def BalancedFrom (up down : α) (depth : Nat) (xs : List α) : Prop :=
  depth + xs.count up = xs.count down ∧
    ∀ front, front <+: xs → front.count down ≤ depth + front.count up

theorem balancedFrom_nil (depth : Nat) :
    BalancedFrom up down depth [] ↔ depth = 0 := by
  constructor
  · rintro ⟨equal, -⟩
    simpa using equal
  · rintro rfl
    refine ⟨by simp, ?_⟩
    intro front hfront
    simp [List.prefix_nil.mp hfront]

/-- An `up` in front of a list is one that is owed. -/
theorem balancedFrom_cons_up (hne : up ≠ down) (depth : Nat) (xs : List α) :
    BalancedFrom up down depth (up :: xs) ↔ BalancedFrom up down (depth + 1) xs := by
  unfold BalancedFrom
  rw [forall_prefix_cons, List.count_cons_self, List.count_cons_of_ne hne]
  simp only [List.count_cons_self, List.count_cons_of_ne hne, List.count_nil]
  refine and_congr (by omega) ⟨?_, ?_⟩
  · rintro ⟨-, below⟩ front hfront
    have := below front hfront
    omega
  · intro below
    refine ⟨Nat.zero_le _, ?_⟩
    intro front hfront
    have := below front hfront
    omega

/-- A `down` in front of a list uses one that is owed. -/
theorem balancedFrom_cons_down (hne : up ≠ down) (depth : Nat) (xs : List α) :
    BalancedFrom up down depth (down :: xs) ↔
      ∃ less, depth = less + 1 ∧ BalancedFrom up down less xs := by
  unfold BalancedFrom
  rw [forall_prefix_cons, List.count_cons_self, List.count_cons_of_ne hne.symm]
  simp only [List.count_cons_self, List.count_cons_of_ne hne.symm, List.count_nil]
  constructor
  · rintro ⟨equal, -, below⟩
    -- the list starts with a `down`, so one `up` at least is owed
    have first := below [] List.nil_prefix
    rw [List.count_nil, List.count_nil] at first
    obtain ⟨less, rfl⟩ : ∃ less, depth = less + 1 := ⟨depth - 1, by omega⟩
    refine ⟨less, rfl, by omega, ?_⟩
    intro front hfront
    have := below front hfront
    omega
  · rintro ⟨less, rfl, equal, below⟩
    refine ⟨by omega, Nat.zero_le _, ?_⟩
    intro front hfront
    have := below front hfront
    omega

/-- Anything else in front of a list changes nothing. -/
theorem balancedFrom_cons_of_ne {x : α} (hup : x ≠ up) (hdown : x ≠ down)
    (depth : Nat) (xs : List α) :
    BalancedFrom up down depth (x :: xs) ↔ BalancedFrom up down depth xs := by
  unfold BalancedFrom
  rw [forall_prefix_cons, List.count_cons_of_ne hup, List.count_cons_of_ne hdown]
  simp only [List.count_cons_of_ne hup, List.count_cons_of_ne hdown, List.count_nil]
  refine and_congr Iff.rfl ⟨?_, ?_⟩
  · rintro ⟨-, below⟩
    exact below
  · intro below
    exact ⟨Nat.zero_le _, below⟩

/-- In a suffix of a balanced list no `up` is without its `down`. -/
theorem BalancedFrom.count_suffix_le {xs back : List α}
    (h : BalancedFrom up down 0 xs) (hback : back <:+ xs) :
    back.count up ≤ back.count down := by
  obtain ⟨front, rfl⟩ := hback
  obtain ⟨equal, below⟩ := h
  have hfront := below front (List.prefix_append front back)
  rw [List.count_append, List.count_append] at equal
  omega

/-- Read from its end, a balanced list is balanced with the two kinds
exchanged. -/
theorem balancedFrom_reverse (xs : List α) :
    BalancedFrom down up 0 xs.reverse ↔ BalancedFrom up down 0 xs := by
  have turn : ∀ {up down : α} {xs : List α},
      BalancedFrom up down 0 xs → BalancedFrom down up 0 xs.reverse := by
    intro up down xs h
    have equal := h.1
    rw [Nat.zero_add] at equal
    refine ⟨?_, ?_⟩
    · rw [List.count_reverse, List.count_reverse, Nat.zero_add, equal]
    · intro front hfront
      -- a prefix of the reversed list is a suffix of the list
      have suffix : front.reverse <:+ xs := by
        have turned := List.reverse_suffix.mpr hfront
        rwa [List.reverse_reverse] at turned
      have := h.count_suffix_le suffix
      rw [List.count_reverse, List.count_reverse] at this
      omega
  exact ⟨fun h => by simpa using turn h, turn⟩

/-- What has no bracket in it can be left out in front. -/
theorem balancedFrom_append_left {clean : List α} (hup : up ∉ clean) (hdown : down ∉ clean)
    (depth : Nat) (xs : List α) :
    BalancedFrom up down depth (clean ++ xs) ↔ BalancedFrom up down depth xs := by
  induction clean with
  | nil => exact Iff.rfl
  | cons x clean ih =>
    rw [List.mem_cons, not_or] at hup hdown
    rw [List.cons_append, balancedFrom_cons_of_ne (Ne.symm hup.1) (Ne.symm hdown.1),
      ih hup.2 hdown.2]

/-- What has no bracket in it can be left out behind. -/
theorem balancedFrom_append_right {clean : List α} (hup : up ∉ clean) (hdown : down ∉ clean)
    (xs : List α) :
    BalancedFrom up down 0 (xs ++ clean) ↔ BalancedFrom up down 0 xs := by
  rw [← balancedFrom_reverse, List.reverse_append,
    balancedFrom_append_left (mt List.mem_reverse.mp hdown) (mt List.mem_reverse.mp hup),
    balancedFrom_reverse]

/-- A balanced list between an `up` and a `down` is balanced again. -/
theorem BalancedFrom.enclosed (hne : up ≠ down) {xs : List α}
    (h : BalancedFrom up down 0 xs) : BalancedFrom up down 0 (up :: (xs ++ [down])) := by
  obtain ⟨equal, below⟩ := h
  have noUp : [down].count up = 0 := List.count_eq_zero_of_not_mem (by simpa using hne)
  rw [balancedFrom_cons_up hne]
  refine ⟨?_, ?_⟩
  · rw [List.count_append, List.count_append, List.count_singleton_self, noUp]
    omega
  · intro front hfront
    rcases List.prefix_concat_iff.mp hfront with rfl | hfront
    · rw [List.count_append, List.count_append, List.count_singleton_self, noUp]
      omega
    · have := below front hfront
      omega

/-! ## The scan -/

/-- The index of the first `down` that has no `up` in front of it, if `depth` more
`up` stand in front of the list. -/
def unmatched? (up down : α) (depth : Nat) : List α → Option Nat
  | [] => none
  | x :: rest =>
    if x = up then (unmatched? up down (depth + 1) rest).map (· + 1)
    else if x = down then
      match depth with
      | 0 => some 0
      | depth + 1 => (unmatched? up down depth rest).map (· + 1)
    else (unmatched? up down depth rest).map (· + 1)

theorem unmatched?_cons_up (depth : Nat) (xs : List α) :
    unmatched? up down depth (up :: xs) = (unmatched? up down (depth + 1) xs).map (· + 1) := by
  conv_lhs => unfold unmatched?
  rw [if_pos rfl]

theorem unmatched?_cons_down_zero (hne : up ≠ down) (xs : List α) :
    unmatched? up down 0 (down :: xs) = some 0 := by
  unfold unmatched?
  rw [if_neg hne.symm, if_pos rfl]

theorem unmatched?_cons_down_succ (hne : up ≠ down) (depth : Nat) (xs : List α) :
    unmatched? up down (depth + 1) (down :: xs) = (unmatched? up down depth xs).map (· + 1) := by
  conv_lhs => unfold unmatched?
  rw [if_neg hne.symm, if_pos rfl]

theorem unmatched?_cons_of_ne {x : α} (hup : x ≠ up) (hdown : x ≠ down)
    (depth : Nat) (xs : List α) :
    unmatched? up down depth (x :: xs) = (unmatched? up down depth xs).map (· + 1) := by
  conv_lhs => unfold unmatched?
  rw [if_neg hup, if_neg hdown]

/-- **What the scan finds**: a `down` with everything balanced in front of it.
There is at most one such place. -/
theorem unmatched?_eq_some_iff (hne : up ≠ down) (depth : Nat) (xs : List α) (n : Nat) :
    unmatched? up down depth xs = some n ↔
      xs[n]? = some down ∧ BalancedFrom up down depth (xs.take n) := by
  -- the depth at which the scan goes on is the depth that the rest is balanced from
  induction xs generalizing depth n with
  | nil => simp [unmatched?]
  | cons x rest ih =>
    by_cases hup : x = up
    · subst hup
      rw [unmatched?_cons_up]
      cases n with
      | zero => simp [hne]
      | succ n => simp [ih, balancedFrom_cons_up hne]
    by_cases hdown : x = down
    · subst hdown
      cases depth with
      | zero =>
        rw [unmatched?_cons_down_zero hne]
        cases n with
        | zero => simp [balancedFrom_nil]
        | succ n => simp [balancedFrom_cons_down hne]
      | succ depth =>
        rw [unmatched?_cons_down_succ hne]
        cases n with
        | zero => simp [balancedFrom_nil]
        | succ n => simp [ih, balancedFrom_cons_down hne]
    · rw [unmatched?_cons_of_ne hup hdown]
      cases n with
      | zero => simp [hdown]
      | succ n => simp [ih, balancedFrom_cons_of_ne hup hdown]

/-- A list with too many `down` has one without a partner. -/
theorem exists_unmatched? (hne : up ≠ down) (depth : Nat) (xs : List α)
    (more : depth + xs.count up < xs.count down) :
    ∃ n, unmatched? up down depth xs = some n := by
  induction xs generalizing depth with
  | nil => simp at more
  | cons x rest ih =>
    by_cases hup : x = up
    · subst hup
      rw [List.count_cons_self, List.count_cons_of_ne hne] at more
      obtain ⟨n, hn⟩ := ih (depth + 1) (by omega)
      exact ⟨n + 1, by rw [unmatched?_cons_up, hn]; rfl⟩
    rw [List.count_cons_of_ne hup] at more
    by_cases hdown : x = down
    · subst hdown
      rw [List.count_cons_self] at more
      cases depth with
      | zero => exact ⟨0, unmatched?_cons_down_zero hne rest⟩
      | succ depth =>
        obtain ⟨n, hn⟩ := ih depth (by omega)
        exact ⟨n + 1, by rw [unmatched?_cons_down_succ hne, hn]; rfl⟩
    · rw [List.count_cons_of_ne hdown] at more
      obtain ⟨n, hn⟩ := ih depth more
      exact ⟨n + 1, by rw [unmatched?_cons_of_ne hup hdown, hn]; rfl⟩

/-- What is found in the front of a list is found in the whole. -/
theorem unmatched?_append (hne : up ≠ down) {depth : Nat} {xs : List α} {n : Nat}
    (found : unmatched? up down depth xs = some n) (ys : List α) :
    unmatched? up down depth (xs ++ ys) = some n := by
  rw [unmatched?_eq_some_iff hne] at found ⊢
  obtain ⟨hn, balanced⟩ := found
  have inside : n < xs.length := (List.getElem?_eq_some_iff.mp hn).1
  rw [List.getElem?_append_left inside, List.take_append_of_le_length (Nat.le_of_lt inside)]
  exact ⟨hn, balanced⟩

end Block

end LiveCoding
