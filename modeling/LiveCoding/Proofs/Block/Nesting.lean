import LiveCoding.Proofs.Block.Locate

/-!
# Nested blocks

The blocks that are found around the cursors of one text are its pairs of brackets,
and pairs do not cross, however many other brackets have no partner.  So any two blocks
are apart or one is inside the other, and from a block one gets to the next larger one
by asking again from either of its ends.

## Main Definitions

* `Span.Within`, `Span.StrictlyWithin`, `Span.Apart`: how two spans can lie.
* `Block.IsBlock`: a span that is found around some cursor.
* `Block.IsNextAround`: the smallest block strictly around a span.

## Main Statements

* `Block.IsPair.close_lt`: pairs do not cross.
* `Block.IsPair.encloses_start_iff`, `Block.IsPair.encloses_stop_iff`: both ends of a pair
  stand inside the same other pairs.
* `Block.blocks_nest`: how the blocks of a text lie, and where stepping out leads.

## Design Notes

What crosses is refused by `not_encloses_of_balanced`, with the closing bracket of one
pair for the cursor: up to there the brackets are balanced, so no pair is open.
-/

namespace LiveCoding

namespace Span

/-- Nothing of the one span is outside the other. -/
def Within (inner outer : Span) : Prop :=
  outer.start ≤ inner.start ∧ inner.stop ≤ outer.stop

/-- The one span is inside the other, which has more on both sides. -/
def StrictlyWithin (inner outer : Span) : Prop :=
  outer.start < inner.start ∧ inner.stop < outer.stop

/-- The two spans have no byte in common. -/
def Apart (first second : Span) : Prop :=
  first.stop ≤ second.start ∨ second.stop ≤ first.start

theorem Within.antisymm {first second : Span} (h : first.Within second)
    (h' : second.Within first) : first = second := by
  cases first
  cases second
  rw [Span.mk.injEq]
  exact ⟨Nat.le_antisymm h'.1 h.1, Nat.le_antisymm h.2 h'.2⟩

end Span

namespace Block

/-- A span that is found around some cursor. -/
def IsBlock (text : List UInt8) (span : Span) : Prop :=
  ∃ cursor, locate text cursor = some span

/-- The next larger block: of those with more on both sides, the one inside all others. -/
structure IsNextAround (text : List UInt8) (inner outer : Span) : Prop where
  isBlock : IsBlock text outer
  around : inner.StrictlyWithin outer
  least : ∀ other, IsBlock text other → inner.StrictlyWithin other → outer.Within other

variable {text : List UInt8} {o c o' c' : Nat}

/-! ### Pairs of brackets -/

/-- **Pairs do not cross**: what opens inside a pair is closed inside it. -/
theorem IsPair.close_lt (pair : IsPair text o c) (pair' : IsPair text o' c') (hoo : o < o')
    (hoc : o' < c) : c' < c := by
  by_contra hle
  have crossing : Encloses text c o' c' :=
    { pair' with behind := hoc, within := Nat.le_of_not_lt hle }
  exact not_encloses_of_balanced pair.balanced hoo crossing

theorem IsPair.open_ne_close (pair : IsPair text o c) (pair' : IsPair text o' c') : o ≠ c' := by
  rintro rfl
  have both := pair.opens.symm.trans pair'.closes
  exact opening_ne_closing (Option.some.inj both)

/-- Two pairs are the same, one is behind the other, or one is inside the other. -/
theorem IsPair.nested (pair : IsPair text o c) (pair' : IsPair text o' c') :
    (o = o' ∧ c = c') ∨ (c < o' ∨ c' < o) ∨ (o < o' ∧ c' < c) ∨ (o' < o ∧ c < c') := by
  rcases Nat.lt_trichotomy o o' with hoo | rfl | hoo
  · rcases Nat.lt_or_ge c o' with behind | hle
    · exact Or.inr (Or.inl (Or.inl behind))
    · have hoc := Nat.lt_of_le_of_ne hle (pair'.open_ne_close pair)
      exact Or.inr (Or.inr (Or.inl ⟨hoo, pair.close_lt pair' hoo hoc⟩))
  · exact Or.inl ⟨rfl, pair.close_unique pair'⟩
  · rcases Nat.lt_or_ge c' o with behind | hle
    · exact Or.inr (Or.inl (Or.inr behind))
    · have hoc := Nat.lt_of_le_of_ne hle (pair.open_ne_close pair')
      exact Or.inr (Or.inr (Or.inr ⟨hoo, pair'.close_lt pair hoo hoc⟩))

/-- Of two pairs around one cursor, the one that opens behind the other is inside it. -/
theorem Encloses.close_le {cursor : Nat} (outer : Encloses text cursor o c)
    (inner : Encloses text cursor o' c') (hoo : o ≤ o') : c' ≤ c := by
  rcases Nat.eq_or_lt_of_le hoo with rfl | hoo
  · exact Nat.le_of_eq (inner.close_unique outer.toIsPair)
  · have hoc := Nat.lt_of_lt_of_le inner.behind outer.within
    exact Nat.le_of_lt (outer.close_lt inner.toIsPair hoo hoc)

/-- In front of a pair stand those other pairs open that have it inside. -/
theorem IsPair.encloses_start_iff (pair : IsPair text o c) :
    Encloses text o o' c' ↔ IsPair text o' c' ∧ o' < o ∧ c < c' := by
  constructor
  · intro outer
    have hoc := Nat.lt_of_le_of_ne outer.within (pair.open_ne_close outer.toIsPair)
    exact ⟨outer.toIsPair, outer.behind, outer.close_lt pair outer.behind hoc⟩
  · rintro ⟨outer, hoo, hcc⟩
    have hlt := pair.lt
    exact { outer with behind := hoo, within := by omega }

/-- Behind a pair stand the same ones open. -/
theorem IsPair.encloses_stop_iff (pair : IsPair text o c) :
    Encloses text (c + 1) o' c' ↔ IsPair text o' c' ∧ o' < o ∧ c < c' := by
  constructor
  · intro outer
    have hbehind := outer.behind
    have hwithin := outer.within
    refine ⟨outer.toIsPair, ?_, by omega⟩
    -- what is closed behind the pair was opened neither at its bracket nor inside it
    rcases pair.nested outer.toIsPair with ⟨-, same⟩ | (late | early) | ⟨-, inner⟩ | ⟨hoo, -⟩
    · omega
    · omega
    · have := pair.lt
      omega
    · omega
    · exact hoo
  · rintro ⟨outer, hoo, hcc⟩
    have hlt := pair.lt
    exact { outer with behind := by omega, within := by omega }

/-! ### Blocks of a text -/

/-- A pair is found from right behind its opening bracket. -/
theorem IsPair.locate_behind (pair : IsPair text o c) :
    locate text (o + 1) = some ⟨o, c + 1⟩ := by
  rw [locate_eq_some_iff]
  refine ⟨o, c, rfl, { pair with behind := Nat.lt_succ_self o, within := pair.lt, innermost := ?_ }⟩
  intro o' c' inner hoo
  have := inner.behind
  omega

/-- The blocks of a text are its pairs of brackets. -/
theorem isBlock_iff {span : Span} :
    IsBlock text span ↔ ∃ o c, span = ⟨o, c + 1⟩ ∧ IsPair text o c := by
  constructor
  · rintro ⟨cursor, found⟩
    obtain ⟨o, c, rfl, pair⟩ := (locate_eq_some_iff text cursor span).mp found
    exact ⟨o, c, rfl, pair.toIsPair⟩
  · rintro ⟨o, c, rfl, pair⟩
    exact ⟨o + 1, pair.locate_behind⟩

/-- What is found around a cursor depends only on the pairs around it. -/
theorem locate_congr {cursor cursor' : Nat}
    (same : ∀ o c, Encloses text cursor o c ↔ Encloses text cursor' o c) :
    locate text cursor = locate text cursor' := by
  have innermost : ∀ o c, IsInnermost text cursor o c ↔ IsInnermost text cursor' o c := by
    intro o c
    constructor
    · rintro ⟨pair, least⟩
      exact ⟨(same o c).mp pair, fun o' c' inner => least o' c' ((same o' c').mpr inner)⟩
    · rintro ⟨pair, least⟩
      exact ⟨(same o c).mpr pair, fun o' c' inner => least o' c' ((same o' c').mp inner)⟩
  apply Option.ext
  intro span
  rw [locate_eq_some_iff, locate_eq_some_iff]
  simp only [innermost]

/-- Both ends of a pair are inside the same block. -/
theorem IsPair.locate_stop (pair : IsPair text o c) :
    locate text (c + 1) = locate text o :=
  locate_congr fun _ _ => by rw [pair.encloses_stop_iff, pair.encloses_start_iff]

/-- Around the start of a pair the next larger block is found. -/
theorem IsPair.isNextAround (pair : IsPair text o c) {outer : Span}
    (found : locate text o = some outer) : IsNextAround text ⟨o, c + 1⟩ outer := by
  obtain ⟨o₁, c₁, rfl, innermost⟩ := (locate_eq_some_iff text o outer).mp found
  obtain ⟨-, hoo, hcc⟩ := pair.encloses_start_iff.mp innermost.toEncloses
  refine ⟨⟨o, found⟩, ⟨hoo, Nat.succ_lt_succ hcc⟩, ?_⟩
  intro other isBlock around
  obtain ⟨o₂, c₂, rfl, pair₂⟩ := isBlock_iff.mp isBlock
  have encloses := pair.encloses_start_iff.mpr
    ⟨pair₂, around.1, Nat.lt_of_succ_lt_succ around.2⟩
  have hoo₂ := Nat.le_of_not_lt (innermost.innermost o₂ c₂ encloses)
  exact ⟨hoo₂, Nat.succ_le_succ (encloses.close_le innermost.toEncloses hoo₂)⟩

/-- Around the start of a pair nothing is found exactly if no block is strictly around it. -/
theorem IsPair.locate_start_eq_none_iff (pair : IsPair text o c) :
    locate text o = none ↔
      ∀ other, IsBlock text other → ¬ Span.StrictlyWithin ⟨o, c + 1⟩ other := by
  rw [locate_eq_none_iff]
  simp only [pair.encloses_start_iff]
  constructor
  · intro missing other isBlock around
    obtain ⟨o', c', rfl, pair'⟩ := isBlock_iff.mp isBlock
    exact missing o' c' ⟨pair', around.1, Nat.lt_of_succ_lt_succ around.2⟩
  · rintro missing o' c' ⟨pair', hoo, hcc⟩
    exact missing ⟨o', c' + 1⟩ (isBlock_iff.mpr ⟨o', c', rfl, pair'⟩) ⟨hoo, Nat.succ_lt_succ hcc⟩

/-- Around the start of a pair what is found is the next larger block. -/
theorem IsPair.locate_start_eq_some_iff (pair : IsPair text o c) {outer : Span} :
    locate text o = some outer ↔ IsNextAround text ⟨o, c + 1⟩ outer := by
  refine ⟨pair.isNextAround, ?_⟩
  intro next
  cases found : locate text o with
  | none =>
    exact absurd next.around (pair.locate_start_eq_none_iff.mp found outer next.isBlock)
  | some outer' =>
    -- two smallest blocks are each within the other
    have next' := pair.isNextAround found
    rw [(next'.least _ next.isBlock next.around).antisymm
      (next.least _ next'.isBlock next'.around)]

/-- A cursor between the brackets of a pair has a block around it, which is inside. -/
theorem IsPair.exists_locate_within (pair : IsPair text o c) {cursor : Nat} (behind : o < cursor)
    (within : cursor ≤ c) :
    ∃ inner, locate text cursor = some inner ∧ inner.Within ⟨o, c + 1⟩ := by
  have encloses : Encloses text cursor o c := { pair with behind := behind, within := within }
  obtain ⟨o', c', innermost⟩ := encloses.exists_isInnermost
  refine ⟨⟨o', c' + 1⟩, (locate_eq_some_iff text cursor _).mpr ⟨o', c', rfl, innermost⟩, ?_⟩
  have hoo := Nat.le_of_not_lt (innermost.innermost o c encloses)
  exact ⟨hoo, Nat.succ_le_succ (encloses.close_le innermost.toEncloses hoo)⟩

/-- **The blocks of a text nest.**  Any other block is the same as the given one, apart from
it, or strictly inside it or around it.  A cursor inside the given block has a block around
it, which is no larger.  From both ends of the block the same is found: the smallest block
strictly around it, and nothing exactly if there is none. -/
theorem blocks_nest {cursor : Nat} {span : Span} (found : locate text cursor = some span) :
    (∀ cursor' span', locate text cursor' = some span' →
      span = span' ∨ span.Apart span' ∨ span'.StrictlyWithin span ∨
        span.StrictlyWithin span') ∧
    (∀ cursor', span.start < cursor' → cursor' < span.stop →
      ∃ inner, locate text cursor' = some inner ∧ inner.Within span) ∧
    locate text span.stop = locate text span.start ∧
    (∀ outer, locate text span.start = some outer ↔ IsNextAround text span outer) ∧
    (locate text span.start = none ↔
      ∀ other, IsBlock text other → ¬ span.StrictlyWithin other) := by
  obtain ⟨o, c, rfl, pair⟩ := isBlock_iff.mp ⟨cursor, found⟩
  refine ⟨?_, ?_, pair.locate_stop, fun outer => pair.locate_start_eq_some_iff,
    pair.locate_start_eq_none_iff⟩
  · intro cursor' span' found'
    obtain ⟨o', c', rfl, pair'⟩ := isBlock_iff.mp ⟨cursor', found'⟩
    rcases pair.nested pair' with ⟨rfl, rfl⟩ | (late | early) | ⟨hoo, hcc⟩ | ⟨hoo, hcc⟩
    · exact Or.inl rfl
    · exact Or.inr (Or.inl (Or.inl late))
    · exact Or.inr (Or.inl (Or.inr early))
    · exact Or.inr (Or.inr (Or.inl ⟨hoo, Nat.succ_lt_succ hcc⟩))
    · exact Or.inr (Or.inr (Or.inr ⟨hoo, Nat.succ_lt_succ hcc⟩))
  · intro cursor' behind within
    exact pair.exists_locate_within behind (Nat.le_of_lt_succ within)

/-- Two blocks side by side inside a third one, among brackets that have no partner. -/
theorem blocks_nest_side_by_side :
    locate [40, 40, 40, 97, 41, 40, 98, 41, 41, 40] 3 = some ⟨2, 5⟩ ∧
      locate [40, 40, 40, 97, 41, 40, 98, 41, 41, 40] 5 = some ⟨1, 9⟩ ∧
      IsNextAround [40, 40, 40, 97, 41, 40, 98, 41, 41, 40] ⟨2, 5⟩ ⟨1, 9⟩ ∧
      ∀ other, IsBlock [40, 40, 40, 97, 41, 40, 98, 41, 41, 40] other →
        ¬ Span.StrictlyWithin ⟨1, 9⟩ other := by
  have inner : locate [40, 40, 40, 97, 41, 40, 98, 41, 41, 40] 3 = some ⟨2, 5⟩ := by decide
  have outer : locate [40, 40, 40, 97, 41, 40, 98, 41, 41, 40] 2 = some ⟨1, 9⟩ := by decide
  obtain ⟨-, -, ends, next, -⟩ := blocks_nest inner
  obtain ⟨-, -, -, -, last⟩ := blocks_nest outer
  exact ⟨inner, ends.trans outer, (next _).mp outer, last.mp (by decide)⟩

end Block

end LiveCoding
