/-!
# Positions and ranges

An editor speaks of lines and columns.  Both count from zero, and a column counts
characters, so a position means the same whatever the width of the characters in
its line.

## Main Definitions

* `Position`: a line and a column, ordered by line first.
* `Range`: two positions; the second is the first one outside.
* `Range.between`: the range with two given ends, in either order.
-/

namespace LiveCoding

/-- A line and a column in it, both counted from zero. -/
structure Position where
  line : Nat
  column : Nat
deriving DecidableEq, Repr, Inhabited

namespace Position

/-- The start of the document. -/
def origin : Position := ⟨0, 0⟩

/-- Positions are ordered by line, and within a line by column. -/
def le (p q : Position) : Prop :=
  p.line < q.line ∨ (p.line = q.line ∧ p.column ≤ q.column)

instance : LE Position := ⟨le⟩

instance : LT Position := ⟨fun p q => p ≤ q ∧ p ≠ q⟩

instance (p q : Position) : Decidable (p ≤ q) :=
  inferInstanceAs (Decidable (p.line < q.line ∨ (p.line = q.line ∧ p.column ≤ q.column)))

instance (p q : Position) : Decidable (p < q) :=
  inferInstanceAs (Decidable (p ≤ q ∧ p ≠ q))

/-- The order of two positions as a comparison. -/
def compare (p q : Position) : Ordering :=
  (Ord.compare p.line q.line).then (Ord.compare p.column q.column)

instance : Ord Position := ⟨compare⟩

end Position

/-- The text from `start` up to, but without, `stop`. -/
structure Range where
  start : Position
  stop : Position
deriving DecidableEq, Repr, Inhabited

namespace Range

/-- The range with the two ends, whichever comes first. -/
def between (p q : Position) : Range :=
  if p ≤ q then ⟨p, q⟩ else ⟨q, p⟩

/-- A bare cursor: the empty range at a position. -/
def cursor (p : Position) : Range := ⟨p, p⟩

/-- A range whose ends are the same position. -/
def isEmpty (range : Range) : Bool :=
  range.start == range.stop

end Range

end LiveCoding
