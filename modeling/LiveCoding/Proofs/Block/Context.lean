import LiveCoding.Proofs.Block.Locate

/-!
# Blocks in any context

Where a block is found depends on the bytes of the block and on nothing else: both
scans come to their end inside it, so what stands in front of its opening
parenthesis and behind its closing one can be anything, brackets without partners
included.

This is seen best on a text that is cut, not on offsets.  A text with a block around
the cursor has four parts, the one in front of the block, the two parts of the block
on both sides of the cursor, and the one behind the block; what the scans ask for is
said of the two parts in the middle alone.

## Main Definitions

* `Block.scan`: the two scans of `Block.locate`, over any alphabet.
* `Block.Around`: a text cut into four parts by the block around a cursor.

## Main Statements

* `Block.scan_eq_some_iff`: what the scans find, by the four parts.
* `Block.locate_eq_scan`: `Block.locate` is these scans over bytes.
* `Block.locate_in_context`: the block with anything around it.

## Design Notes

The alphabet is a parameter since the scans are run over the characters of a text too
(`Proofs.Block.Characters`).  `scan` has no check on what it has found, which
`locate` has; the check never refuses anything (`locate_eq_bind`).
-/

namespace LiveCoding

/-- The bytes that a span covers. -/
def Span.bytes (span : Span) (text : List UInt8) : List UInt8 :=
  (text.take span.stop).drop span.start

namespace Block

/-! ### The scans on a list that is cut -/

/-- What stands in front of a cursor, cut at an `up`, is cut there out of the whole text. -/
theorem cut_of_take {α : Type} {up : α} {text before front : List α} {cursor : Nat}
    (hcursor : cursor ≤ text.length) (htake : text.take cursor = before ++ up :: front) :
    cursor = before.length + 1 + front.length ∧
      text = before ++ up :: (front ++ text.drop cursor) ∧
      text.drop (before.length + 1) = front ++ text.drop cursor := by
  have htext : text = before ++ up :: (front ++ text.drop cursor) := by
    rw [← List.cons_append, ← List.append_assoc, ← htake, List.take_append_drop]
  refine ⟨?_, htext, ?_⟩
  · have hlength := congrArg List.length htake
    rw [List.length_take, Nat.min_eq_left hcursor, List.length_append, List.length_cons] at hlength
    omega
  · conv_lhs => rw [htext, List.append_cons]
    refine List.drop_left' ?_
    rw [List.length_append, List.length_singleton]

section Scan

variable {α : Type} [DecidableEq α] {up down : α}

/-- The scan finds the `down` that cuts a list behind a balanced front. -/
theorem unmatched?_eq_some_iff_cut (hne : up ≠ down) (depth : Nat) (xs : List α) (n : Nat) :
    unmatched? up down depth xs = some n ↔
      ∃ front back, xs = front ++ down :: back ∧ front.length = n ∧
        BalancedFrom up down depth front := by
  rw [unmatched?_eq_some_iff hne]
  constructor
  · rintro ⟨hn, balanced⟩
    obtain ⟨inRange, hdown⟩ := List.getElem?_eq_some_iff.mp hn
    refine ⟨xs.take n, xs.drop (n + 1), ?_, ?_, balanced⟩
    · rw [← hdown, ← List.drop_eq_getElem_cons, List.take_append_drop]
    · rw [List.length_take, Nat.min_eq_left (Nat.le_of_lt inRange)]
  · rintro ⟨front, back, rfl, rfl, balanced⟩
    rw [List.take_left]
    exact ⟨by simp, balanced⟩

/-- Read from its end, a list is cut by an `up` in front of a balanced back. -/
theorem unmatched?_reverse_eq_some_iff_cut (hne : up ≠ down) (xs : List α) (n : Nat) :
    unmatched? down up 0 xs.reverse = some n ↔
      ∃ front back, xs = front ++ up :: back ∧ back.length = n ∧
        BalancedFrom up down 0 back := by
  rw [unmatched?_eq_some_iff_cut hne.symm]
  constructor
  · rintro ⟨front, back, hxs, rfl, balanced⟩
    refine ⟨back.reverse, front.reverse, ?_, List.length_reverse, ?_⟩
    · rw [← List.reverse_reverse xs, hxs]
      simp
    · rwa [balancedFrom_reverse]
  · rintro ⟨front, back, rfl, rfl, balanced⟩
    refine ⟨back.reverse, front.reverse, by simp, List.length_reverse, ?_⟩
    rwa [balancedFrom_reverse]

/-- The block around a cursor in a text over any alphabet, by the two scans of
`locate`: backward from the cursor to an `up` that is still open there, and forward
from that one to the `down` that closes it. -/
def scan (up down : α) (text : List α) (cursor : Nat) : Option Span :=
  if text.length < cursor then none
  else
    (unmatched? down up 0 (text.take cursor).reverse).bind fun back =>
      (unmatched? up down 0 (text.drop (cursor - back))).map fun more =>
        ⟨cursor - 1 - back, cursor - back + more + 1⟩

/-- A text cut into four parts by the block around a cursor: `before` and `after` stand
on both sides of the block, `front` and `back` on both sides of the cursor inside its
brackets. -/
structure Around (up down : α) (text : List α) (cursor : Nat)
    (before front back after : List α) : Prop where
  text_eq : text = before ++ up :: (front ++ back) ++ down :: after
  cursor_eq : cursor = before.length + 1 + front.length
  toCursor : BalancedFrom up down 0 front
  balanced : BalancedFrom up down 0 (front ++ back)

namespace Around

variable {text before front back after : List α} {cursor : Nat}

theorem take_cursor (around : Around up down text cursor before front back after) :
    text.take cursor = before ++ up :: front := by
  have whole : text = (before ++ up :: front) ++ (back ++ down :: after) := by
    rw [around.text_eq]
    simp
  rw [whole]
  refine List.take_left' ?_
  rw [around.cursor_eq, List.length_append, List.length_cons]
  omega

theorem drop_opening (around : Around up down text cursor before front back after) :
    text.drop (before.length + 1) = front ++ back ++ down :: after := by
  have whole : text = (before ++ [up]) ++ (front ++ back ++ down :: after) := by
    rw [around.text_eq]
    simp
  rw [whole]
  refine List.drop_left' ?_
  rw [List.length_append, List.length_singleton]

theorem cursor_le_length (around : Around up down text cursor before front back after) :
    cursor ≤ text.length := by
  rw [around.text_eq, around.cursor_eq]
  simp only [List.length_append, List.length_cons]
  omega

end Around

/-- A balanced part up to the cursor ends in front of the `down` that cuts off a balanced
part, since that `down` would be one too many in it. -/
theorem prefix_of_balancedFrom (hne : up ≠ down) {front rest mid after : List α}
    (toCursor : BalancedFrom up down 0 front) (toClose : BalancedFrom up down 0 mid)
    (hcut : front ++ rest = mid ++ down :: after) : front <+: mid := by
  rcases List.append_eq_append_iff.mp hcut with ⟨back, rfl, -⟩ | ⟨more, rfl, hmore⟩
  · exact List.prefix_append front back
  · cases more with
    | nil => simp
    | cons x more =>
      obtain ⟨rfl, -⟩ := List.cons.inj hmore
      have below := toCursor.2 (mid ++ [down]) (by simp)
      have equal := toClose.1
      rw [List.count_append, List.count_append, List.count_singleton_self,
        List.count_singleton, if_neg (by simpa using hne.symm)] at below
      omega

/-- **What the two scans find**, on any list: a text is cut into four parts around the
cursor, and only the two in the middle have to be as they are. -/
theorem scan_eq_some_iff (hne : up ≠ down) (text : List α) (cursor : Nat) (span : Span) :
    scan up down text cursor = some span ↔
      ∃ before front back after, Around up down text cursor before front back after ∧
        span = ⟨before.length, before.length + (front ++ back).length + 2⟩ := by
  unfold scan
  constructor
  · intro found
    split at found
    · contradiction
    next hcursor =>
      obtain ⟨n, hopen, found⟩ := Option.bind_eq_some_iff.mp found
      obtain ⟨m, hclose, rfl⟩ := Option.map_eq_some_iff.mp found
      obtain ⟨before, front, htake, rfl, toCursor⟩ :=
        (unmatched?_reverse_eq_some_iff_cut hne _ _).mp hopen
      obtain ⟨hlength, htext, hdrop⟩ := cut_of_take (Nat.le_of_not_lt hcursor) htake
      rw [show cursor - front.length = before.length + 1 by omega, hdrop] at hclose
      obtain ⟨mid, after, hmid, rfl, toClose⟩ := (unmatched?_eq_some_iff_cut hne _ _ _).mp hclose
      obtain ⟨back, rfl⟩ := prefix_of_balancedFrom hne toCursor toClose hmid
      refine ⟨before, front, back, after, ⟨?_, hlength, toCursor, toClose⟩, ?_⟩
      · rw [htext, hmid]
        simp
      · rw [Span.mk.injEq]
        omega
  · rintro ⟨before, front, back, after, around, rfl⟩
    have hcursor := around.cursor_eq
    have hopen := (unmatched?_reverse_eq_some_iff_cut hne (before ++ up :: front) _).mpr
      ⟨before, front, rfl, rfl, around.toCursor⟩
    have hclose := (unmatched?_eq_some_iff_cut hne 0 (front ++ back ++ down :: after) _).mpr
      ⟨front ++ back, after, rfl, rfl, around.balanced⟩
    rw [if_neg (Nat.not_lt_of_le around.cursor_le_length), around.take_cursor, hopen,
      Option.bind_some, show cursor - front.length = before.length + 1 by omega,
      around.drop_opening, hclose, Option.map_some, Option.some.injEq, Span.mk.injEq]
    omega

end Scan

/-! ### Bytes -/

/-- The scans over bytes are those of `locate`. -/
theorem locate_eq_scan (text : List UInt8) (cursor : Nat) :
    locate text cursor = scan opening closing text cursor := by
  rw [locate_eq_bind, scan]
  split
  · rfl
  next hcursor =>
    have hlength : (text.take cursor).reverse.length = cursor := by
      rw [List.length_reverse, List.length_take]
      omega
    rw [openBefore?_eq_map, hlength]
    cases hopen : unmatched? closing opening 0 (text.take cursor).reverse with
    | none => rfl
    | some n =>
      have inRange := (List.getElem?_eq_some_iff.mp
        ((unmatched?_eq_some_iff opening_ne_closing.symm _ _ _).mp hopen).1).1
      rw [Option.map_some, Option.bind_some, Option.bind_some, closeAfter?_eq_map,
        Option.map_map, show cursor - 1 - n + 1 = cursor - n by omega]
      rfl

/-- The block around a cursor, by the four parts that it cuts the text into. -/
theorem locate_eq_some_iff_around (text : List UInt8) (cursor : Nat) (span : Span) :
    locate text cursor = some span ↔
      ∃ before front back after, Around opening closing text cursor before front back after ∧
        span = ⟨before.length, before.length + (front ++ back).length + 2⟩ := by
  rw [locate_eq_scan, scan_eq_some_iff opening_ne_closing]

/-- The bytes of a block are its two parts between its brackets. -/
theorem Around.bytes_eq {text before front back after : List UInt8} {cursor : Nat}
    (around : Around opening closing text cursor before front back after) :
    Span.bytes ⟨before.length, before.length + (front ++ back).length + 2⟩ text =
      opening :: (front ++ back ++ [closing]) := by
  have whole : text = before ++ (opening :: (front ++ back ++ [closing]) ++ after) := by
    rw [around.text_eq]
    simp
  have hlength : (opening :: (front ++ back ++ [closing])).length =
      (front ++ back).length + 2 := by
    rw [List.length_cons, List.length_append, List.length_singleton]
  rw [Span.bytes, whole, List.drop_take, List.drop_left, Nat.add_assoc, Nat.add_sub_cancel_left,
    ← hlength, List.take_left]

/-- **A block is found by its own bytes alone.**  Put between any other bytes, balanced or
not, the bytes of a block are the block around the same place inside them. -/
theorem locate_in_context {text : List UInt8} {cursor : Nat} {span : Span}
    (found : locate text cursor = some span) (before after : List UInt8) :
    locate (before ++ span.bytes text ++ after) (before.length + (cursor - span.start)) =
      some ⟨before.length, before.length + (span.stop - span.start)⟩ := by
  obtain ⟨before', front, back, after', around, rfl⟩ :=
    (locate_eq_some_iff_around text cursor span).mp found
  rw [around.bytes_eq, locate_eq_some_iff_around]
  refine ⟨before, front, back, after, ⟨?_, ?_, around.toCursor, around.balanced⟩, ?_⟩
  · simp
  · have := around.cursor_eq
    dsimp only
    omega
  · rw [Span.mk.injEq]
    dsimp only
    omega

/-- A block out of a text with brackets that have no partner, put among others that have
none. -/
theorem locate_in_context_unbalanced :
    locate [41, 40, 40, 97, 40, 41, 41, 40] 4 = some ⟨2, 7⟩ ∧
      locate ([41, 40] ++ [40, 97, 40, 41, 41] ++ [41, 41, 40]) 4 = some ⟨2, 7⟩ := by
  have found : locate [41, 40, 40, 97, 40, 41, 41, 40] 4 = some ⟨2, 7⟩ := by decide
  exact ⟨found, locate_in_context found [41, 40] [41, 41, 40]⟩

end Block

end LiveCoding
