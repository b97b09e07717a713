import LiveCoding.Frame.Scanner
import Mathlib.Data.List.Induction

/-!
# Pieces of a stream

Where a stream is cut into pieces changes nothing, as long as no bytes are given up:
what is reported on a piece and then on another one is what is reported on the two
in one.

## Main Definitions

* `Frame.GivesUp`: a report behind which bytes are lost.

## Main Statements

* `Frame.Scanner.push_append`: two pieces and the two in one.
* `Frame.Scanner.pushAll_eq_push_of_cuts`, `Frame.Scanner.pushAll_eq_push`: any number of
  pieces.

## Design Notes

The two faults that give up bytes come from different places: `step` reports a long
body, and `push` a long header block, but only at the end of a piece.  So `feed`
goes on across a cut unless the first fault is reported (`feed_append`), and the
second one is looked at in `push_append` alone.
-/

namespace LiveCoding

namespace Frame

/-- A report of a fault behind which there is nothing to go on. -/
def GivesUp (report : Report) : Prop :=
  report = .error .headerTooLarge ∨ ∃ length, report = .error (.bodyTooLarge length)

namespace Scanner

/-! ### Bytes one after the other -/

theorem behindHeader_eq_giveUp {header : List UInt8} {error : Error}
    (h : behindHeader header = .giveUp error) : ∃ length, error = .bodyTooLarge length := by
  unfold behindHeader at h
  split at h
  next => contradiction
  next length _ =>
    split at h
    next =>
      obtain rfl := Step.giveUp.inj h
      exact ⟨length, rfl⟩
    next => split at h <;> contradiction

/-- The only fault that a single byte gives up on is a body that is too long. -/
theorem step_eq_giveUp {scanner : Scanner} {b : UInt8} {error : Error}
    (h : scanner.step b = .giveUp error) : ∃ length, error = .bodyTooLarge length := by
  cases scanner with
  | inHeader behind =>
    rw [step] at h
    split at h
    next => exact behindHeader_eq_giveUp h
    next => contradiction
  | inBody header length behind left =>
    rw [step] at h
    split at h <;> contradiction

section Feed

variable {found : List Report} {scanner next : Scanner} {b : UInt8} {rest : List UInt8}

theorem feed_cons_of_goOn (h : scanner.step b = .goOn next) :
    scanner.feed found (b :: rest) = next.feed found rest := by
  rw [feed, h]

theorem feed_cons_of_ends {report : Report} (h : scanner.step b = .ends report) :
    scanner.feed found (b :: rest) = start.feed (report :: found) rest := by
  rw [feed, h]

theorem feed_cons_of_giveUp {error : Error} (h : scanner.step b = .giveUp error) :
    scanner.feed found (b :: rest) = (.error error :: found, start) := by
  rw [feed, h]

end Feed

/-- What was found before stays below what is found. -/
theorem feed_found (found : List Report) (scanner : Scanner) (bytes : List UInt8) :
    scanner.feed found bytes =
      ((scanner.feed [] bytes).1 ++ found, (scanner.feed [] bytes).2) := by
  induction bytes generalizing found scanner with
  | nil => rfl
  | cons b rest ih =>
    cases h : scanner.step b with
    | goOn next =>
      rw [feed_cons_of_goOn h, feed_cons_of_goOn h]
      exact ih found next
    | ends report =>
      rw [feed_cons_of_ends h, feed_cons_of_ends h, ih (report :: found), ih [report],
        List.append_assoc]
      rfl
    | giveUp error =>
      rw [feed_cons_of_giveUp h, feed_cons_of_giveUp h]
      rfl

/-- **Across a cut the scanner goes on**, unless it has given up in front of it. -/
theorem feed_append {found : List Report} {scanner : Scanner} {front : List UInt8}
    (goesOn : ∀ length, .error (.bodyTooLarge length) ∉ (scanner.feed found front).1)
    (back : List UInt8) :
    scanner.feed found (front ++ back) =
      (scanner.feed found front).2.feed (scanner.feed found front).1 back := by
  induction front generalizing found scanner with
  | nil => rfl
  | cons b front ih =>
    rw [List.cons_append]
    cases h : scanner.step b with
    | goOn next =>
      rw [feed_cons_of_goOn h] at goesOn ⊢
      rw [feed_cons_of_goOn h]
      exact ih goesOn
    | ends report =>
      rw [feed_cons_of_ends h] at goesOn ⊢
      rw [feed_cons_of_ends h]
      exact ih goesOn
    | giveUp error =>
      -- here the rest of the front would be lost, and the fault is among the reports
      rw [feed_cons_of_giveUp h] at goesOn
      obtain ⟨length, rfl⟩ := step_eq_giveUp h
      exact absurd List.mem_cons_self (goesOn length)

/-! ### Pieces -/

/-- The end of a piece is where the length of an open header block is asked. -/
theorem push_eq_ite (scanner : Scanner) (bytes : List UInt8) :
    scanner.push bytes =
      if (scanner.feed [] bytes).2.isOverlong then
        ((.error .headerTooLarge :: (scanner.feed [] bytes).1).reverse, start)
      else ((scanner.feed [] bytes).1.reverse, (scanner.feed [] bytes).2) := rfl

/-- A header block is waited for up to its limit. -/
theorem not_isOverlong_inHeader {front : List UInt8} (short : front.length ≤ maxHeader) :
    (inHeader front.reverse).isOverlong = false := by
  rw [isOverlong, List.length_reverse, decide_eq_false_iff_not]
  exact Nat.not_lt_of_le short

section Pieces

variable {scanner : Scanner} {front : List UInt8}

theorem not_isOverlong_of_push (goesOn : ∀ report ∈ (scanner.push front).1, ¬ GivesUp report) :
    (scanner.feed [] front).2.isOverlong = false := by
  by_contra overlong
  rw [Bool.not_eq_false] at overlong
  refine goesOn (.error .headerTooLarge) ?_ (Or.inl rfl)
  rw [push_eq_ite, if_pos overlong]
  exact List.mem_reverse.mpr List.mem_cons_self

/-- A piece with no fault in it that bytes are given up for. -/
theorem push_eq (goesOn : ∀ report ∈ (scanner.push front).1, ¬ GivesUp report) :
    scanner.push front =
      ((scanner.feed [] front).1.reverse, (scanner.feed [] front).2) := by
  rw [push_eq_ite, not_isOverlong_of_push goesOn, if_neg Bool.false_ne_true]

/-- **Two pieces, or the two in one.**  The second may well be one that bytes are
given up in. -/
theorem push_append (goesOn : ∀ report ∈ (scanner.push front).1, ¬ GivesUp report)
    (back : List UInt8) :
    scanner.push (front ++ back) =
      ((scanner.push front).1 ++ ((scanner.push front).2.push back).1,
        ((scanner.push front).2.push back).2) := by
  have noLongBody : ∀ length,
      .error (.bodyTooLarge length) ∉ (scanner.feed [] front).1 := by
    intro length mem
    refine goesOn _ ?_ (Or.inr ⟨length, rfl⟩)
    rw [push_eq goesOn]
    exact List.mem_reverse.mpr mem
  rw [push_eq goesOn, push_eq_ite, push_eq_ite, feed_append noLongBody, feed_found]
  split
  · rw [← List.cons_append, List.reverse_append]
  · rw [List.reverse_append]

end Pieces

theorem push_start_nil : start.push [] = ([], start) := rfl

theorem pushAll_cons (scanner : Scanner) (piece : List UInt8) (pieces : List (List UInt8)) :
    scanner.pushAll (piece :: pieces) =
      ((scanner.push piece).1 ++ ((scanner.push piece).2.pushAll pieces).1,
        ((scanner.push piece).2.pushAll pieces).2) := rfl

/-- One more piece at the end. -/
theorem pushAll_concat (scanner : Scanner) (pieces : List (List UInt8)) (piece : List UInt8) :
    scanner.pushAll (pieces ++ [piece]) =
      ((scanner.pushAll pieces).1 ++ ((scanner.pushAll pieces).2.push piece).1,
        ((scanner.pushAll pieces).2.push piece).2) := by
  induction pieces generalizing scanner with
  | nil => simp [pushAll]
  | cons first pieces ih =>
    rw [List.cons_append, pushAll_cons, ih, pushAll_cons, List.append_assoc]

/-- **Any number of pieces, or all of them in one**, if up to no cut bytes would be given
up. -/
theorem pushAll_eq_push_of_cuts {pieces : List (List UInt8)}
    (goesOn : ∀ front, front <+: pieces →
      ∀ report ∈ (start.push front.flatten).1, ¬ GivesUp report) :
    start.pushAll pieces = start.push pieces.flatten := by
  -- piece by piece from the left, so that every step goes on from the bytes up to a cut
  induction pieces using List.reverseRecOn with
  | nil => rw [pushAll, List.flatten_nil, push_start_nil]
  | append_singleton pieces piece ih =>
    have before : pieces <+: pieces ++ [piece] := List.prefix_append _ _
    rw [pushAll_concat, ih fun front begins => goesOn front (begins.trans before),
      List.flatten_concat, push_append (goesOn pieces before)]

/-- The same on a stream in no front of which bytes are given up. -/
theorem pushAll_eq_push {stream : List UInt8}
    (goesOn : ∀ front, front <+: stream → ∀ report ∈ (start.push front).1, ¬ GivesUp report)
    {pieces : List (List UInt8)} (h : pieces.flatten <+: stream) :
    start.pushAll pieces = start.push pieces.flatten := by
  refine pushAll_eq_push_of_cuts fun front begins => goesOn front.flatten ?_
  obtain ⟨rest, rfl⟩ := begins
  rw [List.flatten_append] at h
  exact (List.prefix_append _ _).trans h

end Scanner

end Frame

end LiveCoding
