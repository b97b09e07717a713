import LiveCoding.Proofs.Frame.Buffer
import LiveCoding.Proofs.Frame.Relay

/-!
# What a scanner holds

After each piece a scanner has read all that it can.  What it holds is the beginning of
a header block, which is short, or a whole header block with a body that is not all
there; so another look at the same bytes finds nothing, and if the pieces are short, so
is what is held.

## Main Definitions

* `Frame.Quiescent`: bytes off whose front nothing can be read yet.
* `Frame.Scanner.headerHeld`: how many of the bytes held are those of a header block.

## Main Statements

* `Frame.quiescent_of_drain`: what cannot be read off the front.
* `Frame.Scanner.Reachable.quiescent`: that is what a scanner holds.
* `Frame.Scanner.headerHeld_pushAll_le`: how long a header block can get.
* `Frame.Scanner.held_quiescent_and_bounded`: what is held after any pieces.

## Design Notes

That nothing can be read off the bytes held is known from `drain`, and needs no look at
single bytes.  How long a header block can get is a matter of pieces, though: it may
begin in one piece, up to its limit, and end in the next.  So `headerHeld` is followed
from byte to byte through one piece, and from piece to piece only up to the limit.
-/

namespace LiveCoding

namespace Frame

/-- Bytes off whose front nothing can be read yet. -/
inductive Quiescent (bytes : List UInt8) : Prop where
  /-- A header block that has not ended, and is not too long to end. -/
  | header (goesOn : ¬ emptyLine <:+: bytes) (short : bytes.length ≤ maxHeader)
  /-- A header block that announces a body which is not too long to be waited for, and
  less than that body behind it. -/
  | body {header front : List UInt8} {length : Nat}
    (cut : bytes = header ++ (emptyLine ++ front)) (ends : EndsFirst header)
    (announced : contentLength header = .ok length) (fits : length ≤ maxBody)
    (part : front.length < length)

/-- Where nothing is read off the front, nothing can be. -/
theorem quiescent_of_drain {bytes : List UInt8} (h : drain bytes = ([], bytes)) :
    Quiescent bytes := by
  rw [drain] at h
  split at h
  next none =>
    split at h
    next long => cases h
    next short => exact .header (splitHeader?_eq_none none) (Nat.le_of_not_lt short)
  next header front split =>
    obtain ⟨cut, ends⟩ := splitHeader?_eq_some split
    split at h
    next error fails => cases (Prod.mk.inj h).1
    next length announced =>
      split at h
      next long => cases h
      next fits =>
        split at h
        next part => exact .body cut ends announced (Nat.le_of_not_lt fits) part
        next whole => cases (Prod.mk.inj h).1

namespace Scanner

/-! ### The bytes held -/

section Held

variable {scanner : Scanner}

/-- **Off what a scanner holds nothing can be read.** -/
theorem Reachable.quiescent (h : scanner.Reachable) : Quiescent scanner.held := by
  apply quiescent_of_drain
  rw [← push_start_eq_drain, h.push_held]
  rfl

/-- A scanner knows from the bytes it holds where in a frame it is. -/
theorem Reachable.eq_of_header (h : scanner.Reachable) (goesOn : ¬ emptyLine <:+: scanner.held)
    (short : scanner.held.length ≤ maxHeader) : scanner = inHeader scanner.held.reverse := by
  have again := h.push_held
  rw [push_eq_ite, feed_open goesOn, not_isOverlong_inHeader short,
    if_neg Bool.false_ne_true] at again
  exact (Prod.mk.inj again).2.symm

theorem Reachable.eq_of_body (h : scanner.Reachable) {header front : List UInt8} {length : Nat}
    (cut : scanner.held = header ++ (emptyLine ++ front)) (ends : EndsFirst header)
    (announced : contentLength header = .ok length) (fits : length ≤ maxBody)
    (part : front.length < length) :
    scanner = inBody header.reverse length front.reverse (length - front.length) := by
  have again := h.push_held
  rw [cut, push_body_part ends front announced fits part] at again
  exact (Prod.mk.inj again).2.symm

/-- The bytes held are counted. -/
theorem Reachable.pending_eq (h : scanner.Reachable) :
    scanner.pending = scanner.held.length := by
  cases h.quiescent with
  | header goesOn short =>
    rw [h.eq_of_header goesOn short, pending, held, List.length_reverse, List.length_reverse,
      List.length_reverse]
  | body cut ends announced fits part =>
    rw [h.eq_of_body cut ends announced fits part]
    simp only [pending, held, List.length_append, List.length_reverse, List.length_cons,
      List.length_nil]
    omega

theorem Reachable.push_nil (h : scanner.Reachable) : scanner.push [] = ([], scanner) := by
  rw [← h.push_eq, List.append_nil, h.push_held]

end Held

/-! ### How much is held -/

/-- How many of the bytes held are those of a header block, with its empty line. -/
def headerHeld : Scanner → Nat
  | .inHeader behind => behind.length
  | .inBody header .. => header.length + emptyLine.length

/-- A byte adds at most itself to a header block. -/
theorem headerHeld_of_goOn {scanner next : Scanner} {b : UInt8} (h : scanner.step b = .goOn next) :
    next.headerHeld ≤ scanner.headerHeld + 1 := by
  rcases step_eq_goOn h with ⟨behind, rfl, -, rfl⟩ |
    ⟨behind, header, length, rfl, bytes, -, -, -, rfl⟩ | ⟨header, length, behind, left, rfl, -, rfl⟩
  · exact Nat.le_refl _
  · -- the empty line is counted with the header block in front of it
    show header.length + 4 ≤ behind.length + 1
    rw [← List.length_cons, bytes]
    exact Nat.le_refl _
  · exact Nat.le_succ _

theorem headerHeld_feed_le (found : List Report) (scanner : Scanner) (bytes : List UInt8) :
    (scanner.feed found bytes).2.headerHeld ≤ scanner.headerHeld + bytes.length := by
  induction bytes generalizing found scanner with
  | nil => exact Nat.le_refl _
  | cons b bytes ih =>
    rw [List.length_cons]
    cases hstep : scanner.step b with
    | goOn next =>
      have one := headerHeld_of_goOn hstep
      have more := ih found next
      rw [feed_cons_of_goOn hstep]
      omega
    | ends report =>
      have more := ih (report :: found) start
      have fresh : start.headerHeld = 0 := rfl
      rw [feed_cons_of_ends hstep]
      omega
    | giveUp error =>
      rw [feed_cons_of_giveUp hstep]
      exact Nat.zero_le _

/-- In a body, the next header block begins at the end of the body at the earliest. -/
theorem headerHeld_feed_body_le (found : List Report) (header : List UInt8) (length : Nat)
    (behind : List UInt8) (left : Nat) (bytes : List UInt8) :
    ((inBody header length behind left).feed found bytes).2.headerHeld ≤
      max (header.length + emptyLine.length) bytes.length := by
  induction bytes generalizing behind left with
  | nil => exact Nat.le_max_left _ _
  | cons b bytes ih =>
    rw [List.length_cons]
    by_cases last : left ≤ 1
    · have ends : (inBody header length behind left).step b =
          .ends (summarize (b :: behind).reverse) := by
        rw [step, if_pos last]
      have more := headerHeld_feed_le (summarize (b :: behind).reverse :: found) start bytes
      have fresh : start.headerHeld = 0 := rfl
      rw [feed_cons_of_ends ends]
      omega
    · have goOn : (inBody header length behind left).step b =
          .goOn (inBody header length (b :: behind) (left - 1)) := by
        rw [step, if_neg last]
      have more := ih (b :: behind) (left - 1)
      rw [feed_cons_of_goOn goOn]
      omega

/-- A piece adds at most itself to a header block that has not ended, and nothing to one
that has. -/
theorem headerHeld_push_le {scanner : Scanner} (short : scanner.isOverlong = false)
    (bytes : List UInt8) :
    (scanner.push bytes).2.headerHeld ≤ max scanner.headerHeld (maxHeader + bytes.length) := by
  rw [push_eq_ite]
  split
  · exact Nat.zero_le _
  · dsimp only
    cases scanner with
    | inHeader behind =>
      rw [isOverlong, decide_eq_false_iff_not] at short
      have more := headerHeld_feed_le [] (inHeader behind) bytes
      have here : (inHeader behind).headerHeld = behind.length := rfl
      omega
    | inBody header length behind left =>
      have more := headerHeld_feed_body_le [] header length behind left bytes
      rw [headerHeld]
      omega

/-- **How long a header block can get** with its empty line, where no piece is longer than
`most`. -/
theorem headerHeld_pushAll_le {pieces : List (List UInt8)} {most : Nat}
    (h : ∀ piece ∈ pieces, piece.length ≤ most) :
    (start.pushAll pieces).2.headerHeld ≤ maxHeader + most := by
  induction pieces using List.reverseRecOn with
  | nil => exact Nat.zero_le _
  | append_singleton pieces piece ih =>
    have before := ih fun other hmem => h other (List.mem_append_left _ hmem)
    have this : piece.length ≤ most := h piece (by simp)
    have reachable : (start.pushAll pieces).2.Reachable := ⟨pieces, rfl⟩
    have next := headerHeld_push_le reachable.not_isOverlong piece
    rw [pushAll_concat]
    dsimp only
    omega

/-- Behind a header block less is held than the longest body has. -/
theorem Reachable.pending_lt {scanner : Scanner} (h : scanner.Reachable) :
    scanner.pending < scanner.headerHeld + maxBody := by
  cases h.quiescent with
  | header goesOn short =>
    rw [h.eq_of_header goesOn short, pending, headerHeld]
    exact Nat.lt_add_of_pos_right (by decide)
  | body cut ends announced fits part =>
    rw [h.eq_of_body cut ends announced fits part, pending, headerHeld, emptyLine]
    simp only [List.length_reverse, List.length_cons, List.length_nil]
    omega

theorem pending_pushAll_lt {pieces : List (List UInt8)} {most : Nat}
    (h : ∀ piece ∈ pieces, piece.length ≤ most) :
    (start.pushAll pieces).2.pending < maxBody + maxHeader + most := by
  have reachable : (start.pushAll pieces).2.Reachable := ⟨pieces, rfl⟩
  have body := reachable.pending_lt
  have header := headerHeld_pushAll_le h
  omega

/-! ### In a relay -/

theorem scanner_forward (writer : Relay.Writer) (flow : Relay.Flow) (piece : List UInt8) :
    (flow.forward writer piece).1.scanner = (flow.scanner.push piece).2 := by
  unfold Relay.Flow.forward
  dsimp only
  split
  · rfl
  · split <;> rfl

/-- The scanner of a relay sees the pieces that are read, up to the one that stops the
relay if there is one. -/
theorem exists_scanner_pump (writer : Relay.Writer) (flow : Relay.Flow)
    (events : List Relay.Event) :
    ∃ seen, seen <+: Relay.pieces events ∧
      (Relay.pump writer flow events).1.scanner = (flow.scanner.pushAll seen).2 := by
  induction events generalizing flow with
  | nil => exact ⟨[], List.nil_prefix, rfl⟩
  | cons event rest ih =>
    cases event with
    | interrupted => exact ih flow
    | failed fault => exact ⟨[], List.nil_prefix, rfl⟩
    | bytes piece =>
      cases piece with
      | nil => exact ⟨[], List.nil_prefix, rfl⟩
      | cons b piece =>
        have hscanner := scanner_forward writer flow (b :: piece)
        rw [Relay.pump_bytes]
        split
        next flow' fault hforward =>
          rw [hforward] at hscanner
          exact ⟨[b :: piece], ⟨Relay.pieces rest, rfl⟩, hscanner⟩
        next flow' hforward =>
          rw [hforward] at hscanner
          obtain ⟨seen, begins, hseen⟩ := ih flow'
          refine ⟨(b :: piece) :: seen, List.cons_prefix_cons.mpr ⟨rfl, begins⟩, ?_⟩
          rw [hseen, hscanner, pushAll_cons]

theorem length_le_of_mem_reads {bytes piece : List UInt8}
    (h : piece ∈ Relay.pieces (Relay.reads bytes)) : piece.length ≤ Relay.maxRead := by
  fun_induction Relay.reads bytes with
  | case1 => contradiction
  | case2 first rest ih =>
    rcases List.mem_cons.mp h with rfl | later
    · rw [List.length_cons, List.length_take, Relay.maxRead]
      omega
    · exact ih later

/-- The scanner of a relay that reads short pieces. -/
theorem pending_pump_lt (writer : Relay.Writer) {events : List Relay.Event} {most : Nat}
    (h : ∀ piece ∈ Relay.pieces events, piece.length ≤ most) :
    (Relay.pump writer {} events).1.scanner.pending < maxBody + maxHeader + most := by
  obtain ⟨seen, begins, hseen⟩ := exists_scanner_pump writer {} events
  rw [hseen]
  exact pending_pushAll_lt fun piece hmem => h piece (begins.subset hmem)

/-- **A scanner always waits, and never for much.**  After any pieces nothing can be read
off the bytes held, which are all counted, and no bytes change nothing and bring no
report.  Where no piece has more than 8192 bytes, always less than 64 MiB and 16 KiB are
held, whatever the bytes are; and a relay reads no longer pieces. -/
theorem held_quiescent_and_bounded :
    (∀ pieces : List (List UInt8),
      Quiescent (start.pushAll pieces).2.held ∧
      (start.pushAll pieces).2.pending = (start.pushAll pieces).2.held.length ∧
      (start.pushAll pieces).2.push [] = ([], (start.pushAll pieces).2) ∧
      ((∀ piece ∈ pieces, piece.length ≤ 8192) →
        (start.pushAll pieces).2.pending < 64 * 1024 * 1024 + 16 * 1024)) ∧
    ∀ (writer : Relay.Writer) (bytes : List UInt8),
      (Relay.pump writer {} (Relay.reads bytes)).1.scanner.pending <
        64 * 1024 * 1024 + 16 * 1024 := by
  have limits : maxBody + maxHeader + 8192 = 64 * 1024 * 1024 + 16 * 1024 := rfl
  rw [← limits]
  refine ⟨?_, ?_⟩
  · intro pieces
    have reachable : (start.pushAll pieces).2.Reachable := ⟨pieces, rfl⟩
    exact ⟨reachable.quiescent, reachable.pending_eq, reachable.push_nil, pending_pushAll_lt⟩
  · intro writer bytes
    exact pending_pump_lt writer fun piece hmem => length_le_of_mem_reads hmem

end Scanner

end Frame

end LiveCoding
