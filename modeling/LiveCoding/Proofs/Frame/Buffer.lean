import LiveCoding.Proofs.Frame.Segment

/-!
# The scanner as a buffer

The scanner goes from byte to byte.  What it does can be told without its state: it
holds some bytes, a piece is put behind them, and then whatever can be read is read
off the front (`drain`): the header block in front of the first empty line, and the
body that it announces.  So of the past only the bytes held matter, and it does not
matter in which pieces they came.

## Main Definitions

* `Frame.splitHeader?`: the first empty line, and what stands on its two sides.
* `Frame.drain`: everything that can be read off the front of some bytes.
* `Frame.Scanner.Reachable`: a scanner that some pieces lead to.

## Main Statements

* `Frame.Scanner.push_start_eq_drain`: the first piece of a stream is drained.
* `Frame.Scanner.Reachable.push_eq`: a piece is read as one with the bytes held.
* `Frame.Scanner.push_pieces`: where a stream is cut changes nothing.
-/

namespace LiveCoding

namespace Frame

/-! ### The first empty line -/

/-- The header block in front of the first empty line, and what is behind it. -/
def splitHeader? : List UInt8 → Option (List UInt8 × List UInt8)
  | [] => none
  | b :: rest =>
    if emptyLine <+: b :: rest then some ([], (b :: rest).drop emptyLine.length)
    else (splitHeader? rest).map fun (header, behind) => (b :: header, behind)

theorem splitHeader?_eq_some {bytes header rest : List UInt8}
    (h : splitHeader? bytes = some (header, rest)) :
    bytes = header ++ (emptyLine ++ rest) ∧ EndsFirst header := by
  induction bytes generalizing header with
  | nil => contradiction
  | cons b bytes ih =>
    rw [splitHeader?] at h
    split at h
    next here =>
      obtain ⟨rfl, rfl⟩ := Prod.mk.inj (Option.some.inj h)
      refine ⟨?_, fun n _ => Nat.zero_le n⟩
      obtain ⟨rest, hrest⟩ := here
      rw [← hrest, List.drop_left, List.nil_append]
    next later =>
      obtain ⟨⟨front, behind⟩, hfront, heq⟩ := Option.map_eq_some_iff.mp h
      obtain ⟨rfl, rfl⟩ := Prod.mk.inj heq
      obtain ⟨rfl, ends⟩ := ih hfront
      refine ⟨rfl, ?_⟩
      intro n hn
      cases n with
      | zero =>
        -- an empty line at the very beginning would have been found there
        refine absurd (hn.trans ?_) later
        rw [List.drop_zero, ← List.append_assoc]
        exact List.prefix_append (b :: front ++ emptyLine) behind
      | succ n => exact Nat.succ_le_succ (ends n hn)

theorem splitHeader?_eq_none {bytes : List UInt8} (h : splitHeader? bytes = none) :
    ¬ emptyLine <:+: bytes := by
  induction bytes with
  | nil => decide
  | cons b bytes ih =>
    rw [splitHeader?] at h
    split at h
    · contradiction
    next later =>
      rw [List.infix_cons_iff]
      exact not_or.mpr ⟨later, ih (Option.map_eq_none_iff.mp h)⟩

theorem length_of_splitHeader? {bytes header rest : List UInt8}
    (h : splitHeader? bytes = some (header, rest)) : rest.length < bytes.length := by
  rw [(splitHeader?_eq_some h).1, List.length_append, List.length_append, emptyLine]
  simp only [List.length_cons]
  omega

/-- A header block without an empty line of its own can be told by looking for one. -/
theorem endsFirst_iff {header : List UInt8} :
    EndsFirst header ↔ splitHeader? (header ++ emptyLine) = some (header, []) := by
  constructor
  · intro ends
    cases split : splitHeader? (header ++ emptyLine) with
    | none => exact absurd (List.suffix_append _ _).isInfix (splitHeader?_eq_none split)
    | some both =>
      obtain ⟨front, rest⟩ := both
      obtain ⟨cut, -⟩ := splitHeader?_eq_some split
      have late : header.length ≤ front.length := by
        refine ends front.length ?_
        rw [cut, List.drop_left]
        exact List.prefix_append _ _
      have lengths := congrArg List.length cut
      simp only [List.length_append] at lengths
      obtain rfl : rest = [] := List.length_eq_zero_iff.mp (by omega)
      rw [List.append_nil] at cut
      rw [List.append_cancel_right cut]
  · intro split
    exact (splitHeader?_eq_some split).2

instance : DecidablePred EndsFirst :=
  fun _ => decidable_of_iff _ endsFirst_iff.symm

/-! ### Reading off the front -/

/-- Everything that can be read off the front of some bytes, and the bytes that are
left. -/
def drain (bytes : List UInt8) : List Report × List UInt8 :=
  match _ : splitHeader? bytes with
  | none =>
    if maxHeader < bytes.length then ([.error .headerTooLarge], []) else ([], bytes)
  | some (header, rest) =>
    match contentLength header with
    | .error error =>
      let (reports, left) := drain rest
      (.error error :: reports, left)
    | .ok length =>
      if maxBody < length then ([.error (.bodyTooLarge length)], [])
      else if rest.length < length then ([], bytes)
      else
        let (reports, left) := drain (rest.drop length)
        (summarize (rest.take length) :: reports, left)
termination_by bytes.length
decreasing_by
  · exact length_of_splitHeader? ‹_›
  · have := length_of_splitHeader? ‹splitHeader? bytes = _›
    rw [List.length_drop]
    omega

namespace Scanner

/-- Without an empty line all bytes are held as a header block. -/
theorem feed_open {bytes : List UInt8} (h : ¬ emptyLine <:+: bytes) (found : List Report) :
    start.feed found bytes = (found, inHeader bytes.reverse) := by
  have goOn (rest : List UInt8) :
      start.feed found (bytes ++ rest) = (inHeader bytes.reverse).feed found rest := by
    induction bytes using List.reverseRecOn generalizing rest with
    | nil => rfl
    | append_singleton bytes b ih =>
      have notEnded : endedHeader? (b :: bytes.reverse) = none := by
        cases early : endedHeader? (b :: bytes.reverse) with
        | none => rfl
        | some header =>
          -- these bytes would end with an empty line
          refine absurd ⟨header.reverse, [], ?_⟩ h
          rw [List.append_nil, ← List.reverse_inj, List.reverse_append, List.reverse_reverse,
            List.reverse_concat, endedHeader?_eq_some early]
          rfl
      have goOn : (inHeader bytes.reverse).step b = .goOn (inHeader (b :: bytes.reverse)) := by
        rw [step, notEnded]
      have before : ¬ emptyLine <:+: bytes := mt (·.trans (List.prefix_append _ _).isInfix) h
      rw [List.append_assoc, ih before, List.singleton_append, feed_cons_of_goOn goOn,
        List.reverse_concat]
  have whole := goOn []
  rwa [List.append_nil] at whole

/-- A segment at the front is reported, and the rest is a piece of its own. -/
theorem push_of_feed {bytes rest : List UInt8} {report : Report}
    (h : start.feed [] bytes = start.feed [report] rest) :
    start.push bytes = (report :: (start.push rest).1, (start.push rest).2) := by
  rw [push_eq_ite, push_eq_ite, h, feed_found]
  split
  · simp
  · simp

section Header

variable {header : List UInt8} (ends : EndsFirst header) (rest : List UInt8)

include ends

/-- Before the last byte of the empty line all bytes are held, as long as they are few. -/
theorem push_header_part {front : List UInt8} (inside : front <+: header ++ [13, 10, 13])
    (short : front.length ≤ maxHeader) : start.push front = ([], inHeader front.reverse) := by
  have fed := feed_header_part ends inside [] []
  rw [List.append_nil] at fed
  rw [push_eq_ite, fed, feed, not_isOverlong_inHeader short, if_neg Bool.false_ne_true]
  rfl

/-- From there on a piece is read as one with them. -/
theorem push_inHeader {front : List UInt8} (inside : front <+: header ++ [13, 10, 13])
    (short : front.length ≤ maxHeader) (bytes : List UInt8) :
    (inHeader front.reverse).push bytes = start.push (front ++ bytes) := by
  have held := push_header_part ends inside short
  have goesOn : ∀ report ∈ (start.push front).1, ¬ GivesUp report := by
    intro report hmem
    rw [held] at hmem
    exact absurd hmem List.not_mem_nil
  rw [push_append goesOn, held]
  rfl

theorem push_bad_header {error : Error} (fails : contentLength header = .error error) :
    start.push (header ++ (emptyLine ++ rest)) =
      (.error error :: (start.push rest).1, (start.push rest).2) :=
  push_of_feed (feed_bad_header ends [] rest fails)

variable {length : Nat} (announced : contentLength header = .ok length)

include announced

theorem push_long_body (long : maxBody < length) :
    start.push (header ++ (emptyLine ++ rest)) = ([.error (.bodyTooLarge length)], start) := by
  have last := (step_header_end header).trans (behindHeader_long announced long)
  rw [push_eq_ite, feed_header ends, feed_cons_of_giveUp last]
  rfl

variable (fits : length ≤ maxBody)

include fits

theorem push_body_part (part : rest.length < length) :
    start.push (header ++ (emptyLine ++ rest)) =
      ([], inBody header.reverse length rest.reverse (length - rest.length)) := by
  rw [push_eq_ite, feed_frame_part ends [] announced fits part]
  rfl

theorem push_body (whole : length ≤ rest.length) :
    start.push (header ++ (emptyLine ++ rest)) =
      (summarize (rest.take length) :: (start.push (rest.drop length)).1,
        (start.push (rest.drop length)).2) := by
  have hlength : (rest.take length).length = length := by
    rw [List.length_take, Nat.min_eq_left whole]
  rw [← hlength] at announced fits
  have fed := feed_frame ends [] (rest.drop length) announced fits
  rw [List.take_append_drop] at fed
  exact push_of_feed fed

end Header

/-- **The first piece of a stream is drained.** -/
theorem push_start_eq_drain (bytes : List UInt8) :
    (start.push bytes).map id held = drain bytes := by
  induction hn : bytes.length using Nat.strongRecOn generalizing bytes with
  | ind n ih =>
    subst hn
    rw [drain]
    split
    next none =>
      rw [push_eq_ite, feed_open (splitHeader?_eq_none none), isOverlong, List.length_reverse]
      by_cases long : maxHeader < bytes.length
      · simp [long, held, start]
      · simp [long, held]
    next header rest split =>
      have shorter := length_of_splitHeader? split
      obtain ⟨hbytes, ends⟩ := splitHeader?_eq_some split
      split
      next error fails =>
        rw [hbytes, push_bad_header ends rest fails, ← ih _ shorter rest rfl]
        rfl
      next length announced =>
        split
        next long =>
          rw [hbytes, push_long_body ends rest announced long]
          rfl
        next fits =>
          have fits := Nat.le_of_not_lt fits
          split
          next part =>
            rw [hbytes, push_body_part ends rest announced fits part]
            simp [held, emptyLine]
          next whole =>
            have whole := Nat.le_of_not_lt whole
            have later : (rest.drop length).length < bytes.length := by
              rw [List.length_drop]
              omega
            rw [hbytes, push_body ends rest announced fits whole, ← ih _ later _ rfl]
            rfl

/-! ### What a scanner remembers -/

/-- A scanner that a stream leads to, whatever it is and however it is cut. -/
def Reachable (scanner : Scanner) : Prop :=
  ∃ pieces, (start.pushAll pieces).2 = scanner

/-- A scanner that the bytes it holds lead to, with nothing to report. -/
def Remembers (scanner : Scanner) : Prop :=
  start.feed [] scanner.held = ([], scanner)

theorem remembers_start : start.Remembers := rfl

/-- **How a frame goes on** with a byte: in its header block, from there into its body, or
in its body. -/
theorem step_eq_goOn {scanner next : Scanner} {b : UInt8} (h : scanner.step b = .goOn next) :
    (∃ behind, scanner = inHeader behind ∧ endedHeader? (b :: behind) = none ∧
      next = inHeader (b :: behind)) ∨
    (∃ behind header length, scanner = inHeader behind ∧
      b :: behind = 10 :: 13 :: 10 :: 13 :: header ∧
      contentLength header.reverse = .ok length ∧ length ≤ maxBody ∧ length ≠ 0 ∧
      next = inBody header length [] length) ∨
    ∃ header length behind left, scanner = inBody header length behind left ∧ 1 < left ∧
      next = inBody header length (b :: behind) (left - 1) := by
  cases scanner with
  | inHeader behind =>
    rw [step] at h
    split at h
    next header ended =>
      unfold behindHeader at h
      split at h
      · contradiction
      next length announced =>
        split at h
        · contradiction
        next fits =>
          split at h
          · contradiction
          next some_body =>
            exact Or.inr (Or.inl ⟨behind, header, length, rfl, endedHeader?_eq_some ended,
              announced, Nat.le_of_not_lt fits, some_body, (Step.goOn.inj h).symm⟩)
    next goesOn => exact Or.inl ⟨behind, rfl, goesOn, (Step.goOn.inj h).symm⟩
  | inBody header length behind left =>
    rw [step] at h
    split at h
    · contradiction
    next more =>
      exact Or.inr (Or.inr ⟨header, length, behind, left, rfl, Nat.lt_of_not_le more,
        (Step.goOn.inj h).symm⟩)

/-- A byte that a frame goes on with is held. -/
theorem held_of_goOn {scanner next : Scanner} {b : UInt8} (h : scanner.step b = .goOn next) :
    next.held = scanner.held ++ [b] := by
  rcases step_eq_goOn h with ⟨behind, rfl, -, rfl⟩ |
    ⟨behind, header, length, rfl, bytes, -, -, -, rfl⟩ | ⟨header, length, behind, left, rfl, -, rfl⟩
  · exact List.reverse_cons
  · rw [held, held, ← List.reverse_cons, bytes]
    simp
  · simp [held]

theorem Remembers.goOn {scanner next : Scanner} {b : UInt8} (h : scanner.Remembers)
    (hstep : scanner.step b = .goOn next) : next.Remembers := by
  have noLongBody : ∀ length, .error (.bodyTooLarge length) ∉ (start.feed [] scanner.held).1 := by
    intro length
    rw [h]
    exact List.not_mem_nil
  rw [Remembers, held_of_goOn hstep, feed_append noLongBody, h, feed_cons_of_goOn hstep]
  rfl

theorem Remembers.feed {scanner : Scanner} (h : scanner.Remembers) (found : List Report)
    (bytes : List UInt8) : (scanner.feed found bytes).2.Remembers := by
  induction bytes generalizing found scanner with
  | nil => exact h
  | cons b bytes ih =>
    cases hstep : scanner.step b with
    | goOn next =>
      rw [feed_cons_of_goOn hstep]
      exact ih (h.goOn hstep) found
    | ends report =>
      rw [feed_cons_of_ends hstep]
      exact ih remembers_start _
    | giveUp error =>
      rw [feed_cons_of_giveUp hstep]
      exact remembers_start

theorem Remembers.push {scanner : Scanner} (h : scanner.Remembers) (bytes : List UInt8) :
    (scanner.push bytes).2.Remembers := by
  rw [push_eq_ite]
  split
  · exact remembers_start
  · exact h.feed [] bytes

theorem not_isOverlong_push (scanner : Scanner) (bytes : List UInt8) :
    (scanner.push bytes).2.isOverlong = false := by
  rw [push_eq_ite]
  split
  · rfl
  next short => exact Bool.eq_false_iff.mpr short

namespace Reachable

variable {scanner : Scanner}

theorem remembers (h : scanner.Reachable) : scanner.Remembers := by
  obtain ⟨pieces, rfl⟩ := h
  induction pieces using List.reverseRecOn with
  | nil => exact remembers_start
  | append_singleton pieces piece ih =>
    rw [pushAll_concat]
    exact ih.push piece

theorem not_isOverlong (h : scanner.Reachable) : scanner.isOverlong = false := by
  obtain ⟨pieces, rfl⟩ := h
  induction pieces using List.reverseRecOn with
  | nil => rfl
  | append_singleton pieces piece _ =>
    rw [pushAll_concat]
    exact not_isOverlong_push _ piece

/-- What a scanner holds would lead to it as one piece, too. -/
theorem push_held (h : scanner.Reachable) : start.push scanner.held = ([], scanner) := by
  rw [push_eq_ite, h.remembers, h.not_isOverlong, if_neg Bool.false_ne_true]
  rfl

/-- A piece is read as one with the bytes held. -/
theorem push_eq (h : scanner.Reachable) (bytes : List UInt8) :
    start.push (scanner.held ++ bytes) = scanner.push bytes := by
  have goesOn : ∀ report ∈ (start.push scanner.held).1, ¬ GivesUp report := by
    intro report hmem
    rw [h.push_held] at hmem
    exact absurd hmem List.not_mem_nil
  rw [push_append goesOn, h.push_held]
  rfl

end Reachable

/-! ### Pieces -/

/-- Pieces in which no bytes are given up, and any one behind them. -/
theorem pushAll_concat_eq_push {pieces : List (List UInt8)}
    (goesOn : ∀ report ∈ (start.pushAll pieces).1, ¬ GivesUp report) (last : List UInt8) :
    start.pushAll (pieces ++ [last]) = start.push (pieces.flatten ++ last) := by
  induction pieces using List.reverseRecOn generalizing last with
  | nil => rw [pushAll_concat]; rfl
  | append_singleton pieces piece ih =>
    have before : ∀ report ∈ (start.pushAll pieces).1, ¬ GivesUp report := by
      intro report hmem
      refine goesOn report ?_
      rw [pushAll_concat]
      exact List.mem_append_left _ hmem
    rw [ih before piece] at goesOn
    rw [pushAll_concat, ih before piece, List.flatten_concat, push_append goesOn]

/-- **Where a stream is cut changes nothing**, and of the past only the bytes that are
held matter.  A scanner reads off the front of them and a piece what can be read, and
holds what is left.  Two pieces are reported on as the two in one and leave the same
scanner behind, if on the first one no bytes are given up; so it is with any number
of pieces if on none but the last of them bytes are given up. -/
theorem push_pieces :
    (∀ scanner : Scanner, scanner.Reachable → ∀ bytes,
      (scanner.push bytes).map id held = drain (scanner.held ++ bytes)) ∧
    (∀ (scanner : Scanner) (front back : List UInt8),
      (∀ report ∈ (scanner.push front).1, ¬ GivesUp report) →
      (scanner.push front).1 ++ ((scanner.push front).2.push back).1 =
          (scanner.push (front ++ back)).1 ∧
        ((scanner.push front).2.push back).2 = (scanner.push (front ++ back)).2 ∧
        ((scanner.push front).2.push back).2.held = (scanner.push (front ++ back)).2.held) ∧
    ∀ pieces : List (List UInt8),
      (∀ report ∈ (start.pushAll pieces.dropLast).1, ¬ GivesUp report) →
      start.pushAll pieces = start.push pieces.flatten := by
  refine ⟨?_, ?_, ?_⟩
  · intro scanner reachable bytes
    rw [← reachable.push_eq, push_start_eq_drain]
  · intro scanner front back goesOn
    rw [push_append goesOn]
    exact ⟨rfl, rfl, rfl⟩
  · intro pieces goesOn
    rcases List.eq_nil_or_concat pieces with rfl | ⟨pieces, last, rfl⟩
    · rfl
    · rw [List.concat_eq_append] at goesOn ⊢
      rw [List.dropLast_concat] at goesOn
      rw [pushAll_concat_eq_push goesOn, List.flatten_concat]

end Scanner

end Frame

end LiveCoding
