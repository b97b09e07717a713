import LiveCoding.Proofs.Frame.Header
import LiveCoding.Proofs.Frame.Scanner

/-!
# Streams of frames

A stream of frames, some of them with a header block that gives no length, is
understood segment by segment: each segment is reported once, as soon as its last
byte is there, and what is held is the beginning of the next one.  A body may hold
anything, empty lines and whole frames included.

## Main Definitions

* `Frame.Segment`: a frame as it is written, or a header block without a length.
* `Frame.Segment.report`: what is to be reported on it.
* `Frame.wholeWithin`: the segments that lie wholly in the first bytes of a stream.

## Main Statements

* `Frame.Scanner.feed_bad_header`, `Frame.Scanner.feed_frame`,
  `Frame.Scanner.feed_frame_part`: what follows a header block without a length, and a
  body that is wholly there or in part.
* `Frame.Scanner.feed_segment`: a whole segment.
* `Frame.Scanner.feed_segment_part`: the beginning of one.
* `Frame.Scanner.feed_stream`: the beginning of a stream of segments.
* `Frame.Scanner.pushAll_stream`: the same, in pieces.

## Design Notes

In a segment the scanner is described by the bytes of the segment that are behind:
in the header block it holds these bytes (`feed_header_part`), and in the body those
of the body, with as many to come as are left (`feed_body_part`).
-/

namespace LiveCoding

namespace Frame

/-- What can be told about a body: that it is no message, or its length among other
things. -/
theorem summarize_cases (body : String) :
    summarize (utf8Bytes body) = .error .notMessage ∨
      ∃ summary, summarize (utf8Bytes body) = .ok summary ∧
        summary.length = body.utf8ByteSize := by
  unfold summarize
  split
  · exact Or.inl rfl
  · exact Or.inr ⟨_, rfl, length_utf8Bytes body⟩

/-- A header block with no empty line in it: the first one is the one behind it. -/
def EndsFirst (header : List UInt8) : Prop :=
  ∀ n, emptyLine <+: (header ++ emptyLine).drop n → header.length ≤ n

/-- A piece of a stream that has an end of its own. -/
inductive Segment where
  /-- A frame, not too long to be waited for. -/
  | frame (body : String) (fits : body.utf8ByteSize ≤ maxBody)
  /-- A header block, not too long either, without a usable length. -/
  | bad (header : List UInt8) (error : Error) (ends : EndsFirst header)
    (short : header.length + 3 ≤ maxHeader) (fails : contentLength header = .error error)

namespace Segment

/-- The header block. -/
def header : Segment → List UInt8
  | frame body _ => Utf8.encode (lengthLine body.utf8ByteSize)
  | bad header .. => header

/-- The bytes behind the empty line. -/
def body : Segment → List UInt8
  | frame body _ => utf8Bytes body
  | bad .. => []

/-- The bytes of a segment. -/
def bytes : Segment → List UInt8
  | frame body _ => encode body
  | bad header .. => header ++ emptyLine

/-- What is to be reported on a segment. -/
def report : Segment → Report
  | frame body _ => summarize (utf8Bytes body)
  | bad _ error .. => .error error

theorem bytes_eq (segment : Segment) :
    segment.bytes = segment.header ++ (emptyLine ++ segment.body) := by
  cases segment with
  | frame body fits => exact encode_eq body
  | bad header error ends short fails => rfl

/-- Bytes without a carriage return hold no empty line. -/
theorem endsFirst_of_no_return {header : List UInt8} (h : 13 ∉ header) : EndsFirst header := by
  intro n hn
  by_contra hlt
  have inRange : n < header.length := Nat.lt_of_not_le hlt
  rw [List.drop_append_of_le_length (Nat.le_of_lt inRange), List.drop_eq_getElem_cons inRange,
    emptyLine, List.cons_append, List.cons_prefix_cons] at hn
  exact h (hn.1 ▸ List.getElem_mem inRange)

theorem endsFirst_lengthLine (n : Nat) : EndsFirst (Utf8.encode (lengthLine n)) := by
  apply endsFirst_of_no_return
  have ascii : '\r'.toNat < 0x80 := by decide
  intro h
  exact return_not_mem_lengthLine n ((Utf8.mem_encode_ascii ascii _).mp h)

theorem endsFirst_header (segment : Segment) : EndsFirst segment.header := by
  cases segment with
  | frame body fits => exact endsFirst_lengthLine body.utf8ByteSize
  | bad header error ends short fails => exact ends

theorem header_short (segment : Segment) : segment.header.length + 3 ≤ maxHeader := by
  cases segment with
  | frame body fits =>
    have line := length_lengthLine_le (Nat.le_trans fits (by decide : maxBody ≤ maxUnsigned))
    have room : 36 + 3 ≤ maxHeader := by decide
    exact Nat.le_trans (Nat.add_le_add_right line 3) room
  | bad header error ends short fails => exact short

/-- On no segment bytes are given up. -/
theorem not_givesUp_report (segment : Segment) : ¬ GivesUp segment.report := by
  cases segment with
  | frame body fits =>
    rw [report]
    rcases summarize_cases body with h | ⟨summary, h, -⟩
    · rw [h]
      rintro (h | ⟨length, h⟩) <;> cases h
    · rw [h]
      rintro (h | ⟨length, h⟩) <;> cases h
  | bad header error ends short fails =>
    rcases contentLength_eq_error fails with rfl | ⟨value, rfl⟩
    · rintro (h | ⟨length, h⟩) <;> cases h
    · rintro (h | ⟨length, h⟩) <;> cases h

end Segment

namespace Scanner

/-! ### In a header block -/

theorem endedHeader?_eq_some {behind header : List UInt8} (h : endedHeader? behind = some header) :
    behind = 10 :: 13 :: 10 :: 13 :: header := by
  unfold endedHeader? at h
  split at h
  next => rw [Option.some.inj h]
  next => contradiction

theorem length_header_part_le {header front : List UInt8} (h : front <+: header ++ [13, 10, 13]) :
    front.length ≤ header.length + 3 := by
  have := h.length_le
  rwa [List.length_append] at this

/-- Before the last byte of the empty line the header block has not ended. -/
theorem endedHeader?_eq_none {header front : List UInt8} (ends : EndsFirst header)
    (h : front <+: header ++ [13, 10, 13]) : endedHeader? front.reverse = none := by
  cases early : endedHeader? front.reverse with
  | none => rfl
  | some behind =>
    -- an empty line that ends with `front` would be the first one
    have hfront : front = behind.reverse ++ emptyLine := by
      rw [← List.reverse_reverse front, endedHeader?_eq_some early]
      simp [emptyLine]
    have hlength := length_header_part_le h
    obtain ⟨more, hmore⟩ := h
    have cut : header ++ emptyLine = behind.reverse ++ (emptyLine ++ (more ++ [10])) := by
      calc header ++ emptyLine
          = (header ++ [13, 10, 13]) ++ [10] := by simp [emptyLine]
        _ = behind.reverse ++ (emptyLine ++ (more ++ [10])) := by
          rw [← hmore, hfront]
          simp only [List.append_assoc]
    have first := ends behind.reverse.length (by
      rw [cut, List.drop_left]
      exact List.prefix_append _ _)
    rw [hfront, List.length_append, emptyLine] at hlength
    simp only [List.length_cons, List.length_nil] at hlength
    omega

/-- In a header block all bytes are held. -/
theorem feed_header_part {header front : List UInt8} (ends : EndsFirst header)
    (h : front <+: header ++ [13, 10, 13]) (found : List Report) (rest : List UInt8) :
    start.feed found (front ++ rest) = (inHeader front.reverse).feed found rest := by
  induction front using List.reverseRecOn generalizing rest with
  | nil => rfl
  | append_singleton front b ih =>
    have goOn : (inHeader front.reverse).step b = .goOn (inHeader (b :: front.reverse)) := by
      have notEnded := endedHeader?_eq_none ends h
      rw [List.reverse_concat] at notEnded
      rw [step, notEnded]
    rw [List.append_assoc, ih ((List.prefix_append _ _).trans h), List.singleton_append,
      feed_cons_of_goOn goOn, List.reverse_concat]

/-- The last byte of the empty line. -/
theorem step_header_end (header : List UInt8) :
    (inHeader (header ++ [13, 10, 13]).reverse).step 10 = behindHeader header.reverse := by
  have ended : endedHeader? (10 :: (header ++ [13, 10, 13]).reverse) = some header.reverse := by
    simp [endedHeader?]
  rw [step, ended]

theorem feed_header {header : List UInt8} (ends : EndsFirst header) (found : List Report)
    (rest : List UInt8) :
    start.feed found (header ++ (emptyLine ++ rest)) =
      (inHeader (header ++ [13, 10, 13]).reverse).feed found (10 :: rest) := by
  have cut : header ++ (emptyLine ++ rest) = (header ++ [13, 10, 13]) ++ 10 :: rest := by
    simp [emptyLine]
  rw [cut, feed_header_part ends List.prefix_rfl]

/-- Where the beginning of a header block and what is behind it ends: before the last byte of
the empty line, or behind it. -/
theorem prefix_cases {header body front : List UInt8}
    (h : front <+: header ++ (emptyLine ++ body)) :
    front <+: header ++ [13, 10, 13] ∨
      ∃ more, front = header ++ (emptyLine ++ more) ∧ more <+: body := by
  have cut : header ++ (emptyLine ++ body) = (header ++ [13, 10, 13]) ++ 10 :: body := by
    simp [emptyLine]
  rw [cut] at h
  rcases List.prefix_or_prefix_of_prefix h (List.prefix_append _ _) with inside | ⟨more, rfl⟩
  · exact Or.inl inside
  · rw [List.prefix_append_right_inj, List.prefix_cons_iff] at h
    rcases h with rfl | ⟨more, rfl, inside⟩
    · rw [List.append_nil]
      exact Or.inl List.prefix_rfl
    · exact Or.inr ⟨more, by simp [emptyLine], inside⟩

/-! ### In a body -/

/-- In a body all bytes are held, and counted. -/
theorem feed_body_part {header behind front : List UInt8} {length left : Nat}
    (h : front.length < left) (found : List Report) (rest : List UInt8) :
    (inBody header length behind left).feed found (front ++ rest) =
      (inBody header length (front.reverse ++ behind) (left - front.length)).feed found rest := by
  induction front generalizing behind left with
  | nil => rfl
  | cons b front ih =>
    rw [List.length_cons] at h
    have goOn : (inBody header length behind left).step b =
        .goOn (inBody header length (b :: behind) (left - 1)) := by
      rw [step, if_neg (by omega)]
    rw [List.cons_append, feed_cons_of_goOn goOn, ih (by omega), List.length_cons,
      List.reverse_cons, List.append_assoc, List.singleton_append, Nat.sub_sub, Nat.add_comm 1]

/-- The beginning of a body. -/
theorem feed_body_front {front : List UInt8} {length : Nat} (h : front.length < length)
    (header : List UInt8) (found : List Report) :
    (inBody header length [] length).feed found front =
      (found, inBody header length front.reverse (length - front.length)) := by
  have fed : (inBody header length [] length).feed found (front ++ []) =
      (inBody header length (front.reverse ++ []) (length - front.length)).feed found [] :=
    feed_body_part h found []
  rwa [List.append_nil, List.append_nil] at fed

/-- The last byte of a body. -/
theorem feed_body {header body : List UInt8} {length : Nat} (h : body.length = length)
    (hpos : 0 < length) (found : List Report) (rest : List UInt8) :
    (inBody header length [] length).feed found (body ++ rest) =
      start.feed (summarize body :: found) rest := by
  rcases List.eq_nil_or_concat body with rfl | ⟨front, b, rfl⟩
  · rw [← h] at hpos
    contradiction
  · rw [List.concat_eq_append] at h ⊢
    rw [List.length_append, List.length_singleton] at h
    have ends : (inBody header length (front.reverse ++ []) (length - front.length)).step b =
        .ends (summarize (front ++ [b])) := by
      rw [step, if_pos (by omega), List.append_nil, List.reverse_cons, List.reverse_reverse]
    rw [List.append_assoc, feed_body_part (by omega), List.singleton_append,
      feed_cons_of_ends ends]

/-! ### A header block and what it announces -/

section Header

variable {header : List UInt8} (ends : EndsFirst header) (found : List Report)
  (rest : List UInt8)

theorem behindHeader_bad {error : Error} (fails : contentLength header = .error error) :
    behindHeader header.reverse = .ends (.error error) := by
  rw [behindHeader, List.reverse_reverse, fails]

theorem behindHeader_long {length : Nat} (announced : contentLength header = .ok length)
    (long : maxBody < length) : behindHeader header.reverse = .giveUp (.bodyTooLarge length) := by
  rw [behindHeader, List.reverse_reverse, announced]
  exact if_pos long

/-- A frame without a body ends with its header block. -/
theorem behindHeader_fits {length : Nat} (announced : contentLength header = .ok length)
    (fits : length ≤ maxBody) :
    behindHeader header.reverse =
      if length = 0 then .ends (summarize [])
      else .goOn (inBody header.reverse length [] length) := by
  rw [behindHeader, List.reverse_reverse, announced]
  exact if_neg (Nat.not_lt_of_le fits)

include ends

/-- A header block that cannot be used is reported. -/
theorem feed_bad_header {error : Error} (fails : contentLength header = .error error) :
    start.feed found (header ++ (emptyLine ++ rest)) =
      start.feed (.error error :: found) rest := by
  have last := (step_header_end header).trans (behindHeader_bad fails)
  rw [feed_header ends, feed_cons_of_ends last]

/-- A body that is wholly there is reported. -/
theorem feed_frame {body : List UInt8} (announced : contentLength header = .ok body.length)
    (fits : body.length ≤ maxBody) :
    start.feed found (header ++ (emptyLine ++ (body ++ rest))) =
      start.feed (summarize body :: found) rest := by
  have last := (step_header_end header).trans (behindHeader_fits announced fits)
  rw [feed_header ends]
  split at last
  next empty =>
    obtain rfl := List.length_eq_zero_iff.mp empty
    exact feed_cons_of_ends last
  next some =>
    rw [feed_cons_of_goOn last]
    exact feed_body rfl (Nat.pos_of_ne_zero some) found rest

/-- The beginning of a body is held. -/
theorem feed_frame_part {length : Nat} (announced : contentLength header = .ok length)
    (fits : length ≤ maxBody) {front : List UInt8} (part : front.length < length) :
    start.feed found (header ++ (emptyLine ++ front)) =
      (found, inBody header.reverse length front.reverse (length - front.length)) := by
  have last := (step_header_end header).trans (behindHeader_fits announced fits)
  rw [if_neg (Nat.ne_zero_of_lt part)] at last
  rw [feed_header ends, feed_cons_of_goOn last, feed_body_front part]

end Header

/-! ### One segment -/

/-- The length of a body stands in its header block. -/
theorem contentLength_frame {body : String} (fits : body.utf8ByteSize ≤ maxBody) :
    contentLength (Segment.frame body fits).header =
      .ok (Segment.frame body fits).body.length := by
  rw [Segment.body, length_utf8Bytes]
  exact contentLength_lengthLine (Nat.le_trans fits (by decide))

theorem length_body_frame {body : String} (fits : body.utf8ByteSize ≤ maxBody) :
    (Segment.frame body fits).body.length ≤ maxBody := by
  rwa [Segment.body, length_utf8Bytes]

/-- **A whole segment** is reported, and another one may begin. -/
theorem feed_segment (segment : Segment) (found : List Report) (rest : List UInt8) :
    start.feed found (segment.bytes ++ rest) = start.feed (segment.report :: found) rest := by
  rw [segment.bytes_eq, List.append_assoc, List.append_assoc]
  cases segment with
  | frame body fits =>
    exact feed_frame (Segment.endsFirst_header _) found rest (contentLength_frame fits)
      (length_body_frame fits)
  | bad header error ends short fails => exact feed_bad_header ends found rest fails

/-- **The beginning of a segment** is held, all of it, and nothing is reported. -/
theorem feed_segment_part (segment : Segment) {front : List UInt8} (h : front <+: segment.bytes)
    (part : front.length < segment.bytes.length) (found : List Report) :
    ∃ scanner, start.feed found front = (found, scanner) ∧ scanner.isOverlong = false ∧
      scanner.pending = front.length := by
  rw [segment.bytes_eq] at h
  rcases prefix_cases h with inside | ⟨more, rfl, inside⟩
  · -- a header block that has not ended is never long enough to be given up
    refine ⟨inHeader front.reverse, ?_, ?_, List.length_reverse⟩
    · have fed := feed_header_part segment.endsFirst_header inside found []
      rwa [List.append_nil] at fed
    · exact not_isOverlong_inHeader
        (Nat.le_trans (length_header_part_le inside) segment.header_short)
  · rw [segment.bytes_eq, List.length_append, List.length_append, List.length_append,
      List.length_append] at part
    have missing : more.length < segment.body.length :=
      Nat.lt_of_add_lt_add_left (Nat.lt_of_add_lt_add_left part)
    cases segment with
    | frame body fits =>
      refine ⟨_, feed_frame_part (Segment.endsFirst_header _) found (contentLength_frame fits)
        (length_body_frame fits) missing, rfl, ?_⟩
      rw [pending, List.length_reverse, List.length_append, List.length_append,
        Nat.sub_sub_self (Nat.le_of_lt missing), Nat.add_assoc]
      rfl
    | bad header error ends short fails =>
      -- a bad header block ends with its empty line
      exact absurd missing (Nat.not_lt_zero _)

end Scanner

/-! ### Streams -/

/-- The bytes of segments one after the other. -/
def stream (segments : List Segment) : List UInt8 :=
  (segments.map Segment.bytes).flatten

/-- The segments that lie wholly in the first bytes of their stream. -/
def wholeWithin (fed : Nat) : List Segment → List Segment
  | [] => []
  | segment :: rest =>
    if segment.bytes.length ≤ fed then
      segment :: wholeWithin (fed - segment.bytes.length) rest
    else []

theorem stream_cons (segment : Segment) (rest : List Segment) :
    stream (segment :: rest) = segment.bytes ++ stream rest := rfl

theorem wholeWithin_cons_of_le {fed : Nat} {segment : Segment} (rest : List Segment)
    (h : segment.bytes.length ≤ fed) :
    wholeWithin fed (segment :: rest) =
      segment :: wholeWithin (fed - segment.bytes.length) rest := if_pos h

theorem wholeWithin_cons_of_lt {fed : Nat} {segment : Segment} (rest : List Segment)
    (h : fed < segment.bytes.length) : wholeWithin fed (segment :: rest) = [] :=
  if_neg (Nat.not_le_of_lt h)

theorem length_stream_cons (segment : Segment) (rest : List Segment) :
    (stream (segment :: rest)).length = segment.bytes.length + (stream rest).length := by
  rw [stream_cons, List.length_append]

/-- The segments that lie wholly in so many bytes, and the next one, which does not. -/
theorem exists_wholeWithin (fed : Nat) (segments : List Segment) :
    ∃ ahead, segments = wholeWithin fed segments ++ ahead ∧
      (stream (wholeWithin fed segments)).length ≤ fed ∧
      ∀ next, ahead.head? = some next →
        fed < (stream (wholeWithin fed segments)).length + next.bytes.length := by
  induction segments generalizing fed with
  | nil => exact ⟨[], rfl, Nat.zero_le _, by simp⟩
  | cons segment rest ih =>
    rcases Nat.lt_or_ge fed segment.bytes.length with part | whole
    · rw [wholeWithin_cons_of_lt rest part]
      refine ⟨segment :: rest, rfl, Nat.zero_le _, ?_⟩
      intro next hnext
      obtain rfl := Option.some.inj hnext
      exact Nat.lt_of_lt_of_le part (Nat.le_add_left _ _)
    · obtain ⟨ahead, hsplit, hle, hnext⟩ := ih (fed - segment.bytes.length)
      rw [wholeWithin_cons_of_le rest whole, length_stream_cons]
      refine ⟨ahead, ?_, by omega, ?_⟩
      · rw [List.cons_append, ← hsplit]
      · intro next hhead
        have := hnext next hhead
        omega

/-- All segments lie wholly in their stream. -/
theorem wholeWithin_length_stream (segments : List Segment) :
    wholeWithin (stream segments).length segments = segments := by
  induction segments with
  | nil => rfl
  | cons segment rest ih =>
    rw [length_stream_cons, wholeWithin_cons_of_le rest (Nat.le_add_right _ _),
      Nat.add_sub_cancel_left, ih]

namespace Scanner

/-- **The beginning of a stream**: the segments wholly in it are reported, and the
bytes behind them are held. -/
theorem feed_stream (segments : List Segment) {front : List UInt8}
    (h : front <+: stream segments) (found : List Report) :
    ∃ scanner,
      start.feed found front =
        (((wholeWithin front.length segments).map Segment.report).reverse ++ found, scanner) ∧
      scanner.isOverlong = false ∧
      (stream (wholeWithin front.length segments)).length + scanner.pending = front.length := by
  induction segments generalizing front found with
  | nil =>
    obtain rfl := List.prefix_nil.mp h
    exact ⟨start, rfl, rfl, rfl⟩
  | cons segment rest ih =>
    rw [stream_cons] at h
    -- the first segment is not whole, or what is behind it begins the rest of the stream
    rcases Nat.lt_or_ge front.length segment.bytes.length with part | whole
    · have inside := List.prefix_of_prefix_length_le h (List.prefix_append _ _) (Nat.le_of_lt part)
      obtain ⟨scanner, fed, short, held⟩ := feed_segment_part segment inside part found
      rw [wholeWithin_cons_of_lt rest part]
      exact ⟨scanner, fed, short, (Nat.zero_add _).trans held⟩
    · obtain ⟨more, rfl⟩ := List.prefix_of_prefix_length_le (List.prefix_append _ _) h whole
      rw [List.prefix_append_right_inj] at h
      obtain ⟨scanner, fed, short, held⟩ := ih h (segment.report :: found)
      rw [feed_segment, fed, wholeWithin_cons_of_le rest whole, List.length_append,
        Nat.add_sub_cancel_left, stream_cons, List.length_append]
      refine ⟨scanner, ?_, short, ?_⟩
      · rw [List.map_cons, List.reverse_cons, List.append_assoc, List.singleton_append]
      · rw [Nat.add_assoc, held]

theorem push_stream (segments : List Segment) {front : List UInt8}
    (h : front <+: stream segments) :
    (start.push front).1 = (wholeWithin front.length segments).map Segment.report ∧
      (start.push front).2.pending =
        front.length - (stream (wholeWithin front.length segments)).length := by
  obtain ⟨scanner, fed, short, held⟩ := feed_stream segments h []
  rw [push_eq_ite, fed, short, if_neg Bool.false_ne_true, List.append_nil, List.reverse_reverse]
  exact ⟨rfl, Nat.eq_sub_of_add_eq' held⟩

/-- On no segment the scanner gives up. -/
theorem push_stream_goesOn (segments : List Segment) (front : List UInt8)
    (h : front <+: stream segments) : ∀ report ∈ (start.push front).1, ¬ GivesUp report := by
  intro report mem
  rw [(push_stream segments h).1] at mem
  obtain ⟨segment, -, rfl⟩ := List.mem_map.mp mem
  exact segment.not_givesUp_report

/-- Up to any piece, a stream is understood as if it had come in one. -/
theorem pushAll_stream (segments : List Segment) {pieces : List (List UInt8)}
    (h : pieces.flatten <+: stream segments) :
    (start.pushAll pieces).1 =
        (wholeWithin pieces.flatten.length segments).map Segment.report ∧
      (start.pushAll pieces).2.pending =
        pieces.flatten.length - (stream (wholeWithin pieces.flatten.length segments)).length := by
  rw [pushAll_eq_push (push_stream_goesOn segments) h]
  exact push_stream segments h

/-- **Every segment of a stream is recovered**, wherever the stream is cut into
pieces.  There is one report for each segment, in order, and nothing is held at the
end.  After each piece the segments reported are exactly those that lie wholly in
the bytes so far, and what is held are the bytes behind the last of them.  The
report on a frame gives its length, or says that it is no message. -/
theorem pushAll_recovers_segments (segments : List Segment) (pieces : List (List UInt8))
    (h : pieces.flatten = stream segments) :
    (start.pushAll pieces).1 = segments.map Segment.report ∧
    (start.pushAll pieces).2.pending = 0 ∧
    (∀ n, ∃ whole ahead, segments = whole ++ ahead ∧
      (stream whole).length ≤ (pieces.take n).flatten.length ∧
      (∀ next, ahead.head? = some next →
        (pieces.take n).flatten.length < (stream whole).length + next.bytes.length) ∧
      (start.pushAll (pieces.take n)).1 = whole.map Segment.report ∧
      (start.pushAll (pieces.take n)).2.pending =
        (pieces.take n).flatten.length - (stream whole).length) ∧
    ∀ body : String, summarize (utf8Bytes body) = .error .notMessage ∨
      ∃ summary, summarize (utf8Bytes body) = .ok summary ∧
        summary.length = body.utf8ByteSize := by
  have inside : pieces.flatten <+: stream segments := ⟨[], (List.append_nil _).trans h⟩
  have whole := pushAll_stream segments inside
  rw [h, wholeWithin_length_stream, Nat.sub_self] at whole
  refine ⟨whole.1, whole.2, ?_, ?_⟩
  · intro n
    have front : (pieces.take n).flatten <+: stream segments := by
      rw [← h]
      exact ⟨(pieces.drop n).flatten, by rw [← List.flatten_append, List.take_append_drop]⟩
    obtain ⟨ahead, hsplit, hle, hnext⟩ :=
      exists_wholeWithin (pieces.take n).flatten.length segments
    exact ⟨_, ahead, hsplit, hle, hnext, pushAll_stream segments front⟩
  · intro body
    exact summarize_cases body

/-- A header block without a length and a frame with an empty line in its body, cut
inside the first two empty lines and inside a letter of two bytes. -/
theorem pushAll_recovers_bad_header_and_frame :
    (start.pushAll
        [utf8Bytes "X-Foo: bar\r\n\r", utf8Bytes "\nContent-Length: 15\r", [],
          utf8Bytes "\n\r\n[null,\r\n\r\n\"" ++ [0xC3], [0xA9, 34, 93]]).1 =
        [.error .missingLength, summarize (utf8Bytes "[null,\r\n\r\n\"é\"]")] ∧
      (start.pushAll
        [utf8Bytes "X-Foo: bar\r\n\r", utf8Bytes "\nContent-Length: 15\r", [],
          utf8Bytes "\n\r\n[null,\r\n\r\n\"" ++ [0xC3], [0xA9, 34, 93]]).2.pending = 0 := by
  have ends : EndsFirst (utf8Bytes "X-Foo: bar") := Segment.endsFirst_of_no_return (by decide)
  have short : (utf8Bytes "X-Foo: bar").length + 3 ≤ maxHeader := by decide
  have fails : contentLength (utf8Bytes "X-Foo: bar") = .error .missingLength := by
    rw [contentLength, utf8Bytes, Utf8.decodeLossy_encode]
    decide
  have size : "[null,\r\n\r\n\"é\"]".utf8ByteSize = 15 := by decide
  have fits : "[null,\r\n\r\n\"é\"]".utf8ByteSize ≤ maxBody := by
    rw [size]
    decide
  have cut :
      [utf8Bytes "X-Foo: bar\r\n\r", utf8Bytes "\nContent-Length: 15\r", [],
        utf8Bytes "\n\r\n[null,\r\n\r\n\"" ++ [0xC3], [0xA9, 34, 93]].flatten =
      stream [.bad _ _ ends short fails, .frame _ fits] := by
    have none : stream [] = [] := rfl
    rw [stream_cons, stream_cons, Segment.bytes, Segment.bytes, encode_eq, size, none]
    decide
  obtain ⟨reports, rest, -⟩ := pushAll_recovers_segments _ _ cut
  refine ⟨reports.trans ?_, rest⟩
  rw [List.map_cons, List.map_cons, List.map_nil, Segment.report, Segment.report]

end Scanner

end Frame

end LiveCoding
