import LiveCoding.Proofs.Frame.Buffer

/-!
# Behind a body that is too long

A header block that announces too long a body is reported and given up.  Whether the
frames behind it are found depends on where the stream is cut: what stands behind the
header block in the same piece is given up with it, and with the next piece reading
begins anew.  So no frame is lost if the header block ends its piece, and else those are
that begin in this piece.

## Main Definitions

* `Frame.announcement`: a header block that announces so many bytes, with its empty line.
* `Frame.behindFirst`: what is behind the first bytes of a stream, in the piece in which
  they end and in later ones.

## Main Statements

* `Frame.Scanner.pushAll_long_body`: what becomes of a stream that begins with such a
  header block.
* `Frame.Scanner.pushAll_oversized`: what becomes of the frames behind it.
* `Frame.Scanner.pushAll_oversized_in_one_piece`: a frame that is lost.
-/

namespace LiveCoding

namespace Frame

/-- A header block that announces so many bytes, with its empty line. -/
def announcement (length : Nat) : List UInt8 :=
  utf8Bytes s!"Content-Length: {length}\r\n\r\n"

/-- What is behind the first `n` bytes of a stream: the rest of the piece in which they end,
and the later pieces. -/
def behindFirst (n : Nat) : List (List UInt8) → List UInt8 × List (List UInt8)
  | [] => ([], [])
  | piece :: later =>
    if n ≤ piece.length then (piece.drop n, later) else behindFirst (n - piece.length) later

theorem announcement_eq (length : Nat) :
    announcement length = Utf8.encode (lengthLine length) ++ emptyLine := by
  rw [announcement, utf8Bytes, toList_header, Utf8.encode_append]
  rfl

/-- Nothing is lost between the rest of the piece and the later ones. -/
theorem flatten_behindFirst {pieces : List (List UInt8)} {front rest : List UInt8}
    (h : pieces.flatten = front ++ rest) :
    (behindFirst front.length pieces).1 ++ (behindFirst front.length pieces).2.flatten = rest := by
  induction pieces generalizing front with
  | nil =>
    obtain ⟨-, rfl⟩ := List.nil_eq_append_iff.mp h
    rfl
  | cons piece later ih =>
    rw [List.flatten_cons] at h
    rw [behindFirst]
    split
    next ends =>
      dsimp only
      rw [← List.drop_append_of_le_length ends, h, List.drop_left]
    next goesOn =>
      have short := Nat.le_of_not_le goesOn
      have inside : piece <+: front ++ rest := ⟨later.flatten, h⟩
      obtain ⟨back, rfl⟩ :=
        List.prefix_of_prefix_length_le inside (List.prefix_append front rest) short
      rw [List.append_assoc, List.append_cancel_left_eq] at h
      rw [List.length_append, Nat.add_sub_cancel_left]
      exact ih h

namespace Scanner

/-- Where something of the empty line is missing, at least its last byte is. -/
theorem prefix_of_missing {header front back : List UInt8}
    (cut : front ++ back = header ++ emptyLine) (missing : back ≠ []) :
    front <+: header ++ [13, 10, 13] := by
  have last : header ++ emptyLine = header ++ [13, 10, 13] ++ [10] := by simp [emptyLine]
  have begins : front <+: header ++ [13, 10, 13] ++ [10] := ⟨back, cut.trans last⟩
  rcases List.prefix_concat_iff.mp begins with whole | inside
  · rw [last, ← whole] at cut
    exact absurd (List.append_right_eq_self.mp cut) missing
  · exact inside

section LongBody

variable {header : List UInt8} (ends : EndsFirst header) {length : Nat}
  (announced : contentLength header = .ok length) (long : maxBody < length)
  (short : header.length + 3 ≤ maxHeader)

include ends announced long short

/-- **A stream that begins with a header block for too long a body**: that is reported, and
with the next piece reading begins anew. -/
theorem pushAll_long_body {front back rest : List UInt8} {pieces : List (List UInt8)}
    (cut : front ++ back = header ++ emptyLine) (missing : back ≠ [])
    (h : pieces.flatten = back ++ rest) :
    (inHeader front.reverse).pushAll pieces =
      (.error (.bodyTooLarge length) ::
          (start.pushAll (behindFirst back.length pieces).2).1,
        (start.pushAll (behindFirst back.length pieces).2).2) := by
  have few {front : List UInt8} (inside : front <+: header ++ [13, 10, 13]) :
      front.length ≤ maxHeader :=
    Nat.le_trans (length_header_part_le inside) short
  -- along the pieces, with what has come of the header block in `front`
  induction pieces generalizing front back with
  | nil =>
    obtain ⟨rfl, -⟩ := List.nil_eq_append_iff.mp h
    contradiction
  | cons piece later ih =>
    have inside := prefix_of_missing cut missing
    rw [List.flatten_cons] at h
    rw [pushAll_cons, push_inHeader ends inside (few inside), behindFirst]
    split
    next whole =>
      obtain ⟨lost, rfl⟩ :=
        List.prefix_of_prefix_length_le ⟨rest, h.symm⟩ (List.prefix_append piece _) whole
      rw [← List.append_assoc, cut, List.append_assoc,
        push_long_body ends lost announced long]
      rfl
    next part =>
      obtain ⟨more, rfl⟩ := List.prefix_of_prefix_length_le ⟨later.flatten, h⟩
        (List.prefix_append back rest) (Nat.le_of_not_le part)
      rw [List.append_assoc, List.append_cancel_left_eq] at h
      have cut : front ++ piece ++ more = header ++ emptyLine := by rw [List.append_assoc, cut]
      have missing : more ≠ [] := by
        rintro rfl
        exact part (Nat.le_of_eq (congrArg List.length (List.append_nil piece)))
      have inside := prefix_of_missing cut missing
      rw [push_header_part ends inside (few inside), List.length_append,
        Nat.add_sub_cancel_left, ih cut missing h]
      rfl

end LongBody

/-! ### Frames behind it -/

/-- **A stream that begins by announcing too long a body.** -/
theorem pushAll_announcement {length : Nat} (long : maxBody < length)
    (unsigned : length ≤ maxUnsigned) {pieces : List (List UInt8)} {rest : List UInt8}
    (h : pieces.flatten = announcement length ++ rest) :
    start.pushAll pieces =
      (.error (.bodyTooLarge length) ::
          (start.pushAll (behindFirst (announcement length).length pieces).2).1,
        (start.pushAll (behindFirst (announcement length).length pieces).2).2) := by
  have short : (Utf8.encode (lengthLine length)).length + 3 ≤ maxHeader :=
    Nat.le_trans (Nat.add_le_add_right (length_lengthLine_le unsigned) 3) (by decide)
  have missing : announcement length ≠ [] := by
    rw [announcement_eq]
    exact List.append_ne_nil_of_right_ne_nil _ (List.cons_ne_nil _ _)
  have cut : [] ++ announcement length = Utf8.encode (lengthLine length) ++ emptyLine :=
    announcement_eq length
  exact pushAll_long_body (Segment.endsFirst_lengthLine length)
    (contentLength_lengthLine unsigned) long short cut missing h

/-- Frames that are not too long are a stream of segments. -/
theorem exists_segments {bodies : List String}
    (fit : ∀ body ∈ bodies, body.utf8ByteSize ≤ maxBody) :
    ∃ segments, stream segments = (bodies.map encode).flatten ∧
      segments.map Segment.report = bodies.map fun body => summarize (utf8Bytes body) := by
  induction bodies with
  | nil => exact ⟨[], rfl, rfl⟩
  | cons body bodies ih =>
    obtain ⟨hbody, hbodies⟩ := List.forall_mem_cons.mp fit
    obtain ⟨segments, hstream, hreports⟩ := ih hbodies
    refine ⟨.frame body hbody :: segments, ?_, ?_⟩
    · rw [stream_cons, hstream]
      rfl
    · rw [List.map_cons, hreports]
      rfl

/-- Frames that are not too long are all reported. -/
theorem pushAll_frames {bodies : List String}
    (fit : ∀ body ∈ bodies, body.utf8ByteSize ≤ maxBody) {pieces : List (List UInt8)}
    (h : pieces.flatten = (bodies.map encode).flatten) :
    (start.pushAll pieces).1 = bodies.map (fun body => summarize (utf8Bytes body)) ∧
      (start.pushAll pieces).2.pending = 0 := by
  obtain ⟨segments, hstream, hreports⟩ := exists_segments fit
  rw [← hstream] at h
  have whole := pushAll_stream segments (h ▸ List.prefix_rfl : pieces.flatten <+: stream segments)
  rwa [h, wholeWithin_length_stream, Nat.sub_self, hreports] at whole

/-- **What becomes of the frames behind a body that is too long.**  What stands behind the
header block in the same piece is lost, and the later pieces are read as a stream of
their own.  So if just the first frames stand there, they are lost and all others are
reported; and if nothing stands there, as where every frame comes in a piece of its own,
then all of them are. -/
theorem pushAll_oversized {length : Nat} (long : maxBody < length)
    (unsigned : length ≤ maxUnsigned) {bodies : List String}
    (fit : ∀ body ∈ bodies, body.utf8ByteSize ≤ maxBody) {pieces : List (List UInt8)}
    (h : pieces.flatten = announcement length ++ (bodies.map encode).flatten) :
    let (lost, later) := behindFirst (announcement length).length pieces
    lost ++ later.flatten = (bodies.map encode).flatten ∧
      start.pushAll pieces =
        (.error (.bodyTooLarge length) :: (start.pushAll later).1, (start.pushAll later).2) ∧
      (∀ first rest, bodies = first ++ rest → lost = (first.map encode).flatten →
        (start.pushAll pieces).1 = .error (.bodyTooLarge length) ::
            rest.map (fun body => summarize (utf8Bytes body)) ∧
          (start.pushAll pieces).2.pending = 0) ∧
      (start.pushAll (announcement length :: bodies.map encode)).1 =
        .error (.bodyTooLarge length) :: bodies.map fun body => summarize (utf8Bytes body) := by
  have nothingElse := flatten_behindFirst h
  have outcome := pushAll_announcement long unsigned h
  refine ⟨nothingElse, outcome, ?_, ?_⟩
  · rintro first rest rfl hlost
    have later : (behindFirst (announcement length).length pieces).2.flatten =
        (rest.map encode).flatten := by
      rw [hlost, List.map_append, List.flatten_append, List.append_cancel_left_eq] at nothingElse
      exact nothingElse
    obtain ⟨reports, held⟩ :=
      pushAll_frames (fun body hmem => fit body (List.mem_append_right _ hmem)) later
    rw [outcome, reports]
    exact ⟨rfl, held⟩
  · have apart : (announcement length :: bodies.map encode).flatten =
        announcement length ++ (bodies.map encode).flatten := rfl
    rw [pushAll_announcement long unsigned apart, behindFirst, if_pos (Nat.le_refl _)]
    dsimp only
    rw [(pushAll_frames fit rfl).1]

/-- A length of 4 GB, cut before its last digits, and a frame cut inside its header block. -/
theorem pushAll_oversized_cut_behind :
    (start.pushAll [utf8Bytes "Content-Length: 40000", utf8Bytes "00000\r\n\r\n",
        utf8Bytes "Content-Len", utf8Bytes "gth: 2\r\n\r\n{}"]).1 =
      [.error (.bodyTooLarge 4000000000), summarize (utf8Bytes "{}")] := by
  have fit : ∀ body ∈ ["{}"], body.utf8ByteSize ≤ maxBody := by decide
  have cut : [utf8Bytes "Content-Length: 40000", utf8Bytes "00000\r\n\r\n",
      utf8Bytes "Content-Len", utf8Bytes "gth: 2\r\n\r\n{}"].flatten =
      announcement 4000000000 ++ (["{}"].map encode).flatten := by
    decide
  obtain ⟨-, -, kept, -⟩ :=
    pushAll_oversized (by decide : maxBody < 4000000000) (by decide) fit cut
  exact (kept [] ["{}"] rfl (by decide)).1

/-- The same header block with a frame behind it in the same piece: the frame is not reported.
-/
theorem pushAll_oversized_in_one_piece :
    (start.pushAll [announcement 4000000000 ++ (["{}"].map encode).flatten]).1 =
        [.error (.bodyTooLarge 4000000000)] ∧
      (start.pushAll [announcement 4000000000 ++ (["{}"].map encode).flatten]).1 ≠
        .error (.bodyTooLarge 4000000000) ::
          ["{}"].map fun body => summarize (utf8Bytes body) := by
  have only : (start.pushAll [announcement 4000000000 ++ (["{}"].map encode).flatten]).1 =
      [.error (.bodyTooLarge 4000000000)] := by
    rw [pushAll_announcement (by decide) (by decide) (List.append_nil _), behindFirst, if_pos]
    · rfl
    · rw [List.length_append]
      exact Nat.le_add_right _ _
  refine ⟨only, ?_⟩
  rw [only]
  simp

end Scanner

end Frame

end LiveCoding
