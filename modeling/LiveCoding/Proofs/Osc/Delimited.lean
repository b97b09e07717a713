import LiveCoding.Proofs.Osc.RoundTrip

/-!
# OSC packets end where they say

A packet that is accepted says by itself where it ends: the texts by their NUL, the
arguments by their tags.  So nothing shorter and nothing longer is accepted in its place.
What is cut off is noticed where the reader runs out of bytes, in the middle of a text, of
its padding or of a number, and never taken for something else; what follows is noticed
once everything has been read.

## Main Definitions

* `Osc.Reads`: a reader that takes exactly these bytes, and needs all of them.
* `Osc.SelfDelimiting`: a packet that is refused when cut off and when extended.

## Main Statements

* `Osc.Reads.bind`: readers one after the other.
* `Osc.reads_text`, `Osc.reads_word`, `Osc.reads_args`: the readers of a packet.
* `Osc.Message.packets_self_delimiting`: the packets that are accepted.

## Design Notes

`Reads` has a half for what follows and a half for what is missing.  The first is what the
lemmas on reading say of each reader; only the second is new, and it passes through `bind`
since a reader that runs out of bytes keeps those behind it from being run at all.
-/

namespace LiveCoding

namespace Osc

/-- The flaws of a packet that ends too early. -/
def Flaw.IsCutOff : Flaw → Prop
  | .unterminatedText | .paddingTruncated | .truncatedArgument => True
  | _ => False

instance : DecidablePred Flaw.IsCutOff
  | .unterminatedText => inferInstanceAs (Decidable True)
  | .paddingTruncated => inferInstanceAs (Decidable True)
  | .truncatedArgument => inferInstanceAs (Decidable True)
  | .notText _ => inferInstanceAs (Decidable False)
  | .badAddress _ => inferInstanceAs (Decidable False)
  | .missingTags => inferInstanceAs (Decidable False)
  | .unsupportedTag _ => inferInstanceAs (Decidable False)
  | .trailingBytes => inferInstanceAs (Decidable False)

/-- A packet that is known to be cut off when some of it is missing, and to have ended when
something follows. -/
structure SelfDelimiting (packet : List UInt8) : Prop where
  cutOff : ∀ front, front <+: packet → front ≠ packet →
    ∃ flaw, Message.decode front = .error flaw ∧ flaw.IsCutOff
  extended : ∀ more, more ≠ [] → Message.decode (packet ++ more) = .error .trailingBytes

/-! ### Readers -/

/-- A front of two lists one after the other ends inside the first one or behind it. -/
theorem prefix_append_cases {xs ys front : List UInt8} (h : front <+: xs ++ ys) :
    (front <+: xs ∧ front.length < xs.length) ∨ ∃ more, front = xs ++ more ∧ more <+: ys := by
  rcases List.prefix_or_prefix_of_prefix h (List.prefix_append xs ys) with inside | ⟨more, rfl⟩
  · rcases Nat.lt_or_ge front.length xs.length with short | whole
    · exact Or.inl ⟨inside, short⟩
    · obtain rfl := inside.eq_of_length_le whole
      exact Or.inr ⟨[], (List.append_nil front).symm, List.nil_prefix⟩
  · exact Or.inr ⟨more, rfl, (List.prefix_append_right_inj xs).mp h⟩

/-- A reader reads a value from these bytes: it leaves what follows them, whatever that is,
and with a part of them only it runs out of bytes. -/
structure Reads {α : Type} (read : List UInt8 → Except Flaw (α × List UInt8))
    (bytes : List UInt8) (value : α) : Prop where
  leaves : ∀ more, read (bytes ++ more) = .ok (value, more)
  needs : ∀ part, part <+: bytes → part.length < bytes.length →
    ∃ flaw, read part = .error flaw ∧ flaw.IsCutOff

namespace Reads

variable {α β : Type} {read : List UInt8 → Except Flaw (α × List UInt8)}
  {bytes later : List UInt8} {value : α} {result : β}

/-- What needs no bytes is read from none. -/
theorem pure (value : α) : Reads (fun rest => .ok (value, rest)) [] value where
  leaves _ := rfl
  needs _ _ short := absurd short (Nat.not_lt_zero _)

/-- **Two readers one after the other** read what each of them reads. -/
theorem bind (first : Reads read bytes value)
    (next : α → List UInt8 → Except Flaw (β × List UInt8))
    (second : Reads (next value) later result) :
    Reads (fun packet => read packet >>= fun found => next found.1 found.2) (bytes ++ later)
      result where
  leaves more := by
    rw [List.append_assoc, first.leaves]
    exact second.leaves more
  needs part front short := by
    rcases prefix_append_cases front with ⟨inside, missing⟩ | ⟨more, rfl, inside⟩
    · -- the first reader runs out of bytes, and the second is not run
      obtain ⟨flaw, hflaw, cut⟩ := first.needs part inside missing
      exact ⟨flaw, by rw [hflaw]; rfl, cut⟩
    · rw [List.length_append, List.length_append] at short
      obtain ⟨flaw, hflaw, cut⟩ := second.needs more inside (Nat.lt_of_add_lt_add_left short)
      refine ⟨flaw, ?_, cut⟩
      rw [first.leaves]
      exact hflaw

/-- A value made of what was read takes the same bytes. -/
theorem map (first : Reads read bytes value) (f : α → β) :
    Reads (fun packet => read packet >>= fun found => .ok (f found.1, found.2)) bytes
      (f value) := by
  have both := first.bind (fun value rest => .ok (f value, rest)) (Reads.pure (f value))
  rwa [List.append_nil] at both

end Reads

/-- **A text** is read from its bytes, its NUL and its padding. -/
theorem reads_text {text : List Char} {front : List UInt8} (clean : '\x00' ∉ text)
    (loose : Loose (textSlack (Utf8.encode text).length) (paddedBytes (Utf8.encode text)) front) :
    Reads readText front text where
  leaves more := readText_eq_ok_iff.mpr ⟨clean, front, rfl, loose⟩
  needs part inside short := by
    have noNul : 0 ∉ Utf8.encode text :=
      mt (Utf8.mem_encode_ascii (c := '\x00') (by decide) text).mp clean
    obtain ⟨pad, rfl, hpad⟩ := Loose.text_iff.mp loose
    rcases prefix_append_cases inside with ⟨before, -⟩ | ⟨more, rfl, behind⟩
    · exact ⟨_, readText_of_not_mem fun nul => noNul (before.subset nul), trivial⟩
    · rcases List.prefix_cons_iff.mp behind with rfl | ⟨more, rfl, -⟩
      · rw [List.append_nil]
        exact ⟨_, readText_of_not_mem noNul, trivial⟩
      · -- the NUL is there, so it is the padding that is cut off
        rw [List.length_append, List.length_append, List.length_cons, List.length_cons] at short
        refine ⟨.paddingTruncated, ?_, trivial⟩
        rw [readText_append_nul noNul, if_pos (by omega)]

theorem readWord_of_short {packet : List UInt8} (short : packet.length < 4) :
    readWord packet = .error .truncatedArgument := by
  match packet, short with
  | [], _ => rfl
  | [_], _ => rfl
  | [_, _], _ => rfl
  | [_, _, _], _ => rfl

/-- **A number** is read from its four bytes. -/
theorem reads_word (word : UInt32) : Reads readWord (wordBytes word) word where
  leaves _ := readWord_eq_ok_iff.mpr rfl
  needs _ _ short := ⟨_, readWord_of_short short, trivial⟩

/-- An argument is read, under its tag, from its bytes. -/
theorem reads_arg {arg : Arg} {front : List UInt8} (clean : ¬ arg.HoldsNul)
    (loose : Loose arg.slack arg.bytes front) : Reads (readArg arg.tag.toUInt8) front arg := by
  cases arg with
  | int value =>
    obtain rfl := Loose.word_iff.mp loose
    exact (reads_word value.toUInt32).map fun word => Arg.int word.toInt32
  | float bits =>
    obtain rfl := Loose.word_iff.mp loose
    exact (reads_word bits).map Arg.float
  | text s =>
    have read := (reads_text clean loose).map fun text => Arg.text (String.ofList text)
    rwa [String.ofList_toList] at read

/-- **Arguments** are read, under their tags, from their bytes. -/
theorem reads_args (found : List Arg) {args : List Arg} {front : List UInt8}
    (clean : ∀ arg ∈ args, ¬ arg.HoldsNul)
    (loose : Loose (args.flatMap Arg.slack) (args.flatMap Arg.bytes) front) :
    Reads (readArgs found (args.map fun arg => arg.tag.toUInt8)) front (found.reverse ++ args) := by
  induction args generalizing found front with
  | nil =>
    obtain rfl := List.length_eq_zero_iff.mp loose.length_eq
    rw [List.append_nil]
    exact Reads.pure found.reverse
  | cons arg args ih =>
    obtain ⟨first, later, rfl, looseFirst, looseLater⟩ := loose.exists_append (length_slack arg)
    have behind := ih (arg :: found)
      (fun other hmem => clean other (List.mem_cons_of_mem arg hmem)) looseLater
    rw [List.reverse_cons, List.append_assoc, List.singleton_append] at behind
    exact (reads_arg (clean arg List.mem_cons_self) looseFirst).bind
      (fun arg => readArgs (arg :: found) (args.map fun arg => arg.tag.toUInt8)) behind

/-! ### Messages -/

/-- The reader of the arguments behind an address, with their tags. -/
def readTagged (packet : List UInt8) : Except Flaw (List Arg × List UInt8) := do
  let (tags, rest) ← readText packet
  if tags.head? = some ',' then readArgs [] (Utf8.encode tags.tail) rest
  else throw .missingTags

/-- The reader of a message, without the check that nothing is left. -/
def readMessage (packet : List UInt8) : Except Flaw (Message × List UInt8) := do
  let (address, rest) ← readText packet
  if address.head? = some '/' then
    let (args, rest) ← readTagged rest
    return (⟨String.ofList address, args⟩, rest)
  else throw (.badAddress address)

/-- A message is read, and then nothing may be left. -/
theorem Message.decode_eq (packet : List UInt8) :
    Message.decode packet = readMessage packet >>= fun found =>
      if found.2.isEmpty then .ok found.1 else .error .trailingBytes := by
  unfold Message.decode readMessage readTagged
  cases readText packet with
  | error flaw => rfl
  | ok found =>
    obtain ⟨address, rest⟩ := found
    by_cases slash : address.head? = some '/'
    · cases htags : readText rest with
      | error flaw => simp [bind, Except.bind, slash, htags]
      | ok found =>
        obtain ⟨tags, later⟩ := found
        simp only [bind, Except.bind, slash, htags, bne_self_eq_false, Bool.false_eq_true,
          if_false, if_true]
        split
        next tags =>
          rw [if_pos List.head?_cons, List.tail_cons]
          cases readArgs [] (Utf8.encode tags) later <;> rfl
        next other =>
          have noComma : tags.head? ≠ some ',' := by
            intro comma
            obtain ⟨more, hmore⟩ := List.head?_eq_some_iff.mp comma
            exact other more hmore
          rw [if_neg noComma]
          rfl
    · simp [bind, Except.bind, slash, throw, throwThe, MonadExceptOf.throw]

/-- The arguments of a message are read from their tags and their bytes. -/
theorem reads_tagged {args : List Arg} {front back : List UInt8}
    (clean : ∀ arg ∈ args, ¬ arg.HoldsNul)
    (looseTags : Loose (textSlack (utf8Bytes (tagText args)).length)
      (paddedBytes (utf8Bytes (tagText args))) front)
    (looseArgs : Loose (args.flatMap Arg.slack) (args.flatMap Arg.bytes) back) :
    Reads readTagged (front ++ back) args := by
  have inTags := not_holdsNul_tagText args
  rw [Osc.HoldsNul, tagText, String.toList_ofList] at inTags
  rw [tagText, utf8Bytes, String.toList_ofList] at looseTags
  have behind := reads_args [] clean looseArgs
  rw [← encode_tags] at behind
  exact (reads_text inTags looseTags).bind
    (fun tags rest =>
      if tags.head? = some ',' then readArgs [] (Utf8.encode tags.tail) rest
      else throw .missingTags) behind

/-- **A message** is read from its packet, loosely. -/
theorem reads_message {message : Message} {packet : List UInt8} (addressed : message.Addressed)
    (noNul : ¬ message.HoldsNul) (loose : Loose message.slack message.bytes packet) :
    Reads readMessage packet message := by
  obtain ⟨front, mid, back, rfl, looseAddress, looseTags, looseArgs⟩ := loose.exists_parts
  have slash : message.address.toList.head? = some '/' := addressed
  have inAddress : '\x00' ∉ message.address.toList := fun nul => noNul (Or.inl nul)
  have inArgs : ∀ arg ∈ message.args, ¬ arg.HoldsNul :=
    fun arg hmem nul => noNul (Or.inr ⟨arg, hmem, nul⟩)
  have args := (reads_tagged inArgs looseTags looseArgs).map (Message.mk message.address)
  rw [List.append_assoc]
  refine (reads_text inAddress looseAddress).bind
    (fun address rest =>
      if address.head? = some '/' then
        readTagged rest >>= fun found => .ok (Message.mk (String.ofList address) found.1, found.2)
      else .error (.badAddress address)) ?_
  simp only [slash, if_true, String.ofList_toList]
  exact args

theorem Reads.selfDelimiting {message : Message} {packet : List UInt8}
    (reads : Reads readMessage packet message) : SelfDelimiting packet where
  cutOff front inside proper := by
    have short : front.length < packet.length := by
      refine Nat.lt_of_le_of_ne inside.length_le fun same => proper ?_
      exact inside.eq_of_length same
    obtain ⟨flaw, hflaw, cut⟩ := reads.needs front inside short
    exact ⟨flaw, by rw [Message.decode_eq, hflaw]; rfl, cut⟩
  extended more nonempty := by
    have left : ¬ more.isEmpty = true := by simpa using nonempty
    rw [Message.decode_eq, reads.leaves]
    exact if_neg left

/-- **Packets delimit themselves.**  With the last of its bytes missing, however many, a packet
that is accepted is refused as cut off, and with anything behind it, as too long; and the
packets that are accepted include all that are written. -/
theorem Message.packets_self_delimiting :
    (∀ packet message, Message.decode packet = .ok message → SelfDelimiting packet) ∧
      ∀ (message : Message) packet, message.encode = .ok packet →
        Message.decode packet = .ok message ∧ SelfDelimiting packet := by
  have accepted : ∀ packet message, Message.decode packet = .ok message →
      SelfDelimiting packet := by
    intro packet message h
    obtain ⟨addressed, noNul, loose⟩ := Message.decode_eq_ok_iff.mp h
    exact (reads_message addressed noNul loose).selfDelimiting
  refine ⟨accepted, ?_⟩
  intro message packet h
  have read := Message.decode_of_encode h
  exact ⟨read, accepted packet message read⟩

/-- A packet with letters in its padding, without the last of them and with a NUL behind it. -/
theorem Message.packets_self_delimiting_padded_with_letters :
    Message.decode (utf8Bytes "/x\x00A,s\x00Bab\x00C") = .ok ⟨"/x", [.text "ab"]⟩ ∧
      (∃ flaw, Message.decode (utf8Bytes "/x\x00A,s\x00Bab\x00") = .error flaw ∧
        flaw.IsCutOff) ∧
      Message.decode (utf8Bytes "/x\x00A,s\x00Bab\x00C" ++ [0]) = .error .trailingBytes := by
  have accepted :
      Message.decode (utf8Bytes "/x\x00A,s\x00Bab\x00C") = .ok ⟨"/x", [.text "ab"]⟩ :=
    Message.decode_eq_ok_iff.mpr ⟨by decide, by decide, by decide, by decide⟩
  have delimited := Message.packets_self_delimiting.1 _ _ accepted
  exact ⟨accepted, delimited.cutOff _ (by decide) (by decide), delimited.extended [0] (by decide)⟩

end Osc

end LiveCoding
