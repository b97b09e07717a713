import LiveCoding.Proofs.Osc.Packet

/-!
# OSC packets accepted

The reader does not look at what stands behind the NUL that ends a text, up to the
next multiple of four.  These bytes are the *slack* of a packet.  Everything else in
a packet that is accepted is as the writer makes it, so a packet is accepted exactly
if it is a written one but for its slack, and the slack is zero in a written one.

## Main Definitions

* `Osc.Message.slack`: which bytes of the packet of a message are slack.
* `Osc.Loose`: bytes that are written ones but for the slack.

## Main Statements

* `Osc.readText_eq_ok_iff`, `Osc.readWord_eq_ok_iff`: what each of the two forms of
  bytes is read from.
* `Osc.readArgs_eq_ok_iff`: the same for arguments, and with them for their tags.
* `Osc.Message.decode_eq_ok_iff`: the same for whole packets.
-/

namespace LiveCoding

namespace Osc

/-! ### Slack -/

/-- Which bytes are slack in a padded text that has so many bytes of its own: those
behind the NUL that ends it. -/
def textSlack (n : Nat) : List Bool :=
  List.replicate (n + 1) false ++ List.replicate (paddedLength n - (n + 1)) true

/-- Which bytes of an argument are slack. -/
def Arg.slack : Arg → List Bool
  | .int _ | .float _ => List.replicate 4 false
  | .text s => textSlack (utf8Bytes s).length

/-- Which bytes of the packet of a message are slack. -/
def Message.slack (message : Message) : List Bool :=
  textSlack (utf8Bytes message.address).length ++
    textSlack (utf8Bytes (tagText message.args)).length ++ message.args.flatMap Arg.slack

/-- Bytes with zeros for slack. -/
def cleared (slack : List Bool) (bytes : List UInt8) : List UInt8 :=
  List.zipWith (fun s b => if s then 0 else b) slack bytes

/-- Bytes that are the written ones once their slack is cleared. -/
structure Loose (slack : List Bool) (written bytes : List UInt8) : Prop where
  length_eq : bytes.length = slack.length
  cleared_eq : cleared slack bytes = written

theorem lt_paddedLength (n : Nat) : n < paddedLength n := by
  unfold paddedLength
  omega

theorem length_paddedBytes (bytes : List UInt8) :
    (paddedBytes bytes).length = paddedLength bytes.length := by
  have := lt_paddedLength bytes.length
  rw [paddedBytes, List.length_append, List.length_replicate]
  omega

theorem length_textSlack (n : Nat) : (textSlack n).length = paddedLength n := by
  have := lt_paddedLength n
  rw [textSlack, List.length_append, List.length_replicate, List.length_replicate]
  omega

theorem length_cleared {slack : List Bool} {bytes : List UInt8}
    (h : bytes.length = slack.length) : (cleared slack bytes).length = bytes.length := by
  rw [cleared, List.length_zipWith, h, Nat.min_self]

theorem cleared_append {slack slack' : List Bool} {bytes : List UInt8}
    (h : bytes.length = slack.length) (bytes' : List UInt8) :
    cleared (slack ++ slack') (bytes ++ bytes') = cleared slack bytes ++ cleared slack' bytes' :=
  List.zipWith_append h.symm

theorem cleared_replicate_false {n : Nat} {bytes : List UInt8} (h : bytes.length = n) :
    cleared (List.replicate n false) bytes = bytes := by
  subst h
  induction bytes with
  | nil => rfl
  | cons b bytes ih =>
    rw [List.length_cons, List.replicate_succ]
    exact congrArg (b :: ·) ih

theorem cleared_replicate_true {n : Nat} {bytes : List UInt8} (h : bytes.length = n) :
    cleared (List.replicate n true) bytes = List.replicate n 0 := by
  subst h
  induction bytes with
  | nil => rfl
  | cons b bytes ih =>
    rw [List.length_cons, List.replicate_succ, List.replicate_succ]
    exact congrArg ((0 : UInt8) :: ·) ih

namespace Loose

variable {slack slack' : List Bool} {written written' bytes bytes' : List UInt8}

theorem length_written (h : Loose slack written bytes) : written.length = bytes.length := by
  rw [← h.cleared_eq, length_cleared h.length_eq]

theorem append (h : Loose slack written bytes) (h' : Loose slack' written' bytes') :
    Loose (slack ++ slack') (written ++ written') (bytes ++ bytes') where
  length_eq := by rw [List.length_append, List.length_append, h.length_eq, h'.length_eq]
  cleared_eq := by rw [cleared_append h.length_eq, h.cleared_eq, h'.cleared_eq]

/-- What is loosely two things one after the other can be cut between them. -/
theorem exists_append (whole : Loose (slack ++ slack') (written ++ written') bytes)
    (h : written.length = slack.length) :
    ∃ front back, bytes = front ++ back ∧ Loose slack written front ∧
      Loose slack' written' back := by
  have hlength := whole.length_eq
  rw [List.length_append] at hlength
  have front : (bytes.take slack.length).length = slack.length := by
    rw [List.length_take]
    omega
  have back : (bytes.drop slack.length).length = slack'.length := by
    rw [List.length_drop]
    omega
  have both := whole.cleared_eq
  rw [← List.take_append_drop slack.length bytes, cleared_append front] at both
  obtain ⟨hfront, hback⟩ := List.append_inj both (by rw [length_cleared front, front, h])
  exact ⟨_, _, (List.take_append_drop _ _).symm, ⟨front, hfront⟩, ⟨back, hback⟩⟩

/-- Where there is no slack, nothing is loose. -/
theorem iff_eq {n : Nat} (h : written.length = n) :
    Loose (List.replicate n false) written bytes ↔ bytes = written := by
  constructor
  · rintro ⟨hlength, hcleared⟩
    rw [List.length_replicate] at hlength
    rwa [cleared_replicate_false hlength] at hcleared
  · rintro rfl
    exact ⟨by rw [List.length_replicate, h], cleared_replicate_false h⟩

theorem word_iff {word : UInt32} :
    Loose (List.replicate 4 false) (wordBytes word) bytes ↔ bytes = wordBytes word :=
  iff_eq rfl

/-- What a written text is loosely: the text, the NUL that ends it, and any bytes up
to the next multiple of four. -/
theorem text_iff : Loose (textSlack written.length) (paddedBytes written) bytes ↔
    ∃ pad, bytes = written ++ 0 :: pad ∧
      pad.length = paddedLength written.length - (written.length + 1) := by
  have longer := lt_paddedLength written.length
  have padded : paddedBytes written = (written ++ [0]) ++
      List.replicate (paddedLength written.length - (written.length + 1)) 0 := by
    rw [paddedBytes, List.append_assoc, List.singleton_append, ← List.replicate_succ]
    congr 2
    omega
  have hlength : (written ++ [0]).length = written.length + 1 := List.length_append
  rw [textSlack, padded]
  constructor
  · intro whole
    obtain ⟨front, pad, rfl, hfront, hpad⟩ :=
      whole.exists_append (by rw [List.length_replicate, hlength])
    obtain rfl := (iff_eq hlength).mp hfront
    refine ⟨pad, List.append_assoc .., ?_⟩
    rw [hpad.length_eq, List.length_replicate]
  · rintro ⟨pad, rfl, hpad⟩
    have front : Loose (List.replicate (written.length + 1) false) (written ++ [0])
        (written ++ [0]) := (iff_eq hlength).mpr rfl
    have back : Loose (List.replicate pad.length true) (List.replicate pad.length 0) pad :=
      ⟨List.length_replicate.symm, cleared_replicate_true rfl⟩
    have whole := front.append back
    rwa [List.append_assoc _ [0] pad, List.singleton_append, hpad] at whole

end Loose

/-! ### Texts and words -/

/-- Bytes without a NUL are taken whole. -/
theorem takeWhile_append_of_not_mem {bytes : List UInt8} (h : 0 ∉ bytes) (more : List UInt8) :
    (bytes ++ more).takeWhile (· != 0) = bytes ++ more.takeWhile (· != 0) := by
  apply List.takeWhile_append_of_pos
  intro b hb
  simp only [bne_iff_ne, ne_eq]
  rintro rfl
  exact h hb

/-- Without a NUL there is no text. -/
theorem readText_of_not_mem {packet : List UInt8} (h : 0 ∉ packet) :
    readText packet = .error .unterminatedText := by
  have all : packet.takeWhile (· != 0) = packet := by
    simpa using takeWhile_append_of_not_mem h []
  simp only [readText, all]
  rw [List.take_of_length_le (Nat.le_of_lt (lt_paddedLength _)), if_pos rfl]

/-- What becomes of a packet with a NUL: its padding has to be there, and the bytes in
front of it have to be text. -/
theorem readText_append_nul {bytes : List UInt8} (h : 0 ∉ bytes) (more : List UInt8) :
    readText (bytes ++ 0 :: more) =
      if more.length < paddedLength bytes.length - (bytes.length + 1) then
        .error .paddingTruncated
      else
        match Utf8.decode bytes with
        | .error fault => .error (.notText fault)
        | .ok text => .ok (text, more.drop (paddedLength bytes.length - (bytes.length + 1))) := by
  have longer := lt_paddedLength bytes.length
  have front : (bytes ++ 0 :: more).takeWhile (· != 0) = bytes := by
    simpa using takeWhile_append_of_not_mem h (0 :: more)
  have hlength : (bytes ++ 0 :: more).length = bytes.length + 1 + more.length := by
    rw [List.length_append, List.length_cons]
    omega
  have hdrop : (bytes ++ 0 :: more).drop (paddedLength bytes.length) =
      more.drop (paddedLength bytes.length - (bytes.length + 1)) := by
    rw [← List.singleton_append, ← List.append_assoc, List.drop_append, List.length_append,
      List.length_singleton, List.drop_eq_nil_of_le, List.nil_append]
    rw [List.length_append, List.length_singleton]
    exact longer
  simp only [readText, front, List.length_take, hlength, hdrop]
  rw [if_neg (by omega)]
  congr 1
  exact propext ⟨fun _ => by omega, fun _ => by omega⟩

/-- **What a text is read from**: itself, loosely, and the rest. -/
theorem readText_eq_ok_iff {packet rest : List UInt8} {text : List Char} :
    readText packet = .ok (text, rest) ↔
      '\x00' ∉ text ∧ ∃ front, packet = front ++ rest ∧
        Loose (textSlack (Utf8.encode text).length) (paddedBytes (Utf8.encode text)) front := by
  have ascii : '\x00'.toNat < 0x80 := by decide
  have nul (text : List Char) : 0 ∈ Utf8.encode text ↔ '\x00' ∈ text :=
    Utf8.mem_encode_ascii ascii text
  constructor
  · intro h
    by_cases ended : 0 ∈ packet
    · obtain ⟨bytes, more, rfl, clean⟩ := List.eq_append_cons_of_mem ended
      rw [readText_append_nul clean] at h
      split at h
      · contradiction
      next room =>
        split at h
        · contradiction
        next decoded hdecoded =>
          obtain ⟨rfl, rfl⟩ := Prod.mk.inj (Except.ok.inj h)
          obtain rfl := Utf8.decode_eq_ok_iff.mp hdecoded
          -- the padding is as much of what follows the NUL as there has to be
          let missing := paddedLength (Utf8.encode decoded).length -
            ((Utf8.encode decoded).length + 1)
          have pad : (more.take missing).length = missing := by
            rw [List.length_take, Nat.min_eq_left (Nat.le_of_not_lt room)]
          refine ⟨mt (nul _).mpr clean, _, ?_, Loose.text_iff.mpr ⟨_, rfl, pad⟩⟩
          rw [List.append_assoc, List.cons_append, List.take_append_drop]
    · rw [readText_of_not_mem ended] at h
      contradiction
  · rintro ⟨clean, front, rfl, loose⟩
    obtain ⟨pad, rfl, hpad⟩ := Loose.text_iff.mp loose
    have whole : ¬ (pad ++ rest).length <
        paddedLength (Utf8.encode text).length - ((Utf8.encode text).length + 1) := by
      rw [← hpad, List.length_append]
      omega
    rw [List.append_assoc, List.cons_append, readText_append_nul (mt (nul text).mp clean),
      if_neg whole, Utf8.decode_encode, ← hpad, List.drop_left]

theorem wordOf_wordBytes (word : UInt32) :
    wordOf (.ofNat (word.toNat / 0x1000000)) (.ofNat (word.toNat / 0x10000))
      (.ofNat (word.toNat / 0x100)) (.ofNat word.toNat) = word := by
  have bound := word.toNat_lt
  have value : word.toNat / 0x1000000 % 2 ^ 8 * 0x1000000 +
      word.toNat / 0x10000 % 2 ^ 8 * 0x10000 + word.toNat / 0x100 % 2 ^ 8 * 0x100 +
      word.toNat % 2 ^ 8 = word.toNat := by omega
  rw [wordOf, UInt8.toNat_ofNat', UInt8.toNat_ofNat', UInt8.toNat_ofNat', UInt8.toNat_ofNat',
    value, UInt32.ofNat_toNat]

theorem wordBytes_wordOf (b₀ b₁ b₂ b₃ : UInt8) :
    wordBytes (wordOf b₀ b₁ b₂ b₃) = [b₀, b₁, b₂, b₃] := by
  have h₀ := b₀.toNat_lt
  have h₁ := b₁.toNat_lt
  have h₂ := b₂.toNat_lt
  have h₃ := b₃.toNat_lt
  have value : (wordOf b₀ b₁ b₂ b₃).toNat =
      b₀.toNat * 0x1000000 + b₁.toNat * 0x10000 + b₂.toNat * 0x100 + b₃.toNat := by
    rw [wordOf, UInt32.toNat_ofNat']
    omega
  have byte {n : Nat} {b : UInt8} (h : n % 2 ^ 8 = b.toNat) : UInt8.ofNat n = b := by
    rw [← UInt8.toNat_inj, UInt8.toNat_ofNat', h]
  simp only [wordBytes, value]
  rw [byte (b := b₀) (by omega), byte (b := b₁) (by omega), byte (b := b₂) (by omega),
    byte (b := b₃) (by omega)]

/-- **What a number is read from**: its four bytes and the rest. -/
theorem readWord_eq_ok_iff {packet rest : List UInt8} {word : UInt32} :
    readWord packet = .ok (word, rest) ↔ packet = wordBytes word ++ rest := by
  constructor
  · intro h
    unfold readWord at h
    split at h
    next b₀ b₁ b₂ b₃ more =>
      obtain ⟨rfl, rfl⟩ := Prod.mk.inj (Except.ok.inj h)
      rw [wordBytes_wordOf]
      rfl
    next => contradiction
  · rintro rfl
    simp only [wordBytes, List.cons_append, List.nil_append, readWord, wordOf_wordBytes]

/-! ### Arguments -/

theorem length_slack (arg : Arg) : arg.bytes.length = arg.slack.length := by
  cases arg with
  | int value => rfl
  | float bits => rfl
  | text s => rw [Arg.bytes, Arg.slack, length_paddedBytes, length_textSlack]

/-- A reader of two stages succeeds if both do. -/
theorem bind_eq_ok_iff {ε α β : Type} {first : Except ε α} {second : α → Except ε β} {b : β} :
    (first >>= second) = .ok b ↔ ∃ a, first = .ok a ∧ second a = .ok b := by
  cases first <;> simp [bind, Except.bind]

/-- **What an argument is read from**, and under which tag. -/
theorem readArg_eq_ok_iff {tag : UInt8} {packet rest : List UInt8} {arg : Arg} :
    readArg tag packet = .ok (arg, rest) ↔
      tag = arg.tag.toUInt8 ∧ ¬ arg.HoldsNul ∧
        ∃ front, packet = front ++ rest ∧ Loose arg.slack arg.bytes front := by
  constructor
  · intro h
    unfold readArg at h
    split at h
    next int =>
      obtain ⟨⟨word, more⟩, hword, found⟩ := bind_eq_ok_iff.mp h
      obtain ⟨rfl, rfl⟩ := Prod.mk.inj (Except.ok.inj found)
      exact ⟨int, not_false, _, readWord_eq_ok_iff.mp hword, Loose.word_iff.mpr rfl⟩
    split at h
    next float =>
      obtain ⟨⟨word, more⟩, hword, found⟩ := bind_eq_ok_iff.mp h
      obtain ⟨rfl, rfl⟩ := Prod.mk.inj (Except.ok.inj found)
      exact ⟨float, not_false, _, readWord_eq_ok_iff.mp hword, Loose.word_iff.mpr rfl⟩
    split at h
    next text =>
      obtain ⟨⟨decoded, more⟩, htext, found⟩ := bind_eq_ok_iff.mp h
      obtain ⟨rfl, rfl⟩ := Prod.mk.inj (Except.ok.inj found)
      obtain ⟨clean, front, hpacket, loose⟩ := readText_eq_ok_iff.mp htext
      refine ⟨text, ?_, front, hpacket, ?_⟩
      · rwa [Arg.HoldsNul, Osc.HoldsNul, String.toList_ofList]
      · rwa [Arg.slack, Arg.bytes, utf8Bytes, String.toList_ofList]
    next => contradiction
  · rintro ⟨rfl, clean, front, rfl, loose⟩
    cases arg with
    | int value =>
      have hword : readWord (front ++ rest) = .ok (value.toUInt32, rest) :=
        readWord_eq_ok_iff.mpr (by rw [Loose.word_iff.mp loose])
      show readArg 'i'.toUInt8 _ = _
      rw [readArg, if_pos rfl, hword]
      rfl
    | float bits =>
      have hword : readWord (front ++ rest) = .ok (bits, rest) :=
        readWord_eq_ok_iff.mpr (by rw [Loose.word_iff.mp loose])
      show readArg 'f'.toUInt8 _ = _
      rw [readArg, if_neg (by decide), if_pos rfl, hword]
      rfl
    | text s =>
      have htext : readText (front ++ rest) = .ok (s.toList, rest) :=
        readText_eq_ok_iff.mpr ⟨clean, front, rfl, loose⟩
      show readArg 's'.toUInt8 _ = _
      rw [readArg, if_neg (by decide), if_neg (by decide), if_pos rfl, htext]
      show Except.ok (Arg.text (String.ofList s.toList), rest) = _
      rw [String.ofList_toList]

/-- **What arguments are read from**, and under which tags. -/
theorem readArgs_eq_ok_iff {found whole : List Arg} {tags packet rest : List UInt8} :
    readArgs found tags packet = .ok (whole, rest) ↔
      ∃ args, whole = found.reverse ++ args ∧ tags = args.map (fun arg => arg.tag.toUInt8) ∧
        (∀ arg ∈ args, ¬ arg.HoldsNul) ∧
        ∃ front, packet = front ++ rest ∧
          Loose (args.flatMap Arg.slack) (args.flatMap Arg.bytes) front := by
  induction tags generalizing found packet with
  | nil =>
    constructor
    · intro h
      obtain ⟨rfl, rfl⟩ := Prod.mk.inj (Except.ok.inj h)
      exact ⟨[], (List.append_nil _).symm, rfl, by simp, [], rfl, ⟨rfl, rfl⟩⟩
    · rintro ⟨args, rfl, htags, -, front, rfl, loose⟩
      obtain rfl := List.map_eq_nil_iff.mp htags.symm
      obtain rfl := List.length_eq_zero_iff.mp loose.length_eq
      rw [readArgs, List.append_nil, List.nil_append]
  | cons tag tags ih =>
    rw [readArgs, bind_eq_ok_iff]
    constructor
    · rintro ⟨⟨arg, more⟩, hfirst, hlater⟩
      obtain ⟨rfl, clean, front, rfl, loose⟩ := readArg_eq_ok_iff.mp hfirst
      obtain ⟨args, rfl, rfl, cleanLater, back, rfl, looseLater⟩ := ih.mp hlater
      refine ⟨arg :: args, ?_, rfl, ?_, front ++ back, ?_, ?_⟩
      · rw [List.reverse_cons, List.append_assoc, List.singleton_append]
      · exact List.forall_mem_cons.mpr ⟨clean, cleanLater⟩
      · rw [List.append_assoc]
      · rw [List.flatMap_cons, List.flatMap_cons]
        exact loose.append looseLater
    · rintro ⟨args, rfl, htags, clean, whole, rfl, loose⟩
      obtain ⟨arg, args, rfl, rfl, rfl⟩ := List.map_eq_cons_iff.mp htags.symm
      obtain ⟨front, back, rfl, looseFirst, looseLater⟩ := loose.exists_append (length_slack arg)
      refine ⟨(arg, back ++ rest), readArg_eq_ok_iff.mpr ⟨rfl, ?_, front, ?_, looseFirst⟩,
        ih.mpr ⟨args, ?_, rfl, ?_, back, rfl, looseLater⟩⟩
      · exact clean arg List.mem_cons_self
      · rw [List.append_assoc]
      · rw [List.reverse_cons, List.append_assoc, List.singleton_append]
      · exact fun other hmem => clean other (List.mem_cons_of_mem arg hmem)

/-! ### Messages -/

/-- What is loosely a message has three parts: its address, its tags and its arguments. -/
theorem Loose.exists_parts {message : Message} {packet : List UInt8}
    (loose : Loose message.slack message.bytes packet) :
    ∃ front mid back, packet = front ++ mid ++ back ∧
      Loose (textSlack (utf8Bytes message.address).length)
        (paddedBytes (utf8Bytes message.address)) front ∧
      Loose (textSlack (utf8Bytes (tagText message.args)).length)
        (paddedBytes (utf8Bytes (tagText message.args))) mid ∧
      Loose (message.args.flatMap Arg.slack) (message.args.flatMap Arg.bytes) back := by
  have length_text (s : String) :
      (paddedBytes (utf8Bytes s)).length = (textSlack (utf8Bytes s).length).length := by
    rw [length_paddedBytes, length_textSlack]
  obtain ⟨front, back, rfl, looseFront, looseArgs⟩ :=
    loose.exists_append (by rw [List.length_append, List.length_append, length_text, length_text])
  obtain ⟨front, mid, rfl, looseAddress, looseTags⟩ := looseFront.exists_append (length_text _)
  exact ⟨front, mid, back, rfl, looseAddress, looseTags, looseArgs⟩

/-- The tags of arguments are as many bytes. -/
theorem encode_tags (args : List Arg) :
    Utf8.encode (args.map Arg.tag) = args.map fun arg => arg.tag.toUInt8 := by
  induction args with
  | nil => rfl
  | cons arg rest ih =>
    rw [List.map_cons, List.map_cons, Utf8.encode_cons, ih]
    cases arg <;> rfl

/-- The three readings one after the other, with what each has to find. -/
theorem Message.decode_eq_ok_iff_read {packet : List UInt8} {message : Message} :
    Message.decode packet = .ok message ↔
      ∃ rest tags later, readText packet = .ok (message.address.toList, rest) ∧
        message.Addressed ∧ readText rest = .ok (',' :: tags, later) ∧
        readArgs [] (Utf8.encode tags) later = .ok (message.args, []) := by
  constructor
  · intro h
    unfold Message.decode at h
    obtain ⟨⟨address, rest⟩, haddress, h⟩ := bind_eq_ok_iff.mp h
    dsimp only at h
    split at h
    · contradiction
    next slash =>
      obtain ⟨⟨tags, later⟩, htags, h⟩ := bind_eq_ok_iff.mp h
      dsimp only at h
      split at h
      next tags =>
        obtain ⟨⟨args, behind⟩, hargs, h⟩ := bind_eq_ok_iff.mp h
        dsimp only at h
        split at h
        next ended =>
          obtain rfl := Except.ok.inj h
          obtain rfl := List.isEmpty_iff.mp ended
          refine ⟨rest, tags, later, ?_, ?_, htags, hargs⟩
          · rw [haddress, String.toList_ofList]
          · rw [Message.Addressed, String.toList_ofList]
            simpa using slash
        next => contradiction
      next => contradiction
  · rintro ⟨rest, tags, later, haddress, addressed, htags, hargs⟩
    have slash : message.address.toList.head? = some '/' := addressed
    unfold Message.decode
    rw [haddress]
    simp only [bind, Except.bind, slash, htags, hargs]
    simp [pure, Except.pure]

/-- **What a message is read from**: its packet, loosely. -/
theorem Message.decode_eq_ok_iff {packet : List UInt8} {message : Message} :
    Message.decode packet = .ok message ↔
      message.Addressed ∧ ¬ message.HoldsNul ∧ Loose message.slack message.bytes packet := by
  rw [Message.decode_eq_ok_iff_read]
  constructor
  · rintro ⟨rest, tags, later, haddress, addressed, htags, hargs⟩
    obtain ⟨inAddress, front, rfl, looseAddress⟩ := readText_eq_ok_iff.mp haddress
    obtain ⟨inTags, mid, rfl, looseTags⟩ := readText_eq_ok_iff.mp htags
    obtain ⟨args, hwhole, hmap, inArgs, back, hlater, looseArgs⟩ := readArgs_eq_ok_iff.mp hargs
    -- the tags that are read are those of the arguments that are read
    obtain rfl : message.args = args := hwhole
    have htags : ',' :: tags = (tagText message.args).toList := by
      rw [← encode_tags] at hmap
      rw [tagText, String.toList_ofList, Utf8.encode_injective hmap]
    rw [htags] at looseTags
    rw [List.append_nil] at hlater
    subst hlater
    refine ⟨addressed, ?_, ?_⟩
    · rintro (nul | ⟨arg, hmem, nul⟩)
      · exact inAddress nul
      · exact inArgs arg hmem nul
    · rw [← List.append_assoc]
      exact (looseAddress.append looseTags).append looseArgs
  · rintro ⟨addressed, clean, loose⟩
    obtain ⟨front, mid, back, rfl, looseAddress, looseTags, looseArgs⟩ := loose.exists_parts
    refine ⟨mid ++ back, message.args.map Arg.tag, back, ?_, addressed, ?_, ?_⟩
    · exact readText_eq_ok_iff.mpr
        ⟨fun nul => clean (Or.inl nul), front, List.append_assoc .., looseAddress⟩
    · have inTags := not_holdsNul_tagText message.args
      rw [tagText, utf8Bytes, String.toList_ofList] at looseTags
      rw [tagText, Osc.HoldsNul, String.toList_ofList] at inTags
      exact readText_eq_ok_iff.mpr ⟨inTags, mid, rfl, looseTags⟩
    · exact readArgs_eq_ok_iff.mpr ⟨message.args, rfl, encode_tags _,
        fun arg hmem nul => clean (Or.inr ⟨arg, hmem, nul⟩), back, (List.append_nil _).symm,
        looseArgs⟩

end Osc

end LiveCoding
