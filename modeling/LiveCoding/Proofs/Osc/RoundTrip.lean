import LiveCoding.Proofs.Osc.Reading

/-!
# OSC packets there and back

A packet that was written is read back as the message it was written from, and a
message that was read is written back as the packet it was read from, but for the
slack, which is zero then.  Both are read off `Osc.Message.decode_eq_ok_iff`.

## Main Statements

* `Osc.Message.decode_undoes_encode`: from a message to its packet and back.
* `Osc.Message.encode_of_decode`: from a packet to its message and back.
-/

namespace LiveCoding

namespace Osc

/-! ### Written packets -/

/-- The padding that is written is one of those that are read. -/
theorem Loose.paddedBytes (bytes : List UInt8) :
    Loose (textSlack bytes.length) (paddedBytes bytes) (paddedBytes bytes) := by
  have longer := lt_paddedLength bytes.length
  refine Loose.text_iff.mpr ⟨List.replicate _ 0, ?_, List.length_replicate⟩
  rw [Osc.paddedBytes, ← List.replicate_succ]
  congr 2
  omega

theorem Arg.loose_bytes (arg : Arg) : Loose arg.slack arg.bytes arg.bytes := by
  cases arg with
  | int value => exact Loose.word_iff.mpr rfl
  | float bits => exact Loose.word_iff.mpr rfl
  | text s => exact Loose.paddedBytes _

theorem loose_flatMap_bytes (args : List Arg) :
    Loose (args.flatMap Arg.slack) (args.flatMap Arg.bytes) (args.flatMap Arg.bytes) := by
  induction args with
  | nil => exact ⟨rfl, rfl⟩
  | cons arg args ih =>
    rw [List.flatMap_cons, List.flatMap_cons]
    exact arg.loose_bytes.append ih

theorem Message.loose_bytes (message : Message) :
    Loose message.slack message.bytes message.bytes :=
  ((Loose.paddedBytes _).append (Loose.paddedBytes _)).append (loose_flatMap_bytes _)

/-- The packet of a message is read back as the message. -/
theorem Message.decode_bytes {message : Message} (addressed : message.Addressed)
    (noNul : ¬ message.HoldsNul) : Message.decode message.bytes = .ok message :=
  Message.decode_eq_ok_iff.mpr ⟨addressed, noNul, message.loose_bytes⟩

/-- A packet that was written is read back. -/
theorem Message.decode_of_encode {message : Message} {packet : List UInt8}
    (h : message.encode = .ok packet) : Message.decode packet = .ok message := by
  rw [Message.encode_eq] at h
  split at h
  · contradiction
  next addressed =>
    split at h
    · contradiction
    next noNul =>
      obtain rfl := Except.ok.inj h
      exact Message.decode_bytes (not_not.mp addressed) noNul

/-- **Reading undoes writing, on every message.**  Writing is refused for an address
without a slash, and else for a NUL anywhere; any other message has a packet, which
is read back as the message, bit by bit in its floats.  So no two messages share a
packet. -/
theorem Message.decode_undoes_encode :
    (∀ message : Message,
      (¬ message.Addressed → message.encode = .error (.invalidAddress message.address)) ∧
      (message.Addressed → message.HoldsNul → message.encode = .error .interiorNul) ∧
      (message.Addressed → ¬ message.HoldsNul →
        ∃ packet, message.encode = .ok packet ∧ Message.decode packet = .ok message)) ∧
    ∀ (message other : Message) (packet : List UInt8),
      message.encode = .ok packet → other.encode = .ok packet → message = other := by
  refine ⟨?_, ?_⟩
  · intro message
    rw [Message.encode_eq]
    refine ⟨?_, ?_, ?_⟩
    · intro addressed
      rw [if_pos addressed]
    · intro addressed nul
      rw [if_neg (not_not_intro addressed), if_pos nul]
    · intro addressed noNul
      rw [if_neg (not_not_intro addressed), if_neg noNul]
      exact ⟨message.bytes, rfl, Message.decode_bytes addressed noNul⟩
  · intro message other packet h h'
    have read := Message.decode_of_encode h
    rw [Message.decode_of_encode h'] at read
    exact (Except.ok.inj read).symm

/-! ### Accepted packets -/

namespace Loose

variable {slack : List Bool} {written bytes bytes' : List UInt8} {i : Nat}

/-- Slack is zero where it is written. -/
theorem getElem?_of_slack (h : Loose slack written bytes) (hi : slack[i]? = some true) :
    written[i]? = some 0 := by
  have inRange : i < bytes.length := by
    rw [h.length_eq]
    exact (List.getElem?_eq_some_iff.mp hi).1
  rw [← h.cleared_eq, cleared, List.getElem?_zipWith, hi, List.getElem?_eq_getElem inRange]
  rfl

/-- What is no slack is as it is written. -/
theorem getElem?_of_not_slack (h : Loose slack written bytes) (hi : slack[i]? = some false) :
    written[i]? = bytes[i]? := by
  have inRange : i < bytes.length := by
    rw [h.length_eq]
    exact (List.getElem?_eq_some_iff.mp hi).1
  rw [← h.cleared_eq, cleared, List.getElem?_zipWith, hi, List.getElem?_eq_getElem inRange]
  rfl

/-- Bytes that are loosely the same differ at most in their slack. -/
theorem iff_of_loose (h : Loose slack written bytes) : Loose slack written bytes' ↔
    bytes'.length = bytes.length ∧
      ∀ i : Nat, slack[i]? = some false → bytes'[i]? = bytes[i]? := by
  constructor
  · intro h'
    refine ⟨by rw [h.length_eq, h'.length_eq], fun i hi => ?_⟩
    rw [← h.getElem?_of_not_slack hi, h'.getElem?_of_not_slack hi]
  · rintro ⟨hlength, same⟩
    refine ⟨by rw [hlength, h.length_eq], ?_⟩
    rw [← h.cleared_eq]
    apply List.ext_getElem?
    intro i
    rw [cleared, cleared, List.getElem?_zipWith, List.getElem?_zipWith]
    cases hi : slack[i]? with
    | none => rfl
    | some s =>
      cases s with
      | false => rw [same i hi]
      | true =>
        -- what stands there is not looked at, only that something does
        have inRange : i < bytes.length := by
          rw [h.length_eq]
          exact (List.getElem?_eq_some_iff.mp hi).1
        rw [List.getElem?_eq_getElem inRange,
          List.getElem?_eq_getElem (by rw [hlength]; exact inRange)]
        rfl

end Loose

theorem dvd_length_textSlack (n : Nat) : 4 ∣ (textSlack n).length := by
  rw [length_textSlack]
  exact Nat.dvd_mul_left 4 _

theorem dvd_length_flatMap_slack (args : List Arg) : 4 ∣ (args.flatMap Arg.slack).length := by
  induction args with
  | nil => exact Nat.dvd_zero 4
  | cons arg args ih =>
    rw [List.flatMap_cons, List.length_append]
    refine Nat.dvd_add ?_ ih
    cases arg with
    | int value => exact Nat.dvd_refl 4
    | float bits => exact Nat.dvd_refl 4
    | text s => exact dvd_length_textSlack _

theorem Message.dvd_length_slack (message : Message) : 4 ∣ message.slack.length := by
  rw [Message.slack, List.length_append, List.length_append]
  exact Nat.dvd_add (Nat.dvd_add (dvd_length_textSlack _) (dvd_length_textSlack _))
    (dvd_length_flatMap_slack _)

/-- **Nothing but packets of messages is accepted, up to their slack.**  The message of
an accepted packet has a packet, which is as long, a multiple of four, has zeros for
slack and is the same everywhere else; it is read as the message again.  The packets
with that message are those that differ from the accepted one at most in their
slack. -/
theorem Message.encode_of_decode {packet : List UInt8} {message : Message}
    (h : Message.decode packet = .ok message) :
    ∃ written, message.encode = .ok written ∧ Message.decode written = .ok message ∧
      written.length = packet.length ∧ message.slack.length = packet.length ∧
      4 ∣ packet.length ∧
      (∀ i : Nat, message.slack[i]? = some true → written[i]? = some 0) ∧
      (∀ i : Nat, message.slack[i]? = some false → written[i]? = packet[i]?) ∧
      ∀ other, Message.decode other = .ok message ↔
        other.length = packet.length ∧
          ∀ i : Nat, message.slack[i]? = some false → other[i]? = packet[i]? := by
  obtain ⟨addressed, noNul, loose⟩ := Message.decode_eq_ok_iff.mp h
  have hencode : message.encode = .ok message.bytes := by
    rw [Message.encode_eq, if_neg (not_not_intro addressed), if_neg noNul]
  refine ⟨message.bytes, hencode, Message.decode_bytes addressed noNul, loose.length_written,
    loose.length_eq.symm, ?_, fun i => loose.getElem?_of_slack,
    fun i => loose.getElem?_of_not_slack, ?_⟩
  · rw [loose.length_eq]
    exact message.dvd_length_slack
  · intro other
    rw [Message.decode_eq_ok_iff, ← loose.iff_of_loose]
    exact ⟨fun accepted => accepted.2.2, fun loose' => ⟨addressed, noNul, loose'⟩⟩

/-- A packet with letters in the padding of its address, its tags and its argument. -/
theorem Message.encode_of_decode_padded_with_letters :
    Message.decode (utf8Bytes "/x\x00A,s\x00Bab\x00C") = .ok ⟨"/x", [.text "ab"]⟩ ∧
      ∃ written, Message.encode ⟨"/x", [.text "ab"]⟩ = .ok written ∧ written.length = 12 ∧
        written[3]? = some 0 ∧ written[7]? = some 0 ∧ written[11]? = some 0 ∧
        written[8]? = some 97 := by
  have accepted :
      Message.decode (utf8Bytes "/x\x00A,s\x00Bab\x00C") = .ok ⟨"/x", [.text "ab"]⟩ :=
    Message.decode_eq_ok_iff.mpr ⟨by decide, by decide, by decide, by decide⟩
  obtain ⟨written, hencode, -, hlength, -, -, zero, same, -⟩ := Message.encode_of_decode accepted
  exact ⟨accepted, written, hencode, hlength, zero 3 (by decide), zero 7 (by decide),
    zero 11 (by decide), same 8 (by decide)⟩

end Osc

end LiveCoding
