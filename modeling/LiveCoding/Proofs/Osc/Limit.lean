import LiveCoding.Proofs.Osc.Client
import LiveCoding.Proofs.Osc.Reading

/-!
# How long packets are

A number takes four bytes in a packet.  A text takes its bytes and at least one more, up
to a multiple of four, and so do the type tags, of which there is one more than there
are arguments.  So the length of a packet is known from its message alone, and with it
which code fits into a datagram: 65487 bytes of it do, and one more does not.

## Main Definitions

* `Osc.Message.size`: how many bytes a message takes.

## Main Statements

* `Osc.Message.length_bytes`: a packet is as long as its message says.
* `Osc.size_evaluate_le_iff`: the code that fits into a datagram.
* `Osc.Client.send_evaluate_limit`: what becomes of code on a client that is connected.
-/

namespace LiveCoding

namespace Osc

/-- How many bytes an argument takes in a packet. -/
def Arg.size : Arg → Nat
  | .int _ | .float _ => 4
  | .text s => paddedLength s.utf8ByteSize

/-- How many bytes a message takes: its address, its type tags with the comma in front
of them, and its arguments. -/
def Message.size (message : Message) : Nat :=
  paddedLength message.address.utf8ByteSize + paddedLength (1 + message.args.length) +
    message.args.foldr (fun arg n => arg.size + n) 0

/-! ### Packets -/

theorem length_paddedBytes_utf8Bytes (s : String) :
    (paddedBytes (utf8Bytes s)).length = paddedLength s.utf8ByteSize := by
  rw [length_paddedBytes, length_utf8Bytes]

/-- The type tags are one letter for each argument, behind a comma. -/
theorem utf8ByteSize_tagText (args : List Arg) :
    (tagText args).utf8ByteSize = 1 + args.length := by
  have comma : (Utf8.encode [',']).length = 1 := by decide
  rw [← length_utf8Bytes, utf8Bytes, tagText, String.toList_ofList, ← List.singleton_append,
    Utf8.encode_append, List.length_append, comma, encode_tags, List.length_map]

theorem Arg.length_bytes (arg : Arg) : arg.bytes.length = arg.size := by
  cases arg with
  | int value => rfl
  | float bits => rfl
  | text s => exact length_paddedBytes_utf8Bytes s

theorem length_flatMap_bytes (args : List Arg) :
    (args.flatMap Arg.bytes).length = args.foldr (fun arg n => arg.size + n) 0 := by
  induction args with
  | nil => rfl
  | cons arg args ih =>
    rw [List.flatMap_cons, List.length_append, arg.length_bytes, ih, List.foldr_cons]

/-- **A packet is as long as its message says.** -/
theorem Message.length_bytes (message : Message) : message.bytes.length = message.size := by
  rw [Message.bytes, List.length_append, List.length_append, length_paddedBytes_utf8Bytes,
    length_paddedBytes_utf8Bytes, utf8ByteSize_tagText, length_flatMap_bytes, Message.size]

/-- The length of what is written, and what keeps a message from being written. -/
theorem Message.map_length_encode (message : Message) :
    message.encode.map List.length =
      if ¬ message.Addressed then .error (.invalidAddress message.address)
      else if message.HoldsNul then .error .interiorNul
      else .ok message.size := by
  rw [Message.encode_eq, ← message.length_bytes]
  split
  · rfl
  · split <;> rfl

/-! ### Code -/

/-- Address and type tags take 16 bytes. -/
theorem size_evaluate (code : String) :
    (evaluate code).size = 16 + 4 * (code.utf8ByteSize / 4 + 1) := by
  have address : paddedLength "/interpret".utf8ByteSize = 12 := by decide
  have tags : paddedLength (1 + 1) = 4 := rfl
  show paddedLength "/interpret".utf8ByteSize + paddedLength (1 + 1) +
    (paddedLength code.utf8ByteSize + 0) = _
  rw [address, tags, paddedLength]
  omega

/-- **The code that fits into a datagram.**  The lengths of packets are multiples of four,
so the longest packet is three bytes shorter than a datagram may be. -/
theorem size_evaluate_le_iff (code : String) :
    (evaluate code).size ≤ maxDatagram ↔ code.utf8ByteSize < 65488 := by
  rw [size_evaluate, maxDatagram]
  omega

namespace Client

variable {network : Network} {client : Client} {peer : Endpoint}

/-- **What becomes of code on a client that is connected.**  Code with a NUL is refused as
such, however long it is; else code of 65488 bytes or more as too long, with the length
of its packet.  Any other code becomes one datagram of that length, which is at most
65504, unless the network does not take it.  And so for messages in general: one that
can be written has a packet of `Message.size` bytes. -/
theorem send_evaluate_limit (connected : client.peer = some peer) (code : String) :
    (HoldsNul code → client.send network (evaluate code) = .error .interiorNul) ∧
    (¬ HoldsNul code → 65488 ≤ code.utf8ByteSize →
      client.send network (evaluate code) =
        .error (.payloadTooLarge (16 + 4 * (code.utf8ByteSize / 4 + 1)))) ∧
    (¬ HoldsNul code → code.utf8ByteSize < 65488 →
      ∃ packet, (evaluate code).encode = .ok packet ∧
        packet.length = 16 + 4 * (code.utf8ByteSize / 4 + 1) ∧ packet.length ≤ 65504 ∧
        (network.carry peer packet = .ok () →
          client.send network (evaluate code) = .ok ⟨peer, packet⟩) ∧
        ∀ fault, network.carry peer packet = .error fault →
          client.send network (evaluate code) = .error (.socket fault)) ∧
    ∀ message : Message, message.encode.map List.length =
      if ¬ message.Addressed then .error (.invalidAddress message.address)
      else if message.HoldsNul then .error .interiorNul
      else .ok message.size := by
  have hlength : (evaluate code).bytes.length = 16 + 4 * (code.utf8ByteSize / 4 + 1) := by
    rw [Message.length_bytes, size_evaluate]
  have written (noNul : ¬ HoldsNul code) :
      (evaluate code).encode = .ok (evaluate code).bytes := by
    rw [encode_evaluate, if_neg noNul]
  refine ⟨?_, ?_, ?_, Message.map_length_encode⟩
  · intro nul
    exact send_of_encode_error connected (by rw [encode_evaluate, if_pos nul])
  · intro noNul long
    have tooLong : maxDatagram < (evaluate code).bytes.length := by
      rw [Message.length_bytes, ← Nat.not_le, size_evaluate_le_iff]
      exact Nat.not_lt_of_le long
    rw [send_of_encode_ok connected (written noNul), if_pos tooLong, hlength]
  · intro noNul short
    have fits : ¬ maxDatagram < (evaluate code).bytes.length := by
      rw [Message.length_bytes, Nat.not_lt, size_evaluate_le_iff]
      exact short
    refine ⟨(evaluate code).bytes, written noNul, hlength, by omega, ?_, ?_⟩
    · intro carried
      rw [send_of_encode_ok connected (written noNul), if_neg fits, carried]
    · intro fault refused
      rw [send_of_encode_ok connected (written noNul), if_neg fits, refused]

/-- The longest code that fits, and one letter more. -/
theorem send_evaluate_limit_reached :
    let client : Client := ⟨"127.0.0.1", 57120, some ⟨"127.0.0.1", 57120⟩⟩
    let letters (n : Nat) := String.ofList (List.replicate n 'a')
    (∃ packet, packet.length = 65504 ∧
      client.send .willing (evaluate (letters 65487)) = .ok ⟨⟨"127.0.0.1", 57120⟩, packet⟩) ∧
      client.send .willing (evaluate (letters 65488)) = .error (.payloadTooLarge 65508) := by
  intro client letters
  have size (n : Nat) : (letters n).utf8ByteSize = n := by
    have ascii : ∀ c ∈ List.replicate n 'a', c.toNat < 0x80 := by
      intro c hc
      obtain rfl := List.eq_of_mem_replicate hc
      decide
    rw [← length_utf8Bytes, utf8Bytes, String.toList_ofList, Utf8.length_encode_ascii ascii,
      List.length_replicate]
  have noNul (n : Nat) : ¬ HoldsNul (letters n) := by
    rw [HoldsNul, String.toList_ofList]
    intro nul
    exact absurd (List.eq_of_mem_replicate nul) (by decide)
  have connected : client.peer = some ⟨"127.0.0.1", 57120⟩ := rfl
  obtain ⟨-, -, fits, -⟩ := @send_evaluate_limit .willing client _ connected (letters 65487)
  obtain ⟨-, long, -, -⟩ := @send_evaluate_limit .willing client _ connected (letters 65488)
  refine ⟨?_, ?_⟩
  · obtain ⟨packet, -, hlength, -, sent, -⟩ := fits (noNul _) (by rw [size]; decide)
    rw [size] at hlength
    exact ⟨packet, hlength, sent rfl⟩
  · rw [long (noNul _) (Nat.le_of_eq (size _).symm), size]

end Client

end Osc

end LiveCoding
