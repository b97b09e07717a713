import LiveCoding.Osc.Packet
import LiveCoding.Proofs.Text.Utf8

/-!
# OSC packets written

What stands in a packet is said here without the ways in which writing one can fail:
`Message.bytes` is the packet of any message, and `Message.encode` refuses exactly
the messages whose address does not start with a slash or that hold a NUL, and
gives that packet for all others.

## Main Definitions

* `Osc.Arg.bytes`, `Osc.Message.bytes`: what an argument and a message come to.
* `Osc.Message.Addressed`, `Osc.Message.HoldsNul`: the two conditions of the writer.

## Main Statements

* `Osc.Message.encode_eq`: the writer in closed form.
* `Osc.encode_evaluate`: what it makes of code.
-/

namespace LiveCoding

namespace Osc

/-- A text with a NUL, where its receiver would take it to end. -/
def HoldsNul (s : String) : Prop :=
  '\x00' ∈ s.toList

instance (s : String) : Decidable (HoldsNul s) :=
  inferInstanceAs (Decidable ('\x00' ∈ s.toList))

/-- An argument that is a text with a NUL. -/
def Arg.HoldsNul : Arg → Prop
  | .text s => Osc.HoldsNul s
  | _ => False

instance : DecidablePred Arg.HoldsNul
  | .int _ => inferInstanceAs (Decidable False)
  | .float _ => inferInstanceAs (Decidable False)
  | .text s => inferInstanceAs (Decidable (Osc.HoldsNul s))

/-- A message with a NUL in its address or in an argument. -/
def Message.HoldsNul (message : Message) : Prop :=
  Osc.HoldsNul message.address ∨ ∃ arg ∈ message.args, arg.HoldsNul

instance (message : Message) : Decidable message.HoldsNul :=
  inferInstanceAs (Decidable (_ ∨ _))

/-- A message whose address starts with a slash. -/
def Message.Addressed (message : Message) : Prop :=
  message.address.toList.head? = some '/'

instance (message : Message) : Decidable message.Addressed :=
  inferInstanceAs (Decidable (_ = _))

/-- The bytes of an argument. -/
def Arg.bytes : Arg → List UInt8
  | .int value => wordBytes value.toUInt32
  | .float bits => wordBytes bits
  | .text s => paddedBytes (utf8Bytes s)

/-- The bytes of a message: its address, its type tags and its arguments. -/
def Message.bytes (message : Message) : List UInt8 :=
  paddedBytes (utf8Bytes message.address) ++ paddedBytes (utf8Bytes (tagText message.args)) ++
    message.args.flatMap Arg.bytes

/-! ### The writer in closed form -/

/-- A text is known to hold a NUL by its bytes. -/
theorem zero_mem_utf8Bytes (s : String) : 0 ∈ utf8Bytes s ↔ HoldsNul s :=
  Utf8.mem_encode_ascii (c := '\x00') (by decide) s.toList

theorem encodeText_eq (s : String) :
    encodeText s =
      if HoldsNul s then .error .interiorNul else .ok (paddedBytes (utf8Bytes s)) := by
  simp only [encodeText, List.contains_iff_mem, zero_mem_utf8Bytes]

theorem Arg.encode_eq (arg : Arg) :
    arg.encode = if arg.HoldsNul then .error .interiorNul else .ok arg.bytes := by
  cases arg with
  | int value => rfl
  | float bits => rfl
  | text s => exact encodeText_eq s

theorem encodeArgs_eq (args : List Arg) :
    encodeArgs args =
      if ∃ arg ∈ args, arg.HoldsNul then .error .interiorNul
      else .ok (args.flatMap Arg.bytes) := by
  induction args with
  | nil => simp [encodeArgs]
  | cons arg rest ih =>
    rw [encodeArgs, ih, Arg.encode_eq, List.flatMap_cons]
    simp only [List.mem_cons, exists_eq_or_imp]
    by_cases first : arg.HoldsNul
    · rw [if_pos first, if_pos (Or.inl first)]
      rfl
    by_cases later : ∃ other ∈ rest, other.HoldsNul
    · rw [if_neg first, if_pos later, if_pos (Or.inr later)]
      rfl
    · rw [if_neg first, if_neg later, if_neg (not_or.mpr ⟨first, later⟩)]
      rfl

/-- The type tags are ASCII letters behind a comma. -/
theorem not_holdsNul_tagText (args : List Arg) : ¬ HoldsNul (tagText args) := by
  intro nul
  rw [HoldsNul, tagText, String.toList_ofList] at nul
  rcases List.mem_cons.mp nul with comma | nul
  · exact absurd comma (by decide)
  · obtain ⟨arg, -, htag⟩ := List.mem_map.mp nul
    cases arg <;> simp [Arg.tag] at htag

/-- **The writer in closed form**: the two refusals come in this order, and the
packet of every other message is `Message.bytes`. -/
theorem Message.encode_eq (message : Message) :
    message.encode =
      if ¬ message.Addressed then .error (.invalidAddress message.address)
      else if message.HoldsNul then .error .interiorNul
      else .ok message.bytes := by
  unfold Message.encode
  rw [encodeText_eq, encodeText_eq, encodeArgs_eq, if_neg (not_holdsNul_tagText _)]
  -- the address is looked at before anything is written
  by_cases addressed : message.Addressed
  · have head : message.address.toList.head? = some '/' := addressed
    rw [if_neg (not_not_intro addressed)]
    by_cases inAddress : Osc.HoldsNul message.address
    · have nul : message.HoldsNul := Or.inl inAddress
      rw [if_pos inAddress, if_pos nul]
      simp [head, bind, Except.bind]
    by_cases inArgs : ∃ arg ∈ message.args, arg.HoldsNul
    · have nul : message.HoldsNul := Or.inr inArgs
      rw [if_neg inAddress, if_pos inArgs, if_pos nul]
      simp [head, bind, Except.bind]
    · have nowhere : ¬ message.HoldsNul := not_or.mpr ⟨inAddress, inArgs⟩
      rw [if_neg inAddress, if_neg inArgs, if_neg nowhere]
      simp [head, bind, Except.bind, pure, Except.pure, Message.bytes]
  · have head : message.address.toList.head? ≠ some '/' := addressed
    rw [if_pos addressed]
    simp [head, bind, Except.bind, throw, throwThe, MonadExceptOf.throw]

/-- The message that has code evaluated is refused only for a NUL in the code. -/
theorem encode_evaluate (code : String) : (evaluate code).encode =
    if HoldsNul code then .error .interiorNul else .ok (evaluate code).bytes := by
  have addressed : (evaluate code).Addressed := by
    show "/interpret".toList.head? = some '/'
    decide
  have holdsNul : (evaluate code).HoldsNul ↔ HoldsNul code := by
    have address : ¬ HoldsNul "/interpret" := by decide
    simp [Message.HoldsNul, evaluate, address, Arg.HoldsNul]
  rw [Message.encode_eq, if_neg (not_not_intro addressed)]
  exact ite_congr (propext holdsNul) (fun _ => rfl) (fun _ => rfl)

end Osc

end LiveCoding
