import LiveCoding.Frame.Relay
import Mathlib.Data.List.Basic
import Mathlib.Tactic.Common

/-!
# What passes a relay

A relay looks for frames in what it passes on, and the scanner that does so gives up
bytes, reports errors and starts anew.  None of that reaches the bytes on their way.
What the writer gets is said here of the reads and the writer alone: the pieces that
were read, in their order, up to the end of the input or the first piece that the
writer does not pass on.

## Main Definitions

* `Relay.pieces`, `Relay.inputEnd`: what is read, and how reading ends.
* `Relay.Writer.Passes`, `Relay.Writer.Stops`: what a writer does with a piece.
* `Relay.Delivery`: what becomes of pieces that go to a writer one after the other.

## Main Statements

* `Relay.Delivery.unique`: the pieces, the end of the input and the writer settle what
  is written, what is counted and how the relay ends.
* `Relay.delivery_pump`: a pump delivers what is read, whatever its scanner holds.
* `Relay.pump_transparent`: both, for a pump from its start.
* `Relay.bridge_forwards`: the two directions of a bridge.

## Design Notes

The proofs go along the reads with the list of all pieces behind.  The bytes of those
pieces are what has been written, and how many they are is what has been counted.
-/

namespace LiveCoding

namespace Relay

/-! ### What is read -/

/-- The pieces that are read before the input ends or breaks. -/
def pieces : List Event → List (List UInt8)
  | [] | .bytes [] :: _ | .failed _ :: _ => []
  | .interrupted :: rest => pieces rest
  | .bytes piece :: rest => piece :: pieces rest

/-- How the input ends. -/
def inputEnd : List Event → Except Fault Unit
  | [] | .bytes [] :: _ => .ok ()
  | .failed fault :: _ => .error fault
  | .interrupted :: rest | .bytes _ :: rest => inputEnd rest

/-! ### What a writer does with a piece -/

/-- After so many bytes, the writer takes a piece and passes it on. -/
def Writer.Passes (writer : Writer) (count : Nat) (piece : List UInt8) : Prop :=
  writer.take count piece = .ok () ∧ writer.flush count piece = .ok ()

/-- After so many bytes, the writer takes none of a piece, or takes it and does not
pass it on. -/
inductive Writer.Stops (writer : Writer) (count : Nat) (piece : List UInt8) :
    List UInt8 → Fault → Prop
  | refused {fault : Fault} (refuses : writer.take count piece = .error fault) :
      Stops writer count piece [] fault
  | stuck {fault : Fault} (takes : writer.take count piece = .ok ())
      (sticks : writer.flush count piece = .error fault) :
      Stops writer count piece piece fault

/-- The writer passes on every piece. -/
def Writer.PassesAll (writer : Writer) (pieces : List (List UInt8)) : Prop :=
  ∀ front piece back, pieces = front ++ piece :: back → writer.Passes front.flatten.length piece

/-- What becomes of pieces that go to a writer one after the other: what is written,
how many bytes are counted, and how it ends, where `ended` is how the input does. -/
inductive Delivery (writer : Writer) (ended : Except Fault Unit) :
    List (List UInt8) → List UInt8 → Nat → Except Fault Unit → Prop
  /-- Every piece is passed on. -/
  | whole {pieces : List (List UInt8)} (passed : writer.PassesAll pieces) :
      Delivery writer ended pieces pieces.flatten pieces.flatten.length ended
  /-- A piece stops the relay.  Those in front of it are passed on, and only they
  count. -/
  | stopped {front later : List (List UInt8)} {piece taken : List UInt8} {fault : Fault}
      (passed : writer.PassesAll front)
      (stops : writer.Stops front.flatten.length piece taken fault) :
      Delivery writer ended (front ++ piece :: later) (front.flatten ++ taken)
        front.flatten.length (.error fault)

namespace Writer

variable {writer : Writer} {count : Nat} {piece : List UInt8}

theorem passes_or_stops (writer : Writer) (count : Nat) (piece : List UInt8) :
    writer.Passes count piece ∨ ∃ taken fault, writer.Stops count piece taken fault := by
  cases takes : writer.take count piece with
  | error fault => exact Or.inr ⟨[], fault, .refused takes⟩
  | ok =>
    cases passes : writer.flush count piece with
    | error fault => exact Or.inr ⟨piece, fault, .stuck takes passes⟩
    | ok => exact Or.inl ⟨takes, passes⟩

theorem Stops.not_passes {taken : List UInt8} {fault : Fault}
    (h : writer.Stops count piece taken fault) : ¬ writer.Passes count piece := by
  rintro ⟨takes, passes⟩
  cases h with
  | refused refuses => simp [refuses] at takes
  | stuck takes sticks => simp [sticks] at passes

theorem Stops.unique {taken taken' : List UInt8} {fault fault' : Fault}
    (h : writer.Stops count piece taken fault) (h' : writer.Stops count piece taken' fault') :
    taken = taken' ∧ fault = fault' := by
  cases h with
  | refused refuses =>
    cases h' with
    | refused refuses' => simpa [refuses] using refuses'
    | stuck takes' => simp [refuses] at takes'
  | stuck takes sticks =>
    cases h' with
    | refused refuses' => simp [takes] at refuses'
    | stuck takes' sticks' => simpa [sticks] using sticks'

theorem Stops.prefix {taken : List UInt8} {fault : Fault}
    (h : writer.Stops count piece taken fault) : taken <+: piece := by
  cases h with
  | refused => exact List.nil_prefix
  | stuck => exact List.prefix_rfl

theorem passesAll_nil (writer : Writer) : writer.PassesAll [] := by
  intro front piece back h
  simp at h

theorem PassesAll.concat {behind : List (List UInt8)} (passed : writer.PassesAll behind)
    (passes : writer.Passes behind.flatten.length piece) :
    writer.PassesAll (behind ++ [piece]) := by
  intro front piece' back h
  rcases List.eq_nil_or_concat back with rfl | ⟨back, last, rfl⟩
  · obtain ⟨rfl, rfl⟩ := List.append_singleton_inj.mp h
    exact passes
  · have h' : behind ++ [piece] = front ++ piece' :: back ++ [last] := by simpa using h
    exact passed front piece' back (List.append_singleton_inj.mp h').1

/-- What is passed on does not reach past a piece that is not. -/
theorem PassesAll.eq_nil_of_stops {front more later later' : List (List UInt8)}
    {piece' : List UInt8} (passed : writer.PassesAll (front ++ more))
    (stops : ¬ writer.Passes front.flatten.length piece)
    (h : piece :: later = more ++ piece' :: later') : more = [] := by
  cases more with
  | nil => rfl
  | cons first more =>
    obtain ⟨rfl, -⟩ := List.cons.inj h
    exact absurd (passed front piece more rfl) stops

/-- Where the first piece stands that is not passed on, if there is one. -/
theorem PassesAll.front_unique {front front' later later' : List (List UInt8)}
    {piece' : List UInt8} (passed : writer.PassesAll front)
    (stops : ¬ writer.Passes front.flatten.length piece) (passed' : writer.PassesAll front')
    (stops' : ¬ writer.Passes front'.flatten.length piece')
    (h : front ++ piece :: later = front' ++ piece' :: later') :
    front = front' ∧ piece = piece' := by
  rcases List.append_eq_append_iff.mp h with ⟨more, rfl, hmore⟩ | ⟨more, rfl, hmore⟩
  · obtain rfl := passed'.eq_nil_of_stops stops hmore
    exact ⟨(List.append_nil _).symm, (List.cons.inj hmore).1⟩
  · obtain rfl := passed.eq_nil_of_stops stops' hmore
    exact ⟨List.append_nil _, (List.cons.inj hmore).1.symm⟩

end Writer

namespace Delivery

variable {writer : Writer} {ended ending ending' : Except Fault Unit}
  {read : List (List UInt8)} {written written' : List UInt8} {count count' : Nat}

/-- Where the input ends, all pieces behind have been passed on. -/
theorem of_passed (passed : writer.PassesAll read) (hwritten : written = read.flatten)
    (hcount : count = read.flatten.length) :
    Delivery writer ended (read ++ []) written count ended := by
  rw [hwritten, hcount, List.append_nil]
  exact .whole passed

/-- All ends well if and only if the input does and every piece is passed on. -/
theorem eq_ok_iff (h : Delivery writer ended read written count ending) :
    ending = .ok () ↔ ended = .ok () ∧ writer.PassesAll read := by
  cases h with
  | whole passed => exact ⟨fun h => ⟨h, passed⟩, And.left⟩
  | stopped passed stops =>
    constructor
    · intro h
      contradiction
    · rintro ⟨-, all⟩
      exact absurd (all _ _ _ rfl) stops.not_passes

/-- Nothing is added, left out on the way or put in another order. -/
theorem written_prefix (h : Delivery writer ended read written count ending) :
    written <+: read.flatten := by
  cases h with
  | whole => exact List.prefix_rfl
  | stopped passed stops =>
    obtain ⟨left, rfl⟩ := stops.prefix
    simp

/-- What is written when all ends well. -/
theorem of_eq_ok (h : Delivery writer ended read written count (.ok ())) :
    written = read.flatten ∧ count = read.flatten.length := by
  cases h with
  | whole => exact ⟨rfl, rfl⟩

/-- **Nothing but the pieces, the end of the input and the writer** settles what is
written, what is counted and how the relay ends. -/
theorem unique (h : Delivery writer ended read written count ending)
    (h' : Delivery writer ended read written' count' ending') :
    written = written' ∧ count = count' ∧ ending = ending' := by
  generalize hread : read = same at h'
  cases h with
  | whole passed =>
    cases h' with
    | whole => simp [hread]
    | stopped passed' stops' => exact absurd (passed _ _ _ hread) stops'.not_passes
  | stopped passed stops =>
    cases h' with
    | whole passed' => exact absurd (passed' _ _ _ hread.symm) stops.not_passes
    | stopped passed' stops' =>
      obtain ⟨rfl, rfl⟩ :=
        passed.front_unique stops.not_passes passed' stops'.not_passes hread
      obtain ⟨rfl, rfl⟩ := stops.unique stops'
      exact ⟨rfl, rfl, rfl⟩

end Delivery

/-! ### Along the reads -/

section Pump

variable {writer : Writer} {flow : Flow} {piece : List UInt8}

theorem forward_of_passes (passes : writer.Passes flow.count piece) :
    ∃ flow', flow.forward writer piece = (flow', .ok ()) ∧
      flow'.written = flow.written ++ piece ∧ flow'.count = flow.count + piece.length := by
  obtain ⟨takes, passes⟩ := passes
  refine ⟨(flow.forward writer piece).1, ?_⟩
  simp [Flow.forward, takes, passes]

theorem forward_of_stops {taken : List UInt8} {fault : Fault}
    (stops : writer.Stops flow.count piece taken fault) :
    ∃ flow', flow.forward writer piece = (flow', .error fault) ∧
      flow'.written = flow.written ++ taken ∧ flow'.count = flow.count := by
  refine ⟨(flow.forward writer piece).1, ?_⟩
  cases stops with
  | refused refuses => simp [Flow.forward, refuses]
  | stuck takes sticks => simp [Flow.forward, takes, sticks]

theorem pump_bytes (writer : Writer) (flow : Flow) (b : UInt8) (piece : List UInt8)
    (rest : List Event) :
    pump writer flow (.bytes (b :: piece) :: rest) =
      match flow.forward writer (b :: piece) with
      | (flow, .error fault) => (flow, .error fault)
      | (flow, .ok ()) => pump writer flow rest := rfl

/-- An attempt that is repeated loses nothing and repeats nothing. -/
theorem pump_filter_interrupted (writer : Writer) (flow : Flow) (events : List Event) :
    pump writer flow (events.filter (· ≠ .interrupted)) = pump writer flow events := by
  induction events generalizing flow with
  | nil => rfl
  | cons event rest ih =>
    cases event with
    | interrupted => exact ih flow
    | failed fault => rfl
    | bytes piece =>
      cases piece with
      | nil => rfl
      | cons b piece =>
        have kept : (Event.bytes (b :: piece) :: rest).filter (· ≠ .interrupted) =
            .bytes (b :: piece) :: rest.filter (· ≠ .interrupted) := rfl
        rw [kept, pump_bytes, pump_bytes]
        split
        · rfl
        · exact ih _

/-- **A pump delivers what is read** behind what it has delivered, whatever its scanner
holds. -/
theorem delivery_pump (events : List Event) {behind : List (List UInt8)}
    (passed : writer.PassesAll behind) (hwritten : flow.written = behind.flatten)
    (hcount : flow.count = behind.flatten.length) :
    Delivery writer (inputEnd events) (behind ++ pieces events)
      (pump writer flow events).1.written (pump writer flow events).1.count
      (pump writer flow events).2 := by
  induction events generalizing flow behind with
  | nil => exact .of_passed passed hwritten hcount
  | cons event rest ih =>
    cases event with
    | interrupted => exact ih passed hwritten hcount
    | failed fault => exact .of_passed passed hwritten hcount
    | bytes piece =>
      cases piece with
      | nil => exact .of_passed passed hwritten hcount
      | cons b piece =>
        rw [pump_bytes]
        rcases writer.passes_or_stops flow.count (b :: piece) with
          passes | ⟨taken, fault, stops⟩
        · obtain ⟨flow', hforward, hwritten', hcount'⟩ := forward_of_passes passes
          rw [hcount] at passes
          have written : flow'.written = (behind ++ [b :: piece]).flatten := by
            simp [hwritten', hwritten]
          have counted : flow'.count = (behind ++ [b :: piece]).flatten.length := by
            simp [hcount', hcount]
          have more := ih (passed.concat passes) written counted
          rw [hforward]
          simpa [pieces, inputEnd] using more
        · obtain ⟨flow', hforward, hwritten', hcount'⟩ := forward_of_stops stops
          rw [hcount] at stops
          rw [hforward]
          dsimp only
          rw [hwritten', hcount', hwritten, hcount]
          exact .stopped passed stops

/-- **A pump is transparent.**  What is written, what is counted and how it ends come
of the pieces that are read, the end of the input and the writer (`Delivery`), and of
nothing else: attempts that are repeated do not show, and neither does what the
scanner holds at the start or finds on the way.  All ends well exactly if the input
does and every piece is passed on. -/
theorem pump_transparent (writer : Writer) (events : List Event) :
    let (flow, ending) := pump writer {} events
    Delivery writer (inputEnd events) (pieces events) flow.written flow.count ending ∧
      (ending = .ok () ↔ inputEnd events = .ok () ∧ writer.PassesAll (pieces events)) ∧
      pump writer {} (events.filter (· ≠ .interrupted)) = (flow, ending) ∧
      ∀ scanner reports,
        let (flow', ending') := pump writer { scanner, reports } events
        flow'.written = flow.written ∧ flow'.count = flow.count ∧ ending' = ending := by
  have delivered : ∀ scanner reports,
      Delivery writer (inputEnd events) (pieces events)
        (pump writer { scanner, reports } events).1.written
        (pump writer { scanner, reports } events).1.count
        (pump writer { scanner, reports } events).2 := fun scanner reports =>
    delivery_pump events writer.passesAll_nil rfl rfl
  have fresh := delivered .start []
  exact ⟨fresh, fresh.eq_ok_iff, pump_filter_interrupted writer {} events,
    fun scanner reports => (delivered scanner reports).unique fresh⟩

end Pump

/-! ### Both directions -/

/-- The reads that it takes to read some bytes: all of them, to the end. -/
theorem pieces_reads (bytes : List UInt8) :
    (pieces (reads bytes)).flatten = bytes ∧ inputEnd (reads bytes) = .ok () := by
  fun_induction reads bytes with
  | case1 => exact ⟨rfl, rfl⟩
  | case2 first rest ih =>
    obtain ⟨hpieces, hend⟩ := ih
    refine ⟨?_, hend⟩
    simp [pieces, hpieces]

theorem Writer.open_passesAll (pieces : List (List UInt8)) : Writer.open.PassesAll pieces :=
  fun _ _ _ _ => ⟨rfl, rfl⟩

/-- **A bridge passes on the whole input**, and of the answer a front, which is the
whole of it if the bridge ends well. -/
theorem bridge_forwards (answer : List UInt8) (input : Option (List UInt8)) (output : Writer) :
    let passage := bridge answer input output
    passage.toServer.written = input.getD [] ∧
      passage.toServer.count = (input.getD []).length ∧
      passage.toClient.written <+: answer ∧
      (passage.ending = .ok () →
        passage.toClient.written = answer ∧ passage.toClient.count = answer.length) := by
  have delivered : ∀ (writer : Writer) (bytes : List UInt8),
      Delivery writer (.ok ()) (pieces (reads bytes)) (pump writer {} (reads bytes)).1.written
        (pump writer {} (reads bytes)).1.count (pump writer {} (reads bytes)).2 := by
    intro writer bytes
    rw [← (pieces_reads bytes).2]
    exact delivery_pump _ writer.passesAll_nil rfl rfl
  have toServer := delivered .open (input.getD [])
  have toClient := delivered output answer
  rw [toServer.eq_ok_iff.mpr ⟨rfl, Writer.open_passesAll _⟩] at toServer
  obtain ⟨hwritten, hcount⟩ := toServer.of_eq_ok
  rw [(pieces_reads _).1] at hwritten hcount
  have front := toClient.written_prefix
  rw [(pieces_reads answer).1] at front
  refine ⟨hwritten, hcount, front, fun well => ?_⟩
  have well : (pump output {} (reads answer)).2 = .ok () := well
  rw [well] at toClient
  obtain ⟨hwritten', hcount'⟩ := toClient.of_eq_ok
  rw [(pieces_reads answer).1] at hwritten' hcount'
  exact ⟨hwritten', hcount'⟩

end Relay

end LiveCoding
