import LiveCoding.Osc.Client

/-!
# What a client sends, and where to

A socket is directed once, at the target that the client has then.  Every change of
the target closes a socket that is directed elsewhere, so a socket is always directed
at the present target.  A message is handed over as one datagram or not at all.

## Main Definitions

* `Network.Delivers`: every packet that fits into a datagram is taken.
* `Osc.Client.Directed`: a socket, if there is one, is directed at the target.
* `Osc.Error.IsRefusal`: a message is refused before it comes to the socket.

## Main Statements

* `Osc.Client.connect_eq_ok_iff`, `Osc.Client.connect_eq_error_iff`: what comes of
  connecting.
* `Osc.Client.send_eq_ok_iff`, `Osc.Client.send_eq_error`: what comes of sending.
-/

namespace LiveCoding

/-- A network that takes every packet that fits into a datagram. -/
def Network.Delivers (network : Network) : Prop :=
  ∀ (peer : Endpoint) (packet : List UInt8), packet.length ≤ Osc.maxDatagram →
    network.carry peer packet = .ok ()

/-- A network that takes whatever it is given. -/
def Network.willing : Network where
  reach _ _ := .ok ()
  carry _ _ := .ok ()
  answer _ := []

theorem Network.delivers_willing : Network.willing.Delivers :=
  fun _ _ _ => rfl

namespace Osc

/-- A message that is refused before it comes to the socket: it cannot be written, or
what is written is too long. -/
def Error.IsRefusal : Error → Prop
  | .invalidAddress _ | .interiorNul | .payloadTooLarge _ => True
  | _ => False

namespace Client

/-- A socket, if there is one, is directed at the target. -/
def Directed (client : Client) : Prop :=
  ∀ peer ∈ client.peer, peer = client.target

variable {network : Network} {client next : Client}

theorem isConnected_iff : client.isConnected ↔ ∃ peer, client.peer = some peer :=
  Option.isSome_iff_exists

/-- A socket that is there is kept; a new one is directed at the target. -/
theorem connect_eq_ok_iff : client.connect network = .ok next ↔
    client.isConnected ∧ next = client ∨
      ¬ client.isConnected ∧ network.reach .datagram client.target = .ok () ∧
        next = { client with peer := some client.target } := by
  unfold connect
  by_cases connected : client.isConnected
  · rw [if_pos connected]
    simp [connected, eq_comm]
  · rw [if_neg connected]
    cases reached : network.reach .datagram client.target with
    | error fault => simp [connected]
    | ok _ => simp [connected, eq_comm]

/-- Without a socket it is up to the network. -/
theorem connect_eq_error_iff {error : Error} : client.connect network = .error error ↔
    ¬ client.isConnected ∧
      ∃ fault, network.reach .datagram client.target = .error fault ∧ error = .socket fault := by
  unfold connect
  by_cases connected : client.isConnected
  · rw [if_pos connected]
    simp [connected]
  · rw [if_neg connected]
    cases reached : network.reach .datagram client.target with
    | error fault => simp [connected, eq_comm]
    | ok _ => simp [connected]

theorem isConnected_of_connect (h : client.connect network = .ok next) : next.isConnected := by
  rcases connect_eq_ok_iff.mp h with ⟨connected, rfl⟩ | ⟨-, -, rfl⟩
  · exact connected
  · rfl

theorem target_of_connect (h : client.connect network = .ok next) :
    next.target = client.target := by
  rcases connect_eq_ok_iff.mp h with ⟨-, rfl⟩ | ⟨-, -, rfl⟩ <;> rfl

theorem Directed.connect (directed : client.Directed) (h : client.connect network = .ok next) :
    next.Directed := by
  rcases connect_eq_ok_iff.mp h with ⟨-, rfl⟩ | ⟨-, -, rfl⟩
  · exact directed
  · rintro peer hpeer
    exact (Option.some.inj hpeer).symm

theorem directed_of_peer_none (h : client.peer = none) : client.Directed := by
  rintro peer hpeer
  rw [h] at hpeer
  contradiction

/-- A socket that is directed elsewhere does not survive. -/
theorem Directed.retarget (directed : client.Directed) (host : String) (port : UInt16) :
    (client.retarget host port).1.Directed := by
  simp only [Client.retarget]
  split
  · exact directed_of_peer_none rfl
  next kept =>
    rintro peer hpeer
    have connected : client.isConnected := Option.isSome_iff_exists.mpr ⟨peer, hpeer⟩
    have same : client.host = host ∧ client.port = port := by simpa [connected] using kept
    rw [directed peer hpeer, target, target, same.1, same.2]

theorem target_retarget (client : Client) (host : String) (port : UInt16) :
    (client.retarget host port).1.target = ⟨host, port⟩ := by
  simp only [Client.retarget]
  split <;> rfl

/-- A socket is closed if it is directed elsewhere, and only then. -/
theorem retarget_closed_iff (client : Client) (host : String) (port : UInt16) :
    (client.retarget host port).2 = true ↔
      client.isConnected ∧ (client.host ≠ host ∨ client.port ≠ port) := by
  simp only [Client.retarget]
  split
  next closed => simpa [and_comm] using closed
  next kept => simpa [and_comm] using kept

theorem isConnected_retarget (client : Client) (host : String) (port : UInt16) :
    (client.retarget host port).1.isConnected =
      (client.isConnected && !(client.retarget host port).2) := by
  simp only [Client.retarget]
  split
  · exact (Bool.and_false _).symm
  · exact (Bool.and_true _).symm

/-- A socket is kept if it is directed where it should be, and none is made. -/
theorem isConnected_retarget_iff (client : Client) (host : String) (port : UInt16) :
    (client.retarget host port).1.isConnected ↔
      client.isConnected ∧ client.host = host ∧ client.port = port := by
  have closed := client.retarget_closed_iff host port
  rw [isConnected_retarget, Bool.and_eq_true, Bool.not_eq_true', ← Bool.not_eq_true, closed,
    not_and, not_or, Decidable.not_not, Decidable.not_not]
  exact and_congr_right fun connected => forall_prop_of_true connected

/-- A socket is closed if there was one and there is none any more. -/
theorem retarget_closed_iff_not_isConnected (client : Client) (host : String) (port : UInt16) :
    (client.retarget host port).2 = true ↔
      client.isConnected ∧ ¬ (client.retarget host port).1.isConnected := by
  rw [isConnected_retarget_iff, retarget_closed_iff]
  refine and_congr_right fun connected => ?_
  rw [and_iff_right connected, Decidable.not_and_iff_not_or_not]

/-- A socket that is kept is left alone. -/
theorem peer_retarget {host : String} {port : UInt16}
    (h : (client.retarget host port).1.isConnected) :
    (client.retarget host port).1.peer = client.peer := by
  simp only [Client.retarget] at h ⊢
  split at h
  · contradiction
  next kept => rw [if_neg kept]

/-! ### Sending -/

section Send

variable {message : Message} {packet : List UInt8} {datagram : Datagram} {peer : Endpoint}
variable {error : Error}

theorem send_of_peer_none (h : client.peer = none) :
    client.send network message = .error .notConnected := by
  rw [send, h]

theorem send_of_encode_error (hpeer : client.peer = some peer)
    (h : message.encode = .error error) : client.send network message = .error error := by
  rw [send, hpeer]
  simp only [h, bind, Except.bind]

/-- A packet is handed over if it fits and the network takes it. -/
theorem send_of_encode_ok (hpeer : client.peer = some peer) (h : message.encode = .ok packet) :
    client.send network message =
      if maxDatagram < packet.length then .error (.payloadTooLarge packet.length)
      else
        match network.carry peer packet with
        | .error fault => .error (.socket fault)
        | .ok () => .ok ⟨peer, packet⟩ := by
  rw [send, hpeer]
  simp only [h, bind, Except.bind]
  split
  · rfl
  · cases network.carry peer packet <;> rfl

/-- **What is handed over** is the packet of the message, in one datagram, to where the
socket is directed. -/
theorem send_eq_ok_iff : client.send network message = .ok datagram ↔
    client.peer = some datagram.peer ∧ message.encode = .ok datagram.payload ∧
      datagram.payload.length ≤ maxDatagram ∧
      network.carry datagram.peer datagram.payload = .ok () := by
  constructor
  · intro h
    cases hpeer : client.peer with
    | none =>
      rw [send_of_peer_none hpeer] at h
      contradiction
    | some peer =>
      cases hencode : message.encode with
      | error error =>
        rw [send_of_encode_error hpeer hencode] at h
        contradiction
      | ok packet =>
        rw [send_of_encode_ok hpeer hencode] at h
        split at h
        · contradiction
        next fits =>
          split at h
          · contradiction
          next carried =>
            obtain rfl := Except.ok.inj h
            exact ⟨rfl, rfl, Nat.le_of_not_lt fits, carried⟩
  · rintro ⟨hpeer, hencode, fits, carried⟩
    rw [send_of_encode_ok hpeer hencode, if_neg (Nat.not_lt_of_le fits), carried]

/-- **What keeps a message from being handed over**, if there is a socket: it is refused,
or the network does not take its packet. -/
theorem send_eq_error (connected : client.isConnected)
    (h : client.send network message = .error error) :
    message.encode = .error error ∨
      (∃ packet, message.encode = .ok packet ∧ maxDatagram < packet.length ∧
        error = .payloadTooLarge packet.length) ∨
      ∃ peer packet fault, message.encode = .ok packet ∧ packet.length ≤ maxDatagram ∧
        network.carry peer packet = .error fault ∧ error = .socket fault := by
  obtain ⟨peer, hpeer⟩ := isConnected_iff.mp connected
  cases hencode : message.encode with
  | error refused =>
    rw [send_of_encode_error hpeer hencode] at h
    exact Or.inl (congrArg Except.error (Except.error.inj h))
  | ok packet =>
    rw [send_of_encode_ok hpeer hencode] at h
    split at h
    next long => exact Or.inr (Or.inl ⟨packet, rfl, long, (Except.error.inj h).symm⟩)
    next fits =>
      split at h
      next fault refused =>
        exact Or.inr (Or.inr ⟨peer, packet, fault, rfl, Nat.le_of_not_lt fits, refused,
          (Except.error.inj h).symm⟩)
      next => contradiction

end Send

end Client

end Osc

end LiveCoding
