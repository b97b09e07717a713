import LiveCoding.Proofs.Osc.Client

/-!
# A client that is asked one thing after the other

A client is connected, disconnected, given other targets and asked to send, in any
order, and the surroundings answer each time as they please.  However this goes, what it
sends goes to the target that it was given last, as one whole datagram or not at all.

## Main Definitions

* `Osc.Client.Request`: what can be asked of a client.
* `Osc.Client.serve`: what becomes of one request.
* `Osc.Client.served`: the client after any number of requests.
* `Osc.Client.Due`: what should become of a request.

## Main Statements

* `Osc.Client.Directed.due`: a client whose socket is directed at its target does what it
  should.
* `Osc.Client.Directed.served`: its socket stays directed there.
* `Osc.Client.served_due`: so every client does what it should, whatever it was asked
  before.

## Design Notes

The network is another one for each request, so that every outcome of every call is
considered.  To have code evaluated and to talk to the sound server are messages like
any other.
-/

namespace LiveCoding

namespace Osc

namespace Client

/-- What can be asked of a client. -/
inductive Request where
  | connect
  | disconnect
  | retarget (host : String) (port : UInt16)
  | send (message : Message)

/-- What a request is answered. -/
inductive Answer where
  | done
  /-- The target is changed; the flag says whether a socket was closed. -/
  | retargeted (closed : Bool)
  | failed (error : Error)
deriving DecidableEq

/-- What became of a request. -/
structure Outcome where
  client : Client
  answer : Answer
  /-- The datagrams handed over. -/
  sent : List Datagram := []

/-- Serves a request.  One that fails leaves the client as it is. -/
def serve (client : Client) (network : Network) : Request → Outcome
  | .connect =>
    match client.connect network with
    | .ok next => { client := next, answer := .done }
    | .error error => { client, answer := .failed error }
  | .disconnect => { client := client.disconnect, answer := .done }
  | .retarget host port =>
    let (next, closed) := client.retarget host port
    { client := next, answer := .retargeted closed }
  | .send message =>
    match client.send network message with
    | .ok datagram => { client, answer := .done, sent := [datagram] }
    | .error error => { client, answer := .failed error }

/-- The client after any number of requests. -/
def served (client : Client) (requests : List (Network × Request)) : Client :=
  requests.foldl (fun client (network, request) => (client.serve network request).client) client

/-! ### What should become of a request -/

/-- The target after a request. -/
def Request.target (target : Endpoint) : Request → Endpoint
  | .retarget host port => ⟨host, port⟩
  | .connect | .disconnect | .send _ => target

/-- The packet of a message goes out: there is a socket, the packet fits into a datagram,
and the network takes it to the target. -/
structure GoesOut (network : Network) (client : Client) (message : Message)
    (packet : List UInt8) : Prop where
  connected : client.isConnected
  encoded : message.encode = .ok packet
  fits : packet.length ≤ maxDatagram
  carried : network.carry client.target packet = .ok ()

/-- What should become of a request.

* Connecting makes a socket for the target, or fails where there was none and leaves the
  client as it was.
* A change of the target closes a socket if the host or the port is another one.
* A message changes nothing about the client.  It is one datagram to the target, or it
  fails and nothing is sent. -/
def Due (network : Network) (client : Client) (outcome : Outcome) : Request → Prop
  | .connect => outcome.sent = [] ∧ outcome.client.target = client.target ∧
    ((outcome.answer = .done ∧ outcome.client.isConnected) ∨
      ∃ error, outcome.answer = .failed error ∧ outcome.client = client ∧ ¬ client.isConnected)
  | .disconnect => outcome.sent = [] ∧ outcome.client.target = client.target ∧
    outcome.answer = .done ∧ ¬ outcome.client.isConnected
  | .retarget host port => outcome.sent = [] ∧ outcome.client.target = ⟨host, port⟩ ∧
    ∃ closed, outcome.answer = .retargeted closed ∧
      (closed = true ↔ client.isConnected ∧ (client.host ≠ host ∨ client.port ≠ port)) ∧
      outcome.client.isConnected = (client.isConnected && !closed)
  | .send message => outcome.client = client ∧
    ((∃ packet, GoesOut network client message packet ∧
        outcome.answer = .done ∧ outcome.sent = [⟨client.target, packet⟩]) ∨
      ((∀ packet, ¬ GoesOut network client message packet) ∧
        (∃ error, outcome.answer = .failed error) ∧ outcome.sent = []))

section One

variable {network : Network} {client : Client} {message : Message} {packet : List UInt8}

/-- A socket that is directed at the target sends there. -/
theorem Directed.send_eq_ok_iff {datagram : Datagram} (directed : client.Directed) :
    client.send network message = .ok datagram ↔
      datagram.peer = client.target ∧ GoesOut network client message datagram.payload := by
  rw [Client.send_eq_ok_iff]
  constructor
  · rintro ⟨peer, encoded, fits, carried⟩
    have aimed : datagram.peer = client.target := directed _ peer
    exact ⟨aimed, isConnected_iff.mpr ⟨_, peer⟩, encoded, fits, aimed ▸ carried⟩
  · rintro ⟨aimed, connected, encoded, fits, carried⟩
    obtain ⟨peer, hpeer⟩ := isConnected_iff.mp connected
    have same : peer = datagram.peer := (directed peer hpeer).trans aimed.symm
    exact ⟨same ▸ hpeer, encoded, fits, aimed ▸ carried⟩

theorem due_connect (network : Network) (client : Client) :
    Due network client (client.serve network .connect) .connect := by
  cases connected : client.connect network with
  | ok next =>
    simp only [serve, connected]
    exact ⟨rfl, target_of_connect connected, Or.inl ⟨rfl, isConnected_of_connect connected⟩⟩
  | error error =>
    simp only [serve, connected]
    exact ⟨rfl, rfl, Or.inr ⟨error, rfl, rfl, (connect_eq_error_iff.mp connected).1⟩⟩

theorem due_retarget (network : Network) (client : Client) (host : String) (port : UInt16) :
    Due network client (client.serve network (.retarget host port)) (.retarget host port) :=
  ⟨rfl, client.target_retarget host port, _, rfl, client.retarget_closed_iff host port,
    client.isConnected_retarget host port⟩

theorem Directed.due_send (directed : client.Directed) (network : Network) (message : Message) :
    Due network client (client.serve network (.send message)) (.send message) := by
  cases sent : client.send network message with
  | ok datagram =>
    obtain ⟨aimed, goesOut⟩ := directed.send_eq_ok_iff.mp sent
    simp only [serve, sent]
    exact ⟨rfl, Or.inl ⟨datagram.payload, goesOut, rfl, by rw [← aimed]⟩⟩
  | error error =>
    have stays : ∀ packet, ¬ GoesOut network client message packet := by
      intro packet goesOut
      have taken : client.send network message = .ok ⟨client.target, packet⟩ :=
        directed.send_eq_ok_iff.mpr ⟨rfl, goesOut⟩
      rw [sent] at taken
      contradiction
    simp only [serve, sent]
    exact ⟨rfl, Or.inr ⟨stays, ⟨error, rfl⟩, rfl⟩⟩

/-- **A client whose socket is directed at its target does what it should.** -/
theorem Directed.due (directed : client.Directed) (network : Network) (request : Request) :
    Due network client (client.serve network request) request := by
  cases request with
  | connect => exact due_connect network client
  | disconnect => exact ⟨rfl, rfl, rfl, Bool.false_ne_true⟩
  | retarget host port => exact due_retarget network client host port
  | send message => exact directed.due_send network message

theorem target_serve (client : Client) (network : Network) (request : Request) :
    (client.serve network request).client.target = request.target client.target := by
  cases request with
  | connect => exact (due_connect network client).2.1
  | disconnect => rfl
  | retarget host port => exact client.target_retarget host port
  | send message =>
    simp only [serve]
    split <;> rfl

/-- No request leaves a socket that is directed elsewhere. -/
theorem Directed.serve (directed : client.Directed) (network : Network) (request : Request) :
    (client.serve network request).client.Directed := by
  cases request with
  | connect =>
    simp only [Client.serve]
    split
    next connected => exact directed.connect connected
    next => exact directed
  | disconnect => exact directed_of_peer_none rfl
  | retarget host port => exact directed.retarget host port
  | send message =>
    simp only [Client.serve]
    split <;> exact directed

end One

/-! ### Any number of requests -/

section Any

variable {client : Client}

theorem Directed.served (directed : client.Directed) (requests : List (Network × Request)) :
    (client.served requests).Directed := by
  induction requests generalizing client with
  | nil => exact directed
  | cons asked requests ih => exact ih (directed.serve asked.1 asked.2)

/-- The target is the last one that was given. -/
theorem target_served (client : Client) (requests : List (Network × Request)) :
    (client.served requests).target =
      requests.foldl (fun target (_, request) => request.target target) client.target := by
  induction requests generalizing client with
  | nil => rfl
  | cons asked requests ih =>
    obtain ⟨network, request⟩ := asked
    rw [List.foldl_cons]
    dsimp only
    rw [← target_serve client network request]
    exact ih _

/-- **Whatever a client was asked before**, a socket is directed at the target that was
given last, and the next request has the outcome that it should have. -/
theorem served_due (host : String) (port : UInt16) (earlier : List (Network × Request))
    (network : Network) (request : Request) :
    (served ⟨host, port, none⟩ earlier).target =
        earlier.foldl (fun target (_, request) => request.target target) ⟨host, port⟩ ∧
      (∀ peer, (served ⟨host, port, none⟩ earlier).peer = some peer →
        peer = (served ⟨host, port, none⟩ earlier).target) ∧
      Due network (served ⟨host, port, none⟩ earlier)
        (serve (served ⟨host, port, none⟩ earlier) network request) request := by
  have start : (Client.mk host port none).Directed := directed_of_peer_none rfl
  have directed := start.served earlier
  exact ⟨target_served _ earlier, directed, directed.due network request⟩

end Any

end Client

end Osc

end LiveCoding
