import LiveCoding.Network
import LiveCoding.Osc.Packet

/-!
# The OSC client

The client remembers where the interpreter listens and, while it is connected,
where its socket is directed.  The direction is fixed when the socket is made, so
a new host or port takes effect only after the next connection; changing them
therefore drops a connection that no longer fits.

## Main Definitions

* `Osc.Client`: host, port, and the peer of the socket if there is one.
* `Osc.Client.connect`, `disconnect`, `retarget`: the life of the connection.
* `Osc.Client.send`: the datagram that a message becomes.

## Design Notes

Sending changes nothing about the client, so `send` returns the datagram it
emitted and no new client; a failed `send` emitted none.
-/

namespace LiveCoding

namespace Osc

/-- The most bytes that fit into one datagram over IPv4. -/
def maxDatagram : Nat := 65507

/-- A client of an interpreter. -/
structure Client where
  host : String
  port : UInt16
  /-- Where the socket is directed, while there is one. -/
  peer : Option Endpoint := none
deriving DecidableEq, Repr

namespace Client

/-- Whether there is a socket. -/
def isConnected (client : Client) : Bool :=
  client.peer.isSome

/-- Where the interpreter listens. -/
def target (client : Client) : Endpoint :=
  ⟨client.host, client.port⟩

/-- Directs a socket at the target, unless there is one already.  No packet is
exchanged, so nobody need be listening there. -/
def connect (network : Network) (client : Client) : Except Error Client :=
  if client.isConnected then .ok client
  else
    match network.reach .datagram client.target with
    | .error fault => .error (.socket fault)
    | .ok () => .ok { client with peer := some client.target }

/-- Closes the socket. -/
def disconnect (client : Client) : Client :=
  { client with peer := none }

/-- Changes the target and closes a socket that is directed elsewhere.  The flag
says whether one was closed. -/
def retarget (client : Client) (host : String) (port : UInt16) : Client × Bool :=
  let changed := client.host != host || client.port != port
  let moved := { client with host, port }
  if changed && client.isConnected then (moved.disconnect, true) else (moved, false)

/-- The datagram of a message, once it is handed over. -/
def send (network : Network) (client : Client) (message : Message) : Except Error Datagram :=
  match client.peer with
  | none => .error .notConnected
  | some peer => do
    let packet ← message.encode
    if packet.length > maxDatagram then throw (.payloadTooLarge packet.length)
    match network.carry peer packet with
    | .error fault => throw (.socket fault)
    | .ok () => return ⟨peer, packet⟩

end Client

end Osc

end LiveCoding
