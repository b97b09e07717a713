import LiveCoding.Fault
import LiveCoding.Text.Quoted

/-!
# OSC messages

The interpreter takes Open Sound Control messages: an address and a list of
arguments, each a 32-bit integer, a 32-bit float or a text.  Floats are kept as
their bits, so that every float survives a journey unchanged.

## Main Definitions

* `Osc.Message`, `Osc.Arg`: what is sent.
* `Osc.Error`: why nothing was sent, or a packet was not understood.
* `Osc.evaluate`, `Osc.command`: the two messages that the interpreter obeys.
-/

namespace LiveCoding

namespace Osc

/-- One argument of a message. -/
inductive Arg where
  | int (value : Int32)
  /-- A float, by the bits of its binary form. -/
  | float (bits : UInt32)
  | text (value : String)
deriving DecidableEq, Repr

/-- An address and its arguments. -/
structure Message where
  address : String
  args : List Arg
deriving DecidableEq, Repr

/-- Why a message could not be sent or read. -/
inductive Error where
  /-- There is no socket. -/
  | notConnected
  /-- The address does not start with a slash. -/
  | invalidAddress (address : String)
  /-- A text holds a NUL, where its receiver would take it to end. -/
  | interiorNul
  /-- The packet has more bytes than fit into a datagram. -/
  | payloadTooLarge (bytes : Nat)
  /-- The bytes are no message. -/
  | malformed (detail : String)
  /-- The socket refused. -/
  | socket (fault : Fault)
deriving DecidableEq, Repr

/-- The wording of an error. -/
def Error.message : Error → String
  | .notConnected => "OSC client is not connected"
  | .invalidAddress address => "OSC address must start with '/': " ++ quoted address
  | .interiorNul => "code contains a NUL byte and cannot be sent as an OSC string"
  | .payloadTooLarge bytes =>
    s!"OSC packet is {bytes} bytes, larger than a UDP datagram allows"
  | .malformed detail => "malformed OSC packet: " ++ detail
  | .socket fault => "OSC socket error: " ++ fault.message

/-- The message that has code evaluated. -/
def evaluate (code : String) : Message :=
  ⟨"/interpret", [.text code]⟩

/-- The message that has a snippet for the sound server run. -/
def command (snippet : String) : Message :=
  ⟨"/cmd", [.text snippet]⟩

/-- Starts the sound server. -/
def bootServer : Message :=
  command "Server.default.boot;"

/-- Stops the sound server. -/
def quitServer : Message :=
  command "Server.default.quit;"

/-- Silences the sound server. -/
def freeAll : Message :=
  command "Server.default.freeAll;"

end Osc

end LiveCoding
