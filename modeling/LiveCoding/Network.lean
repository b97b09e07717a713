import LiveCoding.Fault
import LiveCoding.Text.Numeral
import LiveCoding.Text.Split

/-!
# The network as the surroundings offer it

Code is sent as datagrams, and the language server is reached over a stream.
What becomes of such a request is not up to this library: a `Network` is a record
of the answers that the surroundings give, and everything that talks to a peer
takes one as an argument.

## Main Definitions

* `Endpoint`, `Datagram`: where something goes, and what goes there.
* `Network`: the answers.
* `Host.form`: what kind of address a host is written as.
* `Network.offline`: a machine without any network.
-/

namespace LiveCoding

/-- A host, as it was written, and a port. -/
structure Endpoint where
  host : String
  port : UInt16
deriving DecidableEq, Repr

/-- A packet on its way to a peer. -/
structure Datagram where
  peer : Endpoint
  payload : List UInt8
deriving DecidableEq, Repr

/-- The two ways to talk to a peer. -/
inductive Transport where
  /-- Packets, each on its own. -/
  | datagram
  /-- A stream of bytes in both directions. -/
  | stream
deriving DecidableEq, Repr

/-- How the surroundings answer. -/
structure Network where
  /-- Whether a new socket can be directed at a peer. -/
  reach : Transport → Endpoint → Except Fault Unit
  /-- Whether a packet can be handed over on a socket directed at a peer. -/
  carry : Endpoint → List UInt8 → Except Fault Unit
  /-- What a peer sends over a stream before it closes. -/
  answer : Endpoint → List UInt8

namespace Host

/-- The ways to write a host. -/
inductive Form where
  /-- Four decimal numbers. -/
  | ipv4
  /-- Groups of hexadecimal digits. -/
  | ipv6
  /-- A name to be looked up. -/
  | name
  /-- A name that holds a NUL and so cannot be looked up. -/
  | unusable
deriving DecidableEq, Repr

/-- One of the four numbers of an IPv4 address: at most 255, without leading
zeros. -/
def isOctet (text : List Char) : Bool :=
  (readUpTo? 255 text).isSome && text.length ≤ 3 && (text.length = 1 || text.head? != some '0')

/-- A text that is an IPv4 address. -/
def isIpv4 (text : List Char) : Bool :=
  let parts := splitAll '.' text
  parts.length == 4 && parts.all isOctet

/-- A hexadecimal digit. -/
def isHexDigit (c : Char) : Bool :=
  isDigit c || ('a' ≤ c && c ≤ 'f') || ('A' ≤ c && c ≤ 'F')

/-- One group of an IPv6 address. -/
def isGroup (text : List Char) : Bool :=
  !text.isEmpty && text.length ≤ 4 && text.all isHexDigit

/-- How many groups stand between colons.  An IPv4 address may stand for the last
two if `embedded` allows it. -/
def groupCount? (embedded : Bool) (text : List Char) : Option Nat :=
  if text.isEmpty then some 0
  else
    match (splitAll ':' text).reverse with
    | [] => none
    | last :: before =>
      if !before.all isGroup then none
      else if isGroup last then some (before.length + 1)
      else if embedded && isIpv4 last then some (before.length + 2)
      else none

/-- The two sides of the first double colon. -/
def splitElision? (before : List Char) : List Char → Option (List Char × List Char)
  | ':' :: ':' :: rest => some (before.reverse, rest)
  | c :: rest => splitElision? (c :: before) rest
  | [] => none

/-- A text that is an IPv6 address: eight groups, or fewer around a double
colon. -/
def isIpv6 (text : List Char) : Bool :=
  match splitElision? [] text with
  | none => groupCount? true text == some 8
  | some (before, after) =>
    match groupCount? false before, groupCount? true after with
    | some m, some n => m + n ≤ 7
    | _, _ => false

/-- How a host is written. -/
def form (host : String) : Form :=
  let text := host.toList
  if isIpv4 text then .ipv4
  else if isIpv6 text then .ipv6
  else if text.contains '\x00' then .unusable
  else .name

end Host

namespace Network

/-- A machine without a network: no IPv4 peer can be reached, no IPv6 peer has a
local address to be reached from, a datagram socket is made for IPv4 alone, and
no name is known. -/
def offline : Network where
  reach transport peer :=
    match Host.form peer.host with
    | .ipv4 => .error .networkUnreachable
    | .ipv6 =>
      match transport with
      | .datagram => .error .familyNotSupported
      | .stream => .error .addressNotAvailable
    | .name => .error .unknownHost
    | .unusable => .error .nulInName
  carry _ _ := .error .networkUnreachable
  answer _ := []

end Network

end LiveCoding
