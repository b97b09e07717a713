import LiveCoding.Frame.Header
import LiveCoding.Json.Value

/-!
# Message envelopes

Of the body of a frame only two members matter here: `id` and `method`.  They
tell requests, notifications and responses apart.  The other members are checked
for their form and otherwise passed over, however deep they nest.

## Main Definitions

* `Frame.Envelope`: the two members.
* `Frame.Envelope.ofTree?`: the envelope of a body.
* `Frame.summarize`: what is told about a frame.

## Design Notes

A member whose value is null counts as absent, and still may not come twice.  A
body may also be a list of the two, in the order `id`, `method`, from which either
or both may be missing at the end.
-/

namespace LiveCoding

namespace Frame

/-- What kind of message a frame carries. -/
inductive Kind where
  | request
  | notification
  | response
deriving DecidableEq, Repr

/-- The members of a message that matter. -/
structure Envelope where
  id : Option Json.Value
  method : Option String
deriving Repr, Inhabited

/-- How deep the body of a message may nest where it is looked at, itself not
counted. -/
def maxDepth : Nat := 126

/-- The id that a tree stands for; null stands for none. -/
def readId? : Json.Tree → Option (Option Json.Value)
  | .null => some none
  | tree => (tree.value? maxDepth).map some

/-- The method that a tree stands for; null stands for none. -/
def readMethod? : Json.Tree → Option (Option String)
  | .null => some none
  | .text raw => (Json.readText? raw).map some
  | _ => none

/-- The members of a record with their keys understood. -/
def readKeys? : List (List UInt8 × Json.Tree) → Option (List (String × Json.Tree))
  | members => members.mapM fun (raw, tree) => (Json.readText? raw).map (·, tree)

/-- The only member of a name, read by `read?`; nothing if there is none, and
`none` if there are several. -/
def member? {α : Type} (name : String) (read? : Json.Tree → Option (Option α))
    (members : List (String × Json.Tree)) : Option (Option α) :=
  match members.filter (·.1 == name) with
  | [] => some none
  | [(_, tree)] => read? tree
  | _ => none

/-- The envelope of a body. -/
def Envelope.ofTree? : Json.Tree → Option Envelope
  | .record members => do
    let members ← readKeys? members
    let id ← member? "id" readId? members
    let method ← member? "method" readMethod? members
    return { id, method }
  | .list [] => some { id := none, method := none }
  | .list [first] => do
    let id ← readId? first
    return { id, method := none }
  | .list [first, second] => do
    let id ← readId? first
    let method ← readMethod? second
    return { id, method }
  | _ => none

/-- A message with a method asks for an answer if it has an id; one without is an
answer itself. -/
def Envelope.kind (envelope : Envelope) : Kind :=
  match envelope.method, envelope.id with
  | some _, some _ => .request
  | some _, none => .notification
  | none, _ => .response

/-- What is told about a frame. -/
structure Summary where
  kind : Kind
  method : Option String
  id : Option Json.Value
  /-- How many bytes the body has. -/
  length : Nat
deriving Repr

/-- What is told about a frame with the given body. -/
def summarize (body : List UInt8) : Except Error Summary :=
  match Json.parse? body >>= Envelope.ofTree? with
  | none => .error .notMessage
  | some envelope =>
    .ok
      { kind := envelope.kind
        method := envelope.method
        id := envelope.id
        length := body.length }

end Frame

end LiveCoding
