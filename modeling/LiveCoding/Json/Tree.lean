import LiveCoding.Json.Token

/-!
# JSON trees

A JSON text is a tree of lists and records over names, numbers and strings.  The
tree keeps strings and numbers as they are written: most of a message is never
looked at, and what is not looked at needs no meaning.

## Main Definitions

* `Json.Tree`: the trees.
* `Json.Builder`: what has been read of a tree, with the containers that are
  still open, innermost first.
* `Json.parse?`: the tree of a text.

## Design Notes

The builder is an automaton on tokens with a stack of its own, so depth costs
nothing but memory: a text may nest as deep as it is long.
-/

namespace LiveCoding

namespace Json

/-- A JSON text without its spaces. -/
inductive Tree where
  | null
  | bool (value : Bool)
  | number (numeral : Numeral)
  /-- A string, by the bytes between its quotes. -/
  | text (raw : List UInt8)
  | list (items : List Tree)
  /-- A record, with every member in the order written. -/
  | record (members : List (List UInt8 × Tree))
deriving Repr, Inhabited

/-- An open container around the place where the text is being read, with what
it holds so far, newest first. -/
inductive Open where
  | list (items : List Tree)
  /-- A record whose member with this key is being read. -/
  | record (members : List (List UInt8 × Tree)) (key : List UInt8)
deriving Repr, Inhabited

/-- What has been read of a text, by what may come next. -/
inductive Builder where
  /-- A value, or the end of the list that was just opened. -/
  | value (around : List Open) (mayClose : Bool)
  /-- A key, or the end of the record that was just opened. -/
  | key (around : List Open) (members : List (List UInt8 × Tree)) (mayClose : Bool)
  /-- The colon behind a key. -/
  | colon (around : List Open) (members : List (List UInt8 × Tree)) (key : List UInt8)
  /-- A comma or the end of a list. -/
  | afterItem (around : List Open) (items : List Tree)
  /-- A comma or the end of a record. -/
  | afterMember (around : List Open) (members : List (List UInt8 × Tree))
  /-- Nothing. -/
  | done (tree : Tree)
deriving Repr, Inhabited

namespace Builder

/-- A value is complete. -/
def place (tree : Tree) : List Open → Builder
  | [] => .done tree
  | .list items :: around => .afterItem around (tree :: items)
  | .record members name :: around => .afterMember around ((name, tree) :: members)

/-- One token where a value may come. -/
def startValue? (around : List Open) : Token → Option Builder
  | .null => some (place .null around)
  | .bool b => some (place (.bool b) around)
  | .number numeral => some (place (.number numeral) around)
  | .text raw => some (place (.text raw) around)
  | .listOpen => some (.value (.list [] :: around) true)
  | .recordOpen => some (.key around [] true)
  | .listClose | .recordClose | .colon | .comma => none

/-- One token. -/
def step? : Builder → Token → Option Builder
  | .value around mayClose, token =>
    match token, around, mayClose with
    | .listClose, .list items :: around, true => some (place (.list items.reverse) around)
    | token, around, _ => startValue? around token
  | .key around members mayClose, token =>
    match token, mayClose with
    | .text raw, _ => some (.colon around members raw)
    | .recordClose, true => some (place (.record members.reverse) around)
    | _, _ => none
  | .colon around members name, token =>
    match token with
    | .colon => some (.value (.record members name :: around) false)
    | _ => none
  | .afterItem around items, token =>
    match token with
    | .comma => some (.value (.list items :: around) false)
    | .listClose => some (place (.list items.reverse) around)
    | _ => none
  | .afterMember around members, token =>
    match token with
    | .comma => some (.key around members false)
    | .recordClose => some (place (.record members.reverse) around)
    | _ => none
  | .done _, _ => none

/-- The tree, if it is complete. -/
def finish? : Builder → Option Tree
  | .done tree => some tree
  | _ => none

end Builder

/-- The tree that tokens write. -/
def Tree.ofTokens? (tokens : List Token) : Option Tree := do
  let builder ← tokens.foldlM Builder.step? (.value [] false)
  builder.finish?

/-- The tree of a text. -/
def parse? (text : List UInt8) : Option Tree :=
  tokens? text >>= Tree.ofTokens?

end Json

end LiveCoding
