import LiveCoding.Document.Source
import LiveCoding.Text.Blank

/-!
# What to evaluate

A selection is sent as it is.  A bare cursor sends the block around it, or its
line where there is no block.  Code that is blank is not worth sending, and a
blank selection is not replaced by anything else.

## Main Definitions

* `Target`: code, the range it was taken from, and what it is.
* `Target.resolve?`: the target for a selection or a bare cursor.
* `Target.ofFile?`: the whole text as one target.
-/

namespace LiveCoding

/-- What a target is. -/
inductive Target.Kind where
  | selection
  | block
  | line
  | file
deriving DecidableEq, Repr

/-- The name of a kind as a user sees it. -/
def Target.Kind.label : Target.Kind → String
  | .selection => "selection"
  | .block => "block"
  | .line => "line"
  | .file => "file"

/-- Code to be sent. -/
structure Target where
  code : String
  range : Range
  kind : Target.Kind
deriving DecidableEq, Repr

namespace Target

variable {σ : Type} [TextSource σ]

/-- The range that a selection stands for, and what is found there.  A line past
the last is nothing. -/
def choose? (source : σ) (selection : Range) : Option (Range × Kind) :=
  if !selection.isEmpty then some (selection, .selection)
  else
    match TextSource.enclosingBlock source selection.start with
    | some block => some (block, .block)
    | none => (TextSource.lineRange source selection.start.line).map (·, .line)

/-- The target of a selection, unless it is blank. -/
def resolve? (source : σ) (selection : Range) : Option Target := do
  let (range, kind) ← choose? source selection
  let code := TextSource.slice source range
  if isBlankText code then none else some { code, range, kind }

/-- The whole text as a target, unless it is blank. -/
def ofFile? (source : σ) : Option Target :=
  let code := TextSource.text source
  if isBlankText code then none
  else
    let stop := TextSource.positionAt source code.utf8ByteSize
    some { code, range := Range.between .origin stop, kind := .file }

end Target

end LiveCoding
