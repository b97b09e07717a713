/-!
# Splitting at a separator

Texts are split at characters and paths at bytes, so the functions here take
lists of anything.

## Main Definitions

* `splitFirst?`: the two sides of the first separator.
* `splitAll`: everything between separators, empty parts included.
-/

namespace LiveCoding

variable {α : Type} [DecidableEq α]

/-- The two sides of the first separator, of which `before` is already behind,
newest element first. -/
def splitFirstFrom? (separator : α) (before : List α) : List α → Option (List α × List α)
  | [] => none
  | c :: rest =>
    if c = separator then some (before.reverse, rest)
    else splitFirstFrom? separator (c :: before) rest

/-- What stands before and after the first separator. -/
def splitFirst? (separator : α) (text : List α) : Option (List α × List α) :=
  splitFirstFrom? separator [] text

/-- The parts found so far, newest first, then those of the text, of which `part`
is the beginning, newest element first. -/
def splitAllFrom (separator : α) (part : List α) (found : List (List α)) :
    List α → List (List α)
  | [] => (part.reverse :: found).reverse
  | c :: rest =>
    if c = separator then splitAllFrom separator [] (part.reverse :: found) rest
    else splitAllFrom separator (c :: part) found rest

/-- The parts between separators; one part if there is none. -/
def splitAll (separator : α) (text : List α) : List (List α) :=
  splitAllFrom separator [] [] text

end LiveCoding
