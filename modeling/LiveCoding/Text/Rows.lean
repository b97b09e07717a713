/-!
# Rows

Settings, help answers and echoed code are read row by row.  A row ends with a
line feed, and a carriage return right before that line feed belongs to the
ending.  Text after the last line feed is a row of its own only if there is any.
No other character ends a row; the lines of a document follow a wider rule.
-/

namespace LiveCoding

/-- The row without a carriage return at its end.  The row is given, and
returned, newest character first. -/
def dropReturn : List Char → List Char
  | '\r' :: row => row
  | row => row

/-- The rows found so far, newest first, then those of the text, of which `row`
is the beginning, newest character first. -/
def rowsFrom (row : List Char) (found : List (List Char)) : List Char → List (List Char)
  | [] => (if row.isEmpty then found else row.reverse :: found).reverse
  | c :: rest =>
    if c = '\n' then rowsFrom [] ((dropReturn row).reverse :: found) rest
    else rowsFrom (c :: row) found rest

/-- The rows of a text. -/
def rows (text : List Char) : List (List Char) :=
  rowsFrom [] [] text

end LiveCoding
