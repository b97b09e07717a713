import LiveCoding.Document.Basic
import LiveCoding.Files.Basic

/-!
# Documents from files

A document is opened by reading a whole file, which has to be UTF-8.
-/

namespace LiveCoding

namespace Document

/-- The document in a file. -/
def ofFile (files : Files) (path : Path) : Except Fault Document :=
  match files.read path with
  | .error fault => .error fault
  | .ok bytes =>
    match Utf8.decode bytes with
    | .error _ => .error .documentNotText
    | .ok text => .ok { text := String.ofList text, path := some path }

end Document

end LiveCoding
