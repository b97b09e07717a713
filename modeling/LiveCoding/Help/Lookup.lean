import LiveCoding.Help
import LiveCoding.Interpreter.Basic

/-!
# Help lookup

A local help file is taken if the interpreter names one and it is there.  Whatever
else happens, the class reference is the answer, so a lookup cannot fail.
-/

namespace LiveCoding

namespace Help

/-- Where help for a symbol can be read.  The interpreter at `path` is asked only
about names that are safe in a script. -/
def lookup (world : World) (path symbol : String) (limit : Nat) : World × Target :=
  if !isSymbol symbol then (world, .online (onlinePage symbol))
  else
    match Interpreter.runScript world path (script symbol) limit with
    | (world, .error _) => (world, .online (onlinePage symbol))
    | (world, .ok output) =>
      match (answer? output).map Path.ofText with
      | none => (world, .online (onlinePage symbol))
      | some file =>
        if world.files.contains file then (world, classify file)
        else (world, .online (onlinePage symbol))

end Help

end LiveCoding
