import Bindings.Artifact.Block
import Bindings.Resolution

/-!
This module contains the artifact of a resolution: the header, the types in order with an empty line
between them, and the functions.
-/

namespace Bindings.Artifact

def separate : List (List String) → List String
  | [] => []
  | [block] => block
  | block :: blocks => block ++ "" :: separate blocks

def lines (o : Options) (r : Resolution u) : List String :=
  let types := r.decls.map (typeLines u.nameOf o)
  let functions := r.functions.flatMap (functionLines u.nameOf o)
  o.header ++ separate types
    ++ (if !types.isEmpty && !r.functions.isEmpty then [""] else []) ++ functions

def text (o : Options) (r : Resolution u) : String :=
  Text.unlines (lines o r)

def emit (o : Options) (r : Resolution u) : Traced String := do
  r.check
  .record (.emitted r.order.length r.functions.length)
  return text o r

end Bindings.Artifact
