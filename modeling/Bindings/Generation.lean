import Bindings.Artifact.Emission
import Bindings.Validity

/-!
This module contains the way from a description to its artifact.
-/

namespace Bindings

namespace Universe

def build (decls : List TypeDecl) : Traced Universe := do
  let u ← Universe.ofDecls decls
  .record (.builtUniverse u.size)
  return u

end Universe

namespace Description

/--
The artifact of a description whose declarations need not be well formed on their own.
-/
def emit (description : Description) (o : Options) : Traced String := do
  let u ← Universe.build description.types
  let r ← Resolution.resolve u description.functions
  Artifact.emit o r

/--
The artifact of a description. The first fault prevents all of it.
-/
def generate (description : Description) (o : Options) : Traced String := do
  description.validate
  let text ← description.emit o
  .record (.generated text.utf8ByteSize)
  return text

end Description

end Bindings
