import Bindings.Codec.Description
import Bindings.Generation
import Bindings.Native.Collection

/-!
This module contains the way from texts to an artifact.
-/

namespace Bindings

def compileJson (text : String) (o : Options) : Traced String := do
  let description ← Description.ofText text
  description.generate o

def compileSource (source : String) (o : Options) : Traced String := do
  let description ← Description.ofSource source
  description.generate o

end Bindings
