/-!
This module contains the search for one text inside another.
-/

namespace Bindings.Text

def holds (text part : List Char) : Bool :=
  part.isPrefixOf text ||
    match text with
    | [] => false
    | _ :: cs => holds cs part

end Bindings.Text
