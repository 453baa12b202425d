/-!
This module contains sets of characters that are given by ranges of code points.
-/

namespace Bindings.Text

/--
Ranges of code points, both ends included.
-/
abbrev CodeRanges := List (Nat × Nat)

def CodeRanges.contains (ranges : CodeRanges) (c : Char) : Bool :=
  ranges.any fun (first, last) => first ≤ c.toNat && c.toNat ≤ last

end Bindings.Text
