import Bindings.Native.Item
import Bindings.Text.Blank
import Bindings.Text.Join
import Bindings.Text.Lines

/-!
This module contains the documentation of items, which `doc` attributes hold.
-/

namespace Bindings.Native

def Attribute.docText? (a : Attribute) : Option String :=
  match a.isNamed "doc", a.body with
  | true, .value _ text => text
  | _, _ => none

namespace Documentation

def tidyLine (line : List Char) : List Char :=
  match line with
  | ' ' :: rest => Text.trimEnd rest
  | _ => Text.trimEnd line

def linesOf (text : String) : List String :=
  match text.toList with
  | [] => [""]
  | cs => (Text.splitLines cs).map fun line => String.ofList (tidyLine line)

def trimLines (lines : List String) : List String :=
  ((lines.dropWhile String.isEmpty).reverse.dropWhile String.isEmpty).reverse

def ofAttributes (attributes : List Attribute) : Option String :=
  match trimLines ((attributes.filterMap Attribute.docText?).flatMap linesOf) with
  | [] => none
  | lines => some (Text.joinWith "\n" lines)

end Documentation

end Bindings.Native
