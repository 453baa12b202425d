import Bindings.Declaration
import Bindings.RenameRule

/-!
This module contains the directives by which items say how their values are serialized, as far as
they change what is declared.
-/

namespace Bindings.Native

inductive Directive
  | rename (name : String)
  | renameAll (rule : RenameRule)
  | skip
  | tag (name : String)
  | content (name : String)
  | untagged
  | flatten
  /-- A directive that leaves the declaration as it is. -/
  | inert
deriving DecidableEq, Repr

structure Directives where
  rename : Option String := none
  renameAll : Option RenameRule := none
  skip : Bool := false
  tag : Option String := none
  content : Option String := none
  untagged : Bool := false
  flatten : Bool := false
deriving DecidableEq, Repr

namespace Directives

/--
The later one of two names, rules, tags or contents counts.
-/
def add (a : Directives) : Directive → Directives
  | .rename name => { a with rename := some name }
  | .renameAll rule => { a with renameAll := some rule }
  | .skip => { a with skip := true }
  | .tag name => { a with tag := some name }
  | .content name => { a with content := some name }
  | .untagged => { a with untagged := true }
  | .flatten => { a with flatten := true }
  | .inert => a

def ofList (directives : List Directive) : Directives :=
  directives.foldl add {}

/--
How values of an enum are tagged. There is no place for a content without a tag.
-/
def tagging? (a : Directives) : Option Tagging :=
  if a.untagged then
    some .untagged
  else
    match a.tag, a.content with
    | none, none => some .external
    | some tag, none => some (.internal tag)
    | some tag, some content => some (.adjacent tag content)
    | none, some _ => none

def memberName (a : Directives) (byRule : RenameRule → String → String)
    (rule : Option RenameRule) (ownName : String) : String :=
  a.rename.getD ((rule.map fun rule => byRule rule ownName).getD ownName)

end Directives

end Bindings.Native
