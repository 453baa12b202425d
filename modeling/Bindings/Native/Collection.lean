import Bindings.Native.ItemMeaning
import Bindings.Trace

/-!
This module contains the collection of a description from the items of a file. Public functions and
all structs, enums and aliases are declared; modules are entered; everything else is skipped.
-/

namespace Bindings

namespace Native

structure Collection where
  description : Description := {}
  skipped : Nat := 0
deriving DecidableEq, Repr

namespace Collection

def addType (c : Collection) (decl : TypeDecl) : Collection :=
  { c with description := { c.description with types := c.description.types ++ [decl] } }

def addFunction (c : Collection) (function : FunctionDecl) : Collection :=
  { c with
    description := { c.description with functions := c.description.functions ++ [function] } }

def skip (c : Collection) : Collection :=
  { c with skipped := c.skipped + 1 }

mutual

/--
Takes up an item. It is declared behind what has been declared; a module is entered.
-/
def add (c : Collection) : Item → Traced Collection
  | .function function => do
    if function.visibility.isPublic then
      return c.addFunction (← function.meaning c.description.functions.length)
    else
      .record (.skippedPrivate function.id)
      return c.skip
  | .struct head fields => do
    return c.addType (← head.structMeaning c.description.types.length fields)
  | .enum head variants => do
    return c.addType (← head.enumMeaning c.description.types.length variants)
  | .typeAlias head target => do
    return c.addType (← head.aliasMeaning c.description.types.length target)
  | .module (some items) => c.addAll items
  | .module none => return c
  | .other => return c.skip

def addAll (c : Collection) : List Item → Traced Collection
  | [] => return c
  | item :: items => do (← c.add item).addAll items

end

def ofItems (items : List Item) : Traced Collection :=
  addAll {} items

end Collection

end Native

namespace Description

def ofSource (source : String) : Traced Description :=
  match Native.Grammar.file source with
  | none => .ofResult (.error (.source .ungrammatical))
  | some items => do
    let c ← Native.Collection.ofItems items
    .record (.readSource c.description.types.length c.description.functions.length c.skipped)
    return c.description

end Description

end Bindings
