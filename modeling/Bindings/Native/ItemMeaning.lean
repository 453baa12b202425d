import Bindings.Fault
import Bindings.Native.Directive.Reading
import Bindings.Native.Documentation
import Bindings.Native.TypeMeaning

/-!
This module contains the declarations that native items stand for. What is skipped has no part in a
declaration, and what has no declaration is refused at its place in the description.
-/

namespace Bindings.Native

open Grammar (unraw)

def malformed (site : Site) (reason : Malformation) : Fault :=
  .malformed { site, reason }

def TypeExpr.meaningAt (site : Site) (type : TypeExpr) : Except Fault TypeRef :=
  type.meaning.mapError fun refusal => malformed site (.type refusal)

def Directives.read (attributes : List Attribute) : Except Fault Directives :=
  (Directives.ofAttributes attributes).mapError .source

/--
Lifetimes are erased. Other generic parameters have no declaration.
-/
def checkGenerics (site : Site) : List GenericParam → Except Fault Unit
  | [] => .ok ()
  | .lifetime :: params => checkGenerics site params
  | .type name :: _ => .error (malformed site (.typeParameter name))
  | .const name :: _ => .error (malformed site (.constParameter name))

namespace FieldItem

def meaning (owner : String) (rule : Option RenameRule) (index : Nat) (field : FieldItem) :
    Except Fault (Option Field) := do
  let directives ← Directives.read field.attributes
  if directives.skip then return none
  let ownName := unraw (field.name.getD "")
  let type ← field.type.meaningAt (.field owner ownName index)
  return some
    { name := directives.memberName RenameRule.applyToField rule ownName
      type
      doc := Documentation.ofAttributes field.attributes
      flatten := directives.flatten }

def meanings (owner : String) (rule : Option RenameRule) (index : Nat) :
    List FieldItem → Except Fault (List Field)
  | [] => .ok []
  | field :: fields => do
    let first ← field.meaning owner rule index
    let rest ← meanings owner rule (index + 1) fields
    return first.toList ++ rest

/--
The types of fields that are told apart by their order. All of them stand at one place.
-/
def types (site : Site) (fields : List FieldItem) : Except Fault (List TypeRef) :=
  fields.mapM fun field => field.type.meaningAt site

end FieldItem

namespace VariantItem

def payload (owner ownName : String) (index : Nat) (rule : Option RenameRule) :
    FieldItems → Except Fault Payload
  | .unit => .ok .unit
  | .tuple fields => do
    match ← FieldItem.types (.variant owner ownName index) fields with
    | [type] => return .newtype type
    | types => return .tuple types
  | .named fields => .struct <$> FieldItem.meanings (owner ++ "::" ++ ownName) rule 0 fields

def meaning (owner : String) (rule : Option RenameRule) (index : Nat) (variant : VariantItem) :
    Except Fault (Option Variant) := do
  let directives ← Directives.read variant.attributes
  if directives.skip then return none
  let ownName := unraw variant.name
  let payload ← payload owner ownName index directives.renameAll variant.fields
  return some
    { name := directives.memberName RenameRule.applyToVariant rule ownName
      payload
      doc := Documentation.ofAttributes variant.attributes }

def meanings (owner : String) (rule : Option RenameRule) (index : Nat) :
    List VariantItem → Except Fault (List Variant)
  | [] => .ok []
  | variant :: variants => do
    let first ← variant.meaning owner rule index
    let rest ← meanings owner rule (index + 1) variants
    return first.toList ++ rest

end VariantItem

namespace TypeItemHead

def id (head : TypeItemHead) : String :=
  unraw head.name

def declare (head : TypeItemHead) (rename : Option String) (body : Body) : TypeDecl :=
  { id := head.id
    rename
    body
    doc := Documentation.ofAttributes head.attributes
    exported := head.visibility.isPublic }

def site (head : TypeItemHead) (kind : DeclKind) (position : Nat) : Site :=
  .declaration kind head.id position

/--
The declaration of a struct. One whose fields have no names is an alias of their types.
-/
def structMeaning (head : TypeItemHead) (position : Nat) (fields : FieldItems) :
    Except Fault TypeDecl := do
  let directives ← Directives.read head.attributes
  match fields with
  | .tuple fields =>
    let site := head.site .typeAlias position
    checkGenerics site head.generics
    match ← FieldItem.types site fields with
    | [type] => return head.declare directives.rename (.typeAlias type)
    | types => return head.declare directives.rename (.typeAlias (.tuple types))
  | .named fields =>
    checkGenerics (head.site .struct position) head.generics
    let fields ← FieldItem.meanings head.id directives.renameAll 0 fields
    return head.declare directives.rename (.struct fields)
  | .unit =>
    checkGenerics (head.site .struct position) head.generics
    return head.declare directives.rename (.struct [])

def enumMeaning (head : TypeItemHead) (position : Nat) (variants : List VariantItem) :
    Except Fault TypeDecl := do
  let site := head.site .enum position
  checkGenerics site head.generics
  let directives ← Directives.read head.attributes
  match directives.tagging? with
  | none => throw (malformed site .contentWithoutTag)
  | some tagging =>
    let variants ← VariantItem.meanings head.id directives.renameAll 0 variants
    return head.declare directives.rename (.enum tagging variants)

/--
The declaration of an alias, which directives do not rename.
-/
def aliasMeaning (head : TypeItemHead) (position : Nat) (target : TypeExpr) :
    Except Fault TypeDecl := do
  let site := head.site .typeAlias position
  checkGenerics site head.generics
  return head.declare none (.typeAlias (← target.meaningAt site))

end TypeItemHead

namespace FunctionItem

def id (function : FunctionItem) : String :=
  unraw function.name

def param (function : FunctionItem) (position index : Nat) : InputItem → Except Fault Param
  | .receiver => .error (malformed (.declaration .function function.id position) .receiver)
  | .typed none _ => .error (malformed (.declaration .function function.id position) .paramPattern)
  | .typed (some name) type => do
    let name := unraw name
    let site := Site.param function.id name index
    match type with
    | .reference _ _ target => return ⟨name, ← target.meaningAt site, .borrowed⟩
    | type => return ⟨name, ← type.meaningAt site, .owned⟩

def params (function : FunctionItem) (position index : Nat) :
    List InputItem → Except Fault (List Param)
  | [] => .ok []
  | input :: inputs => do
    let first ← function.param position index input
    let rest ← function.params position (index + 1) inputs
    return first :: rest

/--
The type of the returned value. An empty tuple is none.
-/
def result (function : FunctionItem) : Except Fault (Option TypeRef) :=
  match function.output with
  | none => .ok none
  | some type => do
    match ← type.meaningAt (.result function.id) with
    | .tuple [] => return none
    | type => return some type

def meaning (function : FunctionItem) (position : Nat) : Except Fault FunctionDecl := do
  checkGenerics (.declaration .function function.id position) function.generics
  let params ← function.params position 0 function.inputs
  let result ← function.result
  return {
    name := function.id
    params
    result
    synchrony := if function.isAsync then .async else .sync
    doc := Documentation.ofAttributes function.attributes }

end FunctionItem

end Bindings.Native
