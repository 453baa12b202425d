import Bindings.Declaration
import Bindings.Identifier
import Bindings.Scope

/-!
This module contains the local shape rules of declarations. They look at one declaration at a time.
-/

namespace Bindings

def checkIdentifier (name : String) (site : Site) : Except Fault Unit :=
  if name.isEmpty then
    .error (.malformed ⟨site, .emptyIdentifier⟩)
  else if !Identifier.isIdentifier name then
    .error (.malformed ⟨site, .invalidIdentifier name⟩)
  else if Identifier.isReserved name then
    .error (.malformed ⟨site, .reservedWord name⟩)
  else
    .ok ()

namespace TypeRef

def isFlattenable : TypeRef → Bool
  | named _ | map _ _ | option (named _) | option (map _ _) => true
  | _ => false

end TypeRef

namespace Field

/--
Flattened fields contribute no property of their own, so they claim no name.
-/
def obligations (owner : String) (index : Nat) (field : Field) : List Obligation :=
  let site := .field owner field.name index
  .require (!field.name.isEmpty) site .emptyFieldName
    :: .require (!field.flatten || field.type.isFlattenable) site .notFlattenable
    :: if field.flatten then [] else [.claims field.name site]

end Field

def checkFields (owner : String) (fields : List Field) : Except Fault Unit :=
  checkScope (fields.mapIdx (Field.obligations owner)).flatten

namespace Tagging

def validate (tagging : Tagging) (site : Site) : Except Fault Unit :=
  match tagging with
  | external | untagged => .ok ()
  | internal tag =>
    if tag.isEmpty then .error (.malformed ⟨site, .emptyTag⟩) else .ok ()
  | adjacent tag content =>
    if tag.isEmpty || content.isEmpty then
      .error (.malformed ⟨site, .emptyTagOrContent⟩)
    else if tag == content then
      .error (.malformed ⟨site, .tagIsContent tag⟩)
    else
      .ok ()

def admits (tagging : Tagging) (payload : Payload) (site : Site) : Except Fault Unit :=
  match tagging, payload with
  | internal _, .tuple _ => .error (.malformed ⟨site, .internallyTaggedTuple⟩)
  | internal tag, .struct fields =>
    if fields.any fun field => !field.flatten && field.name == tag then
      .error (.malformed ⟨site, .fieldNamedLikeTag tag⟩)
    else
      .ok ()
  | _, _ => .ok ()

end Tagging

namespace Payload

def validate (payload : Payload) (owner : String) : Except Fault Unit :=
  match payload with
  | struct fields => checkFields owner fields
  | _ => .ok ()

end Payload

namespace Variant

def obligations (owner : String) (tagging : Tagging) (index : Nat) (variant : Variant) :
    List Obligation :=
  let site := .variant owner variant.name index
  [.require (!variant.name.isEmpty) site .emptyVariantName,
    .claims variant.name site,
    .passes (tagging.admits variant.payload site),
    .passes (variant.payload.validate (owner ++ "::" ++ variant.name))]

end Variant

namespace TypeDecl

def validate (decl : TypeDecl) (position : Nat) : Except Fault Unit := do
  let site := decl.site position
  checkIdentifier decl.id site
  if decl.declaredName != decl.id then
    checkIdentifier decl.declaredName site
  match decl.body with
  | .struct fields => checkFields decl.id fields
  | .enum tagging variants =>
    tagging.validate site
    checkScope (variants.mapIdx (Variant.obligations decl.id tagging)).flatten
  | .typeAlias _ => .ok ()

end TypeDecl

namespace Param

def obligations (function : String) (index : Nat) (param : Param) : List Obligation :=
  let site := .param function param.name index
  [.passes (checkIdentifier param.name site), .claims param.name site]

end Param

namespace FunctionDecl

def validate (function : FunctionDecl) (position : Nat) : Except Fault Unit := do
  checkIdentifier function.name (function.site position)
  checkScope (function.params.mapIdx (Param.obligations function.name)).flatten

end FunctionDecl

def checkEach (check : α → Nat → Except Fault Unit) (elements : List α) : Except Fault Unit :=
  go 0 elements
where
  go (position : Nat) : List α → Except Fault Unit
    | [] => .ok ()
    | element :: elements => do
      check element position
      go (position + 1) elements

namespace Description

def validate (description : Description) : Except Fault Unit := do
  checkEach TypeDecl.validate description.types
  checkEach FunctionDecl.validate description.functions

end Description

end Bindings
