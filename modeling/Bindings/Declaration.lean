import Bindings.Site
import Bindings.TypeRef

/-!
This module contains the declarations of a native API and the references that each of them makes.
-/

namespace Bindings

structure Field where
  name : String
  type : TypeRef
  doc : Option String := none
  /-- The properties of the field's type stand among those of its owner. -/
  flatten : Bool := false
deriving DecidableEq, Repr

inductive Payload
  | unit
  | newtype (type : TypeRef)
  | tuple (elements : List TypeRef)
  | struct (fields : List Field)
deriving DecidableEq, Repr

structure Variant where
  name : String
  payload : Payload := .unit
  doc : Option String := none
deriving DecidableEq, Repr

inductive Tagging
  | external
  | internal (tag : String)
  | adjacent (tag content : String)
  | untagged
deriving DecidableEq, Repr

inductive Body
  | struct (fields : List Field)
  | enum (tagging : Tagging) (variants : List Variant)
  | typeAlias (target : TypeRef)
deriving DecidableEq, Repr

structure TypeDecl where
  id : String
  /-- The name in the artifact, where it is not the identifier. -/
  rename : Option String := none
  body : Body
  doc : Option String := none
  /-- An exported type is part of the artifact even if no function reaches it. -/
  exported : Bool := false
deriving DecidableEq, Repr

/--
Whether the callee keeps an argument. The types in the artifact do not depend on it.
-/
inductive Ownership
  | owned
  | borrowed
deriving DecidableEq, Repr

structure Param where
  name : String
  type : TypeRef
  ownership : Ownership := .owned
deriving DecidableEq, Repr

inductive Synchrony
  | sync
  | async
deriving DecidableEq, Repr

structure FunctionDecl where
  name : String
  params : List Param := []
  /-- The type of the returned value, if there is one. -/
  result : Option TypeRef := none
  synchrony : Synchrony := .sync
  doc : Option String := none
deriving DecidableEq, Repr

structure Description where
  types : List TypeDecl := []
  functions : List FunctionDecl := []
deriving DecidableEq, Repr

abbrev Reference := TypeRef × Site

abbrev Mention := String × Site

def mentions (references : List Reference) : List Mention :=
  references.flatMap fun (type, site) => type.names.map fun id => (id, site)

namespace Payload

def types : Payload → List TypeRef
  | unit => []
  | newtype type => [type]
  | tuple elements => elements
  | struct fields => fields.map (·.type)

end Payload

namespace Body

def kind : Body → DeclKind
  | struct _ => .struct
  | enum _ _ => .enum
  | typeAlias _ => .typeAlias

end Body

namespace TypeDecl

def declaredName (decl : TypeDecl) : String :=
  decl.rename.getD decl.id

def kind (decl : TypeDecl) : DeclKind :=
  decl.body.kind

def site (decl : TypeDecl) (position : Nat) : Site :=
  .declaration decl.kind decl.id position

def references (decl : TypeDecl) (position : Nat) : List Reference :=
  match decl.body with
  | .struct fields =>
    fields.mapIdx fun index field => (field.type, .field decl.id field.name index)
  | .enum _ variants =>
    (variants.mapIdx fun index variant =>
      variant.payload.types.map fun type => (type, .variant decl.id variant.name index)).flatten
  | .typeAlias target => [(target, decl.site position)]

end TypeDecl

namespace Param

def isBorrowed (param : Param) : Bool :=
  param.ownership == .borrowed

end Param

namespace FunctionDecl

def isAsync (function : FunctionDecl) : Bool :=
  function.synchrony == .async

def site (function : FunctionDecl) (position : Nat) : Site :=
  .declaration .function function.name position

def references (function : FunctionDecl) : List Reference :=
  (function.params.mapIdx fun index param =>
      (param.type, .param function.name param.name index))
    ++ function.result.toList.map fun type => (type, .result function.name)

end FunctionDecl

end Bindings
