import Bindings.Native.TypeExpr

/-!
This module contains the items of native source text, as far as a description depends on them.
-/

namespace Bindings.Native

inductive AttributeBody
  | bare
  /-- Tokens in brackets that are closed at a position. -/
  | list (tokens : List TokenTree) (closed : Position)
  /-- A value behind an equals sign at a position; what it denotes, if it is one string literal. -/
  | value (position : Position) (text : Option String)

structure Attribute where
  global : Bool := false
  path : List String
  position : Position := {}
  body : AttributeBody

namespace Attribute

def isNamed (a : Attribute) (name : String) : Bool :=
  !a.global && a.path == [name]

end Attribute

inductive Visibility
  | everywhere
  | restricted
  | inherited
deriving DecidableEq

namespace Visibility

def isPublic : Visibility → Bool
  | everywhere => true
  | _ => false

end Visibility

inductive GenericParam
  | lifetime
  | type (name : String)
  | const (name : String)

structure FieldItem where
  attributes : List Attribute
  name : Option String
  type : TypeExpr

inductive FieldItems
  | unit
  | tuple (fields : List FieldItem)
  | named (fields : List FieldItem)

structure VariantItem where
  attributes : List Attribute
  name : String
  fields : FieldItems

inductive InputItem
  | receiver
  /-- A pattern and its type; the name that the pattern is, if it is one. -/
  | typed (name : Option String) (type : TypeExpr)

def InputItem.isReceiver : InputItem → Bool
  | receiver => true
  | typed _ _ => false

structure FunctionItem where
  attributes : List Attribute
  visibility : Visibility
  isAsync : Bool
  name : String
  generics : List GenericParam
  inputs : List InputItem
  output : Option TypeExpr

structure TypeItemHead where
  attributes : List Attribute
  visibility : Visibility
  name : String
  generics : List GenericParam

inductive Item
  | function (item : FunctionItem)
  | struct (head : TypeItemHead) (fields : FieldItems)
  | enum (head : TypeItemHead) (variants : List VariantItem)
  | typeAlias (head : TypeItemHead) (target : TypeExpr)
  /-- A module, with its items if it stands in the same file. -/
  | module (items : Option (List Item))
  | other

end Bindings.Native
