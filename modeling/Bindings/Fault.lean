import Bindings.Json.Fault
import Bindings.Native.SourceFault

/-!
This module contains the reasons for which no artifact is produced and their messages.
-/

namespace Bindings

structure Unresolved where
  id : String
  site : Site
deriving DecidableEq, Repr

structure Duplicate where
  id : String
  first : Site
  second : Site
deriving DecidableEq, Repr

inductive Malformation
  | emptyIdentifier
  | invalidIdentifier (name : String)
  | reservedWord (name : String)
  | emptyFieldName
  | notFlattenable
  | emptyVariantName
  | internallyTaggedTuple
  | fieldNamedLikeTag (tag : String)
  | emptyTag
  | emptyTagOrContent
  | tagIsContent (name : String)
  | contentWithoutTag
  | receiver
  | paramPattern
  | typeParameter (name : String)
  | constParameter (name : String)
  | type (refusal : Native.Refusal)
deriving DecidableEq, Repr

structure Malformed where
  site : Site
  reason : Malformation
deriving DecidableEq, Repr

inductive Fault
  | unresolved (fault : Unresolved)
  | duplicate (fault : Duplicate)
  | malformed (fault : Malformed)
  | description (fault : Json.Fault)
  | source (fault : Native.SourceFault)
deriving DecidableEq, Repr

namespace Unresolved

def message (fault : Unresolved) : String :=
  "unresolved type " ++ Site.quote fault.id ++ " referenced by " ++ fault.site.describe

end Unresolved

namespace Duplicate

def message (fault : Duplicate) : String :=
  "duplicate identifier " ++ Site.quote fault.id ++ ": declared by " ++ fault.first.describe
    ++ " and by " ++ fault.second.describe

end Duplicate

namespace Malformation

def message : Malformation → String
  | emptyIdentifier => "empty identifier"
  | invalidIdentifier name => Site.quote name ++ " is not a valid identifier"
  | reservedWord name => Site.quote name ++ " is a reserved word"
  | emptyFieldName => "empty field name"
  | notFlattenable => "only structs, enums and maps can be flattened"
  | emptyVariantName => "empty variant name"
  | internallyTaggedTuple => "tuple variants cannot be internally tagged"
  | fieldNamedLikeTag tag => "a field collides with the tag " ++ Site.quote tag
  | emptyTag => "empty tag name"
  | emptyTagOrContent => "empty tag or content name"
  | tagIsContent name => "tag and content share the name " ++ Site.quote name
  | contentWithoutTag => "`content` requires `tag`"
  | receiver => "methods cannot be declared as free functions"
  | paramPattern => "parameters must be plain identifiers"
  | typeParameter name => "generic type parameter " ++ Site.quote name ++ " is not supported"
  | constParameter name => "const generic parameter " ++ Site.quote name ++ " is not supported"
  | type refusal => refusal.message

end Malformation

namespace Malformed

def message (fault : Malformed) : String :=
  "malformed input at " ++ fault.site.describe ++ ": " ++ fault.reason.message

end Malformed

namespace Fault

def message? : Fault → Option String
  | unresolved fault => some fault.message
  | duplicate fault => some fault.message
  | malformed fault => some fault.message
  | description fault => fault.message?
  | source fault => fault.message?

end Fault

end Bindings
