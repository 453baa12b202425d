/-!
This module contains the places of a description that messages point at.
-/

namespace Bindings

inductive DeclKind
  | struct
  | enum
  | typeAlias
  | function
deriving DecidableEq, Repr

def DeclKind.describe : DeclKind → String
  | struct => "struct"
  | enum => "enum"
  | typeAlias => "type alias"
  | function => "function"

/--
A place in a description. Positions and indices count from zero: a declaration among the types or
among the functions, a member among the members of its owner.
-/
inductive Site
  | declaration (kind : DeclKind) (name : String) (position : Nat)
  | field (owner name : String) (index : Nat)
  | variant (owner name : String) (index : Nat)
  | param (function name : String) (index : Nat)
  | result (function : String)
deriving DecidableEq, Repr

namespace Site

def quote (name : String) : String :=
  "`" ++ name ++ "`"

def describe : Site → String
  | declaration kind name position =>
    kind.describe ++ " " ++ quote name ++ " (declaration #" ++ position.repr ++ ")"
  | field owner name index =>
    "field " ++ quote name ++ " (#" ++ index.repr ++ ") of " ++ quote owner
  | variant owner name index =>
    "variant " ++ quote name ++ " (#" ++ index.repr ++ ") of " ++ quote owner
  | param function name index =>
    "parameter " ++ quote name ++ " (#" ++ index.repr ++ ") of " ++ quote function
  | result function => "return type of " ++ quote function

end Site

end Bindings
