import Bindings.Native.Token

/-!
This module contains native types as they are written and the tokens that write them.
-/

namespace Bindings.Native

/--
A type that has no declaration whatever it consists of.
-/
inductive Form
  | bareFunction
  | implTrait
  | traitObject
  /-- A trait object of a single bound that no word introduces. -/
  | bound
  | macroCall
  | qualifiedPath
  | other
deriving DecidableEq, Repr

mutual

inductive TypeExpr
  | path (global : Bool) (segments : List Segment)
  | reference (lifetime : Option String) (mutable : Bool) (target : TypeExpr)
  | tuple (elements : List TypeExpr) (trailingComma : Bool)
  | slice (element : TypeExpr)
  | array (element : TypeExpr) (length : List TokenTree)
  | paren (inner : TypeExpr)
  | refused (form : Form) (tokens : List TokenTree)

/--
A segment of a path. One without angle brackets has no arguments and no flags. Inputs in parentheses
are arguments of bounds only, a segment of a type never has them.
-/
inductive Segment
  | plain (name : String)
  | generic (name : String) (turbofish : Bool) (arguments : List Argument) (trailingComma : Bool)

/--
A generic argument: besides types and lifetimes there are constants, associated items and
constraints.
-/
inductive Argument
  | lifetime (text : String)
  | type (type : TypeExpr)
  | other (tokens : List TokenTree)

end

namespace Segment

def name : Segment → String
  | plain name => name
  | generic name _ _ _ => name

end Segment

def commaSeparated (trailing : Bool) : List (List TokenTree) → List TokenTree
  | [] => []
  | [row] => row ++ if trailing then Written.sign "," else []
  | row :: rows => row ++ Written.sign "," ++ commaSeparated trailing rows

/--
The tokens of generic arguments, each given with whether it is a lifetime and whether a comma
follows it. Lifetimes come first; where that leaves no comma between two arguments one is added.
-/
def orderArguments (rows : List (Bool × List TokenTree × Bool)) : List TokenTree :=
  let written : List TokenTree × Bool → List TokenTree := fun (tokens, comma) =>
    tokens ++ if comma then Written.sign "," else []
  let lifetimes := (rows.filter (·.1)).map (·.2)
  let others := (rows.filter (!·.1)).map (·.2)
  let separated := (lifetimes.getLast?.map (·.2)).getD true
  lifetimes.flatMap written
    ++ (if separated || others.isEmpty then [] else Written.sign ",") ++ others.flatMap written

mutual

def TypeExpr.tokens : TypeExpr → List TokenTree
  | .path global segments =>
    (if global then Written.sign "::" else []) ++ Segment.tokensAll segments
  | .reference lifetime mutable target =>
    Written.sign "&" ++ (lifetime.toList.map fun text => .lifetime text {})
      ++ (if mutable then [Written.word "mut"] else []) ++ target.tokens
  | .tuple elements trailing =>
    [Written.group .paren (commaSeparated trailing (TypeExpr.tokensEach elements))]
  | .slice element => [Written.group .bracket element.tokens]
  | .array element length =>
    [Written.group .bracket (element.tokens ++ Written.sign ";" ++ length)]
  | .paren inner => [Written.group .paren inner.tokens]
  | .refused _ tokens => tokens

def TypeExpr.tokensEach : List TypeExpr → List (List TokenTree)
  | [] => []
  | type :: types => type.tokens :: TypeExpr.tokensEach types

def Segment.tokensAll : List Segment → List TokenTree
  | [] => []
  | [segment] => segment.tokens
  | segment :: segments => segment.tokens ++ Written.sign "::" ++ Segment.tokensAll segments

def Segment.tokens : Segment → List TokenTree
  | .plain name => [Written.word name]
  | .generic name turbofish arguments trailing =>
    Written.word name :: (if turbofish then Written.sign "::" else []) ++ Written.sign "<"
      ++ orderArguments (Argument.rows trailing arguments) ++ Written.sign ">"

def Argument.rows (trailing : Bool) : List Argument → List (Bool × List TokenTree × Bool)
  | [] => []
  | [argument] => [argument.row trailing]
  | argument :: arguments => argument.row true :: Argument.rows trailing arguments

def Argument.row (comma : Bool) : Argument → Bool × List TokenTree × Bool
  | .lifetime text => (true, [.lifetime text {}], comma)
  | .type type => (false, type.tokens, comma)
  | .other tokens => (false, tokens, comma)

end

end Bindings.Native
