import Bindings.Native.Grammar.Rules

/-!
This module contains the grammar of attributes. What stands in their brackets is kept; an expression
as their value only has to be one.
-/

namespace Bindings.Native.Grammar

def attributeContent (g : Rules) : Parser Attribute := do
  let position ← here
  let (global, path) ←
    if ← skipWord "unsafe" then pure (false, ["unsafe"]) else plainPath
  match ← trees with
  | .group _ tokens _ closed :: _ =>
    let _ ← anyGroup
    return { global, path, position, body := .list tokens closed }
  | .punct '=' _ equals :: _ =>
    sign "="
    return { global, path, position, body := .value equals (← value) }
  | _ => return { global, path, position, body := .bare }
where
  value : Parser (Option String) := do
    let trees ← trees
    match trees, afterLiteral? trees with
    | [.literal _ text _], _ =>
      literal
      return text
    | _, some (_, []) =>
      literal
      return none
    | trees, _ =>
      if startsSign "#" trees && startsGroup .bracket (trees.drop 1) then
        complain (.broken .attributeInAttribute)
      let _ ← g.expression true
      return none

def attributes (g : Rules) : Parser (List Attribute) :=
  whileAhead (startsSign "#") do
    sign "#"
    group .bracket (attributeContent g)

def startsInnerAttribute (trees : List TokenTree) : Bool :=
  startsSign "#" trees && startsSign "!" (trees.drop 1)

def innerAttributes (g : Rules) : Parser (List Attribute) :=
  whileAhead startsInnerAttribute do
    sign "#"
    sign "!"
    group .bracket (attributeContent g)

def block (g : Rules) : Parser Unit :=
  group .brace g.statements

def attributedBlock (g : Rules) : Parser (List Attribute) :=
  group .brace do
    let attributes ← innerAttributes g
    g.statements
    return attributes

end Bindings.Native.Grammar
