import Bindings.Native.Grammar.Expression

/-!
This module contains the grammar of visibilities, of the fields of structs and of the variants of
enums.
-/

namespace Bindings.Native.Grammar

/--
Parentheses behind `pub` belong to it if they hold one of a few words or begin with `in`.
-/
def restricts : List TokenTree → Bool
  | .group .paren [.word text _] _ _ :: _ => ["crate", "self", "super", "in"].contains text
  | .group .paren (.word text _ :: _) _ _ :: _ => text == "in"
  | _ => false

def visibility : Parser Visibility := do
  if !(← skipWord "pub") then return .inherited
  if !(← ahead restricts) then return .everywhere
  group .paren do
    if ← skipWord "in" then
      let _ ← plainPath
    else
      let _ ← anyWord
  return .restricted

def startsFields (trees : List TokenTree) : Bool :=
  startsWord "struct" trees || (startsWord "union" trees && startsGroup .brace (trees.drop 1))

def namedField (g : Rules) : Parser FieldItem := do
  let attributes ← attributes g
  let _ ← visibility
  let unnamed ← ahead (startsWord "_")
  let name ← if unnamed then anyWord else identifier
  sign ":"
  if unnamed && (← ahead startsFields) then
    let before ← trees
    verbatim do
      let _ ← anyWord
      let _ ← group .brace g.fields
    return ⟨attributes, some name, .refused .other (← takenSince before)⟩
  else
    return ⟨attributes, some name, ← g.writtenType true⟩

def tupleField (g : Rules) : Parser FieldItem := do
  let attributes ← attributes g
  let _ ← visibility
  return ⟨attributes, none, ← g.writtenType true⟩

def namedFields (g : Rules) : Parser (List FieldItem) := do
  return (← terminated (namedField g)).map (·.1)

def variantFields (g : Rules) : Parser FieldItems := do
  let trees ← trees
  if startsGroup .brace trees then
    return .named (← group .brace (namedFields g))
  else if startsGroup .paren trees then
    return .tuple ((← group .paren (terminated (tupleField g))).map (·.1))
  else
    return .unit

/--
A variant of an enum. The number that stands for it is left out, and a visibility leaves no trace.
-/
def variantItem (g : Rules) : Parser VariantItem := do
  let attributes ← attributes g
  let _ ← silently visibility
  let name ← identifier
  let fields ← variantFields g
  if ← skipSign "=" then
    let _ ← g.expression true
  return ⟨attributes, name, fields⟩

/--
The fields of a struct with the conditions on its parameters. Only named fields need no semicolon,
and the conditions stand in front of them.
-/
def structFields (g : Rules) : Parser FieldItems := do
  let conditional ← conditions g
  let trees ← trees
  if !conditional && startsGroup .paren trees then
    let fields ← group .paren (terminated (tupleField g))
    let conditional ← conditions g
    if !(← ahead (startsSign ";")) then
      lacks ((if conditional then [] else [.word "where"]) ++ [.sign ";"])
    sign ";"
    return .tuple (fields.map (·.1))
  else if startsGroup .brace trees then
    return .named (← group .brace (namedFields g))
  else if startsSign ";" trees then
    sign ";"
    return .unit
  else
    lacks ((if conditional then [] else [.word "where", .parentheses]) ++ [.braces, .sign ";"])

end Bindings.Native.Grammar
