import Bindings.Native.Grammar.Function

/-!
This module contains the grammar of the items that can stand in traits, implementations and foreign
blocks.
-/

namespace Bindings.Native.Grammar

def constantItem (g : Rules) : Parser Unit := do
  word "const"
  if ← ahead fun trees => startsIdentifier trees || startsWord "_" trees then
    let _ ← anyWord
  else
    lacks [.identifier, .word "_"]
  let _ ← generics g
  sign ":"
  let _ ← g.writtenType true
  if ← skipSign "=" then
    let _ ← g.expression true
  let _ ← conditions g
  sign ";"

def staticItem (g : Rules) (untyped : Bool) : Parser Unit := do
  word "static"
  let _ ← skipWord "mut"
  let _ ← identifier
  if !(untyped && (← ahead (startsSign "="))) then
    sign ":"
    let _ ← g.writtenType true
  if ← skipSign "=" then
    let _ ← g.expression true
  sign ";"

def endsTypeBounds (trees : List TokenTree) : Bool :=
  startsWord "where" trees || startsSign "=" trees || startsSign ";" trees

/--
A type with its name, its parameters and what it is another name for. That is none where bounds
stand in front of it. Conditions can stand before the definition or behind it.
-/
def typeDefinition (g : Rules) (before behind : Bool) :
    Parser (String × List GenericParam × Option TypeExpr) := do
  word "type"
  let name ← identifier
  let generics ← generics g
  let bounded ← ahead (startsSign ":")
  behindColon (separatedUntil "+" endsTypeBounds (bound g false true))
  let conditional ← if before then conditions g else pure false
  let target ← if ← skipSign "=" then some <$> g.writtenType true else pure none
  if behind && !conditional then
    let _ ← conditions g
  sign ";"
  return (name, generics, if bounded then none else target)

def startsMacroItem (trees : List TokenTree) : Bool :=
  startsIdentifier trees || startsAnyWord ["self", "super", "crate"] trees
    || startsSign "::" trees

def macroItem (named : Bool) : Parser Unit := do
  let _ ← plainPath
  sign "!"
  if named && (← ahead fun trees => startsIdentifier trees || startsWord "try" trees) then
    let _ ← anyWord
  if (← anyGroup) ≠ .brace then sign ";"

def functionItem (g : Rules) (safe : Bool) : Parser Unit := do
  let _ ← signature g [] .inherited safe
  let _ ← functionBody g

def associatedItem (g : Rules) (inTrait : Bool) : Parser Unit := do
  let _ ← attributes g
  let visibility ← visibility
  let isDefault ←
    if !inTrait && (← ahead fun trees => startsSign "!" (trees.drop 1)) then pure false
    else skipWord "default"
  let trees ← trees
  if startsFunction false trees then functionItem g false
  else if startsWord "const" trees then constantItem g
  else if startsWord "type" trees then
    let _ ← typeDefinition g false true
  else if visibility = .inherited && !isDefault && startsMacroItem trees then macroItem false
  else
    lacks ([.word "fn", .word "const", .word "type"]
      ++ if visibility = .inherited && !isDefault then
        [.identifier, .word "self", .word "super", .word "crate", .sign "::"]
      else [])

def startsForeignStatic (trees : List TokenTree) : Bool :=
  startsWord "static" trees
    || (startsAnyWord ["unsafe", "safe"] trees && startsWord "static" (trees.drop 1))

def foreignItem (g : Rules) : Parser Unit := do
  let _ ← attributes g
  let visibility ← visibility
  let trees ← trees
  if startsFunction true trees then functionItem g true
  else if startsForeignStatic trees then
    if !startsWord "static" trees then
      let _ ← anyWord
    staticItem g false
  else if startsWord "type" trees then
    let _ ← typeDefinition g true true
  else if visibility = .inherited && startsMacroItem trees then macroItem false
  else
    lacks ([.word "fn", .word "static", .word "type"]
      ++ if visibility = .inherited then
        [.identifier, .word "self", .word "super", .word "crate", .sign "::"]
      else [])

def itemsBlock (g : Rules) (item : Parser α) : Parser (List α) :=
  group .brace do
    let _ ← innerAttributes g
    untilEnd item

end Bindings.Native.Grammar
