import Bindings.Native.Grammar.AssociatedItem

/-!
This module contains the grammar of items.
-/

namespace Bindings.Native.Grammar

def skipAlias (missing : Expectation) : Parser Unit := do
  if ← skipWord "as" then
    if ← ahead fun trees => startsIdentifier trees || startsWord "_" trees then
      let _ ← anyWord
    else if missing = .identifier then
      let _ ← identifier
    else
      lacks [missing]

/--
What an import names. Names in braces may begin at the root of the crates where nothing stands in
front of them.
-/
def importTree (g : Rules) (root : Bool) : Parser Unit := do
  let trees ← trees
  if startsIdentifier trees || startsAnyWord ["self", "super", "crate", "try"] trees then
    let _ ← anyWord
    if ← skipSign "::" then g.importTree false else skipAlias .identifierOrUnderscore
  else if startsSign "*" trees then
    sign "*"
  else if startsGroup .brace trees then
    group .brace do
      let _ ← terminated do
        let rooted ← if root then skipSign "::" else pure false
        g.importTree (root && !rooted)
  else
    lacks [.identifier, .word "self", .word "super", .word "crate", .word "try", .sign "*", .braces]

def importItem (g : Rules) : Parser Unit := do
  word "use"
  let global ← skipSign "::"
  importTree g !global
  sign ";"

def externalCrate : Parser Unit := do
  word "extern"
  word "crate"
  if !(← skipWord "self") then
    let _ ← identifier
  skipAlias .identifier
  sign ";"

def foreignBlock (g : Rules) : Parser Unit := do
  let _ ← skipWord "unsafe"
  word "extern"
  if ← ahead startsString then literal
  let _ ← itemsBlock g (foreignItem g)

def externItem (g : Rules) (visibility : Visibility) : Parser Unit := do
  let trees ← trees
  if startsWord "crate" (trees.drop 1) then
    externalCrate
  else if visibility = .inherited then
    foreignBlock g
  else
    lacks [.word "extern"]

def traitBody (g : Rules) : Parser Unit := do
  behindColon (separatedUntil "+" endsSupertraits (bound g false true))
  let _ ← conditions g
  let _ ← itemsBlock g (associatedItem g true)
where
  endsSupertraits (trees : List TokenTree) : Bool :=
    startsWord "where" trees || startsGroup .brace trees

def traitAlias (g : Rules) : Parser Unit := do
  sign "="
  let _ ← separatedUntil "+" endsBounds (bound g false false)
  let _ ← conditions g
  sign ";"
where
  endsBounds (trees : List TokenTree) : Bool :=
    startsWord "where" trees || startsSign ";" trees

def traitItem (g : Rules) : Parser Unit := do
  let plain ← ahead (startsWord "trait")
  let _ ← skipWord "unsafe"
  let _ ← skipWord "auto"
  word "trait"
  let _ ← identifier
  let _ ← generics g
  let trees ← trees
  if plain && startsSign "=" trees then
    traitAlias g
  else if !plain || startsGroup .brace trees || startsSign ":" trees
      || startsWord "where" trees then
    traitBody g
  else
    lacks [.braces, .sign ":", .word "where", .sign "="]

def implementation (g : Rules) : Parser Unit := do
  let _ ← skipWord "default"
  let _ ← skipWord "unsafe"
  word "impl"
  if ← ahead startsGenerics then
    let _ ← generics g
  if ← ahead fun trees => startsSign "?" trees && startsWord "const" (trees.drop 1) then
    sign "?"
  let _ ← skipWord "const"
  let position ← here
  let negative ← ahead fun trees => startsSign "!" trees && !startsGroup .brace (trees.drop 1)
  if negative then sign "!"
  let _ ← g.writtenType true
  if ← skipWord "for" then
    let _ ← g.writtenType true
  else if negative then
    complainAt position (.broken .negativeInherent)
  let _ ← conditions g
  let _ ← itemsBlock g (associatedItem g false)

def macroDefinition : Parser Unit := do
  word "macro"
  let _ ← identifier
  let matched ← ahead (startsGroup .paren)
  if matched then group .paren everything
  if !(← ahead (startsGroup .brace)) then
    lacks ((if matched then [] else [.parentheses]) ++ [.braces])
  group .brace everything

def unionItem (g : Rules) : Parser Unit := do
  word "union"
  let _ ← identifier
  let _ ← generics g
  let _ ← conditions g
  let _ ← group .brace (namedFields g)

def structItem (g : Rules) (attributes : List Attribute) (visibility : Visibility) :
    Parser Item := do
  word "struct"
  let name ← identifier
  let generics ← generics g
  return .struct ⟨attributes, visibility, name, generics⟩ (← structFields g)

def enumItem (g : Rules) (attributes : List Attribute) (visibility : Visibility) :
    Parser Item := do
  word "enum"
  let name ← identifier
  let generics ← generics g
  let _ ← conditions g
  let variants ← group .brace (terminated (variantItem g))
  return .enum ⟨attributes, visibility, name, generics⟩ (variants.map (·.1))

def aliasItem (g : Rules) (attributes : List Attribute) (visibility : Visibility) :
    Parser Item := do
  match ← typeDefinition g true false with
  | (name, generics, some target) =>
    return .typeAlias ⟨attributes, visibility, name, generics⟩ target
  | (_, _, none) => return .other

def freeFunction (g : Rules) (attributes : List Attribute) (visibility : Visibility) :
    Parser Item := do
  let function ← signature g attributes visibility false
  match ← functionBody g with
  | some inner => return .function { function with attributes := attributes ++ inner }
  | none => return .other

def moduleItem (g : Rules) : Parser Item := do
  let _ ← skipWord "unsafe"
  word "mod"
  if !(← skipWord "try") then
    let _ ← identifier
  let trees ← trees
  if startsSign ";" trees then
    sign ";"
    return .module none
  else if startsGroup .brace trees then
    return .module (some (← itemsBlock g g.item))
  else
    lacks [.sign ";", .braces]

def unsafeItem (g : Rules) (visibility : Visibility) : Parser Item := do
  let trees := (← trees).drop 1
  if startsWord "mod" trees then
    moduleItem g
  else
    if startsWord "trait" trees
        || (startsWord "auto" trees && startsWord "trait" (trees.drop 1)) then
      traitItem g
    else if startsWord "impl" trees then implementation g
    else if startsWord "extern" trees && visibility = .inherited then foreignBlock g
    else
      word "unsafe"
      lacks [.word "trait", .word "impl", .word "extern", .word "mod"]
    return .other

def otherItem (g : Rules) (visibility : Visibility) : Parser Unit := do
  let trees ← trees
  let next := trees.drop 1
  if startsWord "extern" trees then externItem g visibility
  else if startsWord "use" trees then importItem g
  else if startsWord "static" trees then staticItem g true
  else if startsWord "const" trees then constantItem g
  else if startsWord "union" trees && startsIdentifier next then unionItem g
  else if startsWord "trait" trees || (startsWord "auto" trees && startsWord "trait" next) then
    traitItem g
  else if startsWord "impl" trees || (startsWord "default" trees && !startsSign "!" next) then
    implementation g
  else if startsWord "macro" trees then macroDefinition
  else if visibility = .inherited && startsMacroItem trees then macroItem true
  else
    lacks (["fn", "extern", "use", "static", "const", "unsafe", "mod", "type", "struct", "enum",
      "union", "trait", "auto", "impl", "default", "macro"].map .word
      ++ if visibility = .inherited then
        [.identifier, .word "self", .word "super", .word "crate", .sign "::"]
      else [])

def itemWith (g : Rules) (attributes : List Attribute) : Parser Item := do
  let visibility ← visibility
  let trees ← trees
  if startsFunction false trees then freeFunction g attributes visibility
  else if startsWord "unsafe" trees then unsafeItem g visibility
  else if startsWord "mod" trees then moduleItem g
  else if startsWord "type" trees then aliasItem g attributes visibility
  else if startsWord "struct" trees then structItem g attributes visibility
  else if startsWord "enum" trees then enumItem g attributes visibility
  else
    otherItem g visibility
    return .other

def item (g : Rules) : Parser Item := do
  itemWith g (← attributes g)

end Bindings.Native.Grammar
