import Bindings.Native.Grammar.Path

/-!
This module contains the grammar of generic parameters and of the conditions on them.
-/

namespace Bindings.Native.Grammar

def behindColon (bounds : Parser (List α)) : Parser Unit := do
  if ← ahead (startsSign ":") then
    let (bounds, tokens) ← recorded do
      sign ":"
      bounds
    if !bounds.isEmpty then write tokens

def endsParam (trees : List TokenTree) : Bool :=
  trees.isEmpty || startsSign "," trees || startsSign ">" trees || startsSign "=" trees

def lifetimeParam : Parser GenericParam := do
  let _ ← lifetime
  behindColon (separatedWhile "+" endsConstraint lifetime)
  return .lifetime

def typeParam (g : Rules) : Parser GenericParam := do
  let name ← identifier
  behindColon (separatedWhile "+" endsParam (g.bound false true))
  if ← skipSign "=" then
    let _ ← g.writtenType true
  return .type name

def constParam (g : Rules) : Parser GenericParam := do
  word "const"
  let name ← identifier
  sign ":"
  let _ ← g.writtenType true
  if ← skipSign "=" then constant g
  return .const name

def binder (g : Rules) : Parser Unit := do
  word "for"
  sign "<"
  let _ ← separatedUntil "," (startsSign ">") param
  sign ">"
where
  param : Parser GenericParam := do
    let _ ← attributes g
    if ← ahead startsIdentifier then typeParam g
    else if ← ahead startsLifetime then lifetimeParam
    else if ← ahead (startsWord "const") then constParam g
    else lacks [.identifier, .lifetime, .word "const"]

def skipBinder (g : Rules) : Parser Bool := do
  if ← ahead (startsWord "for") then
    binder g
    return true
  else
    return false

def genericParam (g : Rules) : Parser (GenericParam × List TokenTree) :=
  recorded do
    let _ ← attributes g
    if ← ahead startsLifetime then lifetimeParam
    else if ← ahead startsIdentifier then typeParam g
    else if ← ahead (startsWord "const") then constParam g
    else if ← ahead (startsWord "_") then .type <$> anyWord
    else lacks [.lifetime, .identifier, .word "const"]

/--
Generic parameters, if there are any. Lifetimes are written first, and brackets without parameters
leave no trace.
-/
def generics (g : Rules) : Parser (List GenericParam) := do
  if !(← ahead (startsSign "<")) then return []
  let entries ← silently do
    sign "<"
    let entries ← separatedUntil "," (startsSign ">") (genericParam g)
    sign ">"
    return entries
  if !entries.isEmpty then
    write (Written.sign "<" ++ orderArguments (entries.map row) ++ Written.sign ">")
  return entries.map fun ((param, _), _) => param
where
  row : (GenericParam × List TokenTree) × Bool → Bool × List TokenTree × Bool
    | ((.lifetime, tokens), comma) => (true, tokens, comma)
    | ((_, tokens), comma) => (false, tokens, comma)

/--
Whether generic parameters begin, where a path behind a type in angle brackets could begin too.
-/
def startsGenerics (trees : List TokenTree) : Bool :=
  startsSign "<" trees
    && (startsSign ">" first || startsSign "#" first || startsWord "const" first
      || ((startsLifetime first || startsIdentifier first)
        && (startsSign ">" second || startsSign "," second || startsSignOnly ":" ["::"] second
          || startsSign "=" second)))
where
  first := trees.drop 1
  second := trees.drop 2

def endsConditions (trees : List TokenTree) : Bool :=
  trees.isEmpty || startsGroup .brace trees || startsSign "," trees || startsSign ";" trees
    || startsSignOnly ":" ["::"] trees || startsSign "=" trees

def endsOutlived (trees : List TokenTree) : Bool :=
  endsConditions trees || startsSign ":" trees

def condition (g : Rules) : Parser Unit := do
  let trees ← trees
  if startsLifetime trees && startsSign ":" (trees.drop 1) then
    let _ ← lifetime
    sign ":"
    let _ ← separatedWhile "+" endsOutlived lifetime
  else
    let _ ← skipBinder g
    let _ ← g.writtenType true
    sign ":"
    let _ ← separatedWhile "+" endsConditions (g.bound false true)

def conditions (g : Rules) : Parser Bool := do
  if !(← ahead (startsWord "where")) then return false
  let (conditions, tokens) ← recorded do
    word "where"
    if ← ahead startsGenerics then complain (.broken .parameterizedConditions)
    separatedWhile "," endsConditions (condition g)
  if !conditions.isEmpty then write tokens
  return true

end Bindings.Native.Grammar
