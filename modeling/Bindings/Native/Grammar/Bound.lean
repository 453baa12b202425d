import Bindings.Native.Grammar.Generics

/-!
This module contains the grammar of the bounds of types.
-/

namespace Bindings.Native.Grammar

def result (g : Rules) (plus : Bool) : Parser (Option TypeExpr) := do
  if ← skipSign "->" then some <$> g.writtenType plus else return none

def captured : Parser Unit := do
  word "use"
  sign "<"
  let entries ← silently (separatedUntil "," (startsSign ">") param)
  write (orderArguments (entries.map fun ((first, tokens), comma) => (first, tokens, comma)))
  sign ">"
where
  param : Parser (Bool × List TokenTree) := do
    let entry ← recorded name
    if !(← ahead endsConstraint) then lacks [.sign ",", .sign ">"]
    return entry
  name : Parser Bool := do
    if ← ahead startsLifetime then
      let _ ← lifetime
      return true
    else if ← ahead fun trees => startsIdentifier trees || startsWord "Self" trees then
      let _ ← anyWord
      return false
    else
      lacks [.lifetime, .identifier, .sign ">"]

def constness (allowed : Bool) : Parser Bool := do
  let position ← here
  if ← ahead (startsGroup .bracket) then
    group .bracket (word "const")
    if !allowed then complainAt position (.broken .conditionalBound)
    return true
  else if ← skipWord "const" then
    if !allowed then complainAt position (.broken .constBound)
    return true
  else
    return false

/--
The path of a trait. Inputs in parentheses take the place of missing arguments.
-/
def traitPath (g : Rules) : Parser Unit := do
  let (global, segments) ← silently (path g false)
  let trees ← trees
  if (bare? segments).isSome && startsGroup .paren ((afterSign? "::" trees).getD trees) then
    let _ ← silently (skipSign "::")
    write (TypeExpr.path global ((bare? segments).getD segments)).tokens
    group .paren do
      let _ ← terminated (g.writtenType true)
    let _ ← result g false
  else
    write (TypeExpr.path global segments).tokens
where
  bare? : List Segment → Option (List Segment)
    | [] => none
    | [.plain name] | [.generic name _ [] _] => some [.plain name]
    | [_] => none
    | segment :: segments => (bare? segments).map (segment :: ·)

def traitBound (g : Rules) (const : Bool) : Parser Bool := do
  let quantified ← skipBinder g
  let isConst ← constness const
  let position ← here
  let relaxed ← skipSign "?"
  let quantified ← if relaxed && !quantified then skipBinder g else pure quantified
  traitPath g
  if relaxed && quantified then complainAt position (.broken .polarityWithBinder)
  return isConst

/--
A bound. One that holds for constants only is written as it stands.
-/
def bound (g : Rules) (capture const : Bool) : Parser Bound := do
  let before ← trees
  if startsLifetime before then
    let _ ← lifetime
    return .lifetime
  if startsWord "use" before then
    let position ← here
    captured
    if !capture then complainAt position (.broken .captureBound)
    return .capture
  let (isConst, tokens) ← recorded do
    if startsGroup .paren before then group .paren (traitBound g const) else traitBound g const
  let taken ← takenSince before
  write (if isConst then taken else tokens)
  return .trait

def startsBound (const : Bool) (trees : List TokenTree) : Bool :=
  startsSomeWord trees || startsSign "::" trees || startsSign "?" trees || startsLifetime trees
    || startsGroup .paren trees || (const && startsGroup .bracket trees)

def moreBounds (g : Rules) (capture const : Bool) : Parser (List Bound) := do
  if ← skipSign "+" then
    let entries ← separatedWhile "+" (!startsBound const ·) (bound g capture const)
    return entries.map (·.1)
  else
    return []

def bounds (g : Rules) (plus capture const : Bool) : Parser (List Bound) := do
  let first ← bound g capture const
  let others ← if plus then moreBounds g capture const else pure []
  return first :: others

end Bindings.Native.Grammar
