import Bindings.Native.Grammar.Bound

/-!
This module contains the grammar of types. A type that has a declaration is read without being
written down, and so is what it consists of; the tokens of any other type are recorded.
-/

namespace Bindings.Native.Grammar

def skipConvention : Parser Unit := do
  if ← skipWord "extern" then
    if ← ahead startsString then literal

def startsVariadic (trees : List TokenTree) : Bool :=
  startsSign "..." trees
    || ((startsIdentifier trees || startsWord "_" trees) && startsSign ":" (trees.drop 1)
      && startsSign "..." (trees.drop 2))

def startsInputName (first : Bool) (trees : List TokenTree) : Bool :=
  (startsIdentifier trees || startsWord "_" trees || (first && startsWord "self" trees))
    && startsSignOnly ":" ["::"] (trees.drop 1)

def bareInput (g : Rules) (first : Bool) : Parser Unit := do
  let trees ← trees
  if first && startsWord "mut" trees && startsWord "self" (trees.drop 1) then
    verbatim do
      word "mut"
      let named ← ahead (startsInputName true)
      word "self"
      if named then
        sign ":"
        let _ ← g.type true
  else
    if startsInputName first trees then
      let _ ← anyWord
      sign ":"
    let _ ← g.writtenType true

def variadicInput : Parser Unit := do
  if !(← ahead (startsSign "...")) then
    let _ ← anyWord
    sign ":"
  sign "..."
  let _ ← skipSign ","

def bareInputs (g : Rules) : Parser Unit :=
  repeating step true
where
  step (first : Bool) : Parser (Bool ⊕ Unit) := do
    if ← atEnd then return .inr ()
    let _ ← attributes g
    if ← ahead startsVariadic then
      variadicInput
      return .inr ()
    bareInput g first
    if ← atEnd then return .inr ()
    sign ","
    return .inl false

def startsBareFunction (trees : List TokenTree) : Bool :=
  startsAnyWord ["fn", "unsafe", "extern"] trees

def bareFunction (g : Rules) : Parser Unit := do
  let _ ← skipWord "unsafe"
  skipConvention
  word "fn"
  group .paren (bareInputs g)
  let _ ← result g false

def objectBounds (g : Rules) (plus : Bool) (position : Position) : Parser Unit := do
  let bounds ← bounds g plus false false
  if !bounds.contains .trait then complainAt position (.broken .noTraitInObject)

def objectType (g : Rules) (plus : Bool) : Parser TypeExpr := do
  let before ← trees
  let position ← here
  let (starred, tokens) ← recorded do
    word "dyn"
    let starred ← skipSign "*"
    objectBounds g plus position
    return starred
  if starred then
    return .refused .other (← takenSince before)
  else
    return .refused .traitObject tokens

def implType (g : Rules) (plus : Bool) : Parser Unit := do
  let position ← here
  word "impl"
  let bounds ← bounds g plus true true
  if !bounds.contains .trait then complainAt position (.broken .noTrait)

def namedType (g : Rules) (plus : Bool) : Parser TypeExpr := do
  let path ← pathType g false
  if ← ahead (startsMacroCall path) then
    return .refused .macroCall (path.tokens ++ (← tokensOf macroArguments))
  match path with
  | .path _ _ =>
    if plus && (← ahead (startsSign "+")) then
      return .refused .traitObject (path.tokens ++ (← tokensOf (moreBounds g false false)))
    else
      return path
  | path => return path

def quantifiedType (g : Rules) (plus : Bool) : Parser TypeExpr := do
  let quantifier ← tokensOf (binder g)
  if ← ahead startsBareFunction then
    return .refused .bareFunction (quantifier ++ (← tokensOf (bareFunction g)))
  if !(← ahead fun trees => startsIdentifier trees || startsAnyWord pathKeywords trees) then
    lacks ([.identifier] ++ ["fn", "unsafe", "extern", "super", "self", "Self", "crate"].map .word)
  let path ← pathType g false
  if ← ahead (startsMacroCall path) then
    return .refused .macroCall (path.tokens ++ (← tokensOf macroArguments))
  let more ← if plus then tokensOf (moreBounds g false false) else pure []
  return .refused (if more.isEmpty then .bound else .traitObject)
    (quantifier ++ path.tokens ++ more)

def furtherBounds (g : Rules) : Parser (List Bound) :=
  whileAhead (startsSign "+") do
    sign "+"
    bound g false false

def firstBound? : TypeExpr → Option (List TokenTree)
  | .path global segments => some [Written.group .paren (TypeExpr.path global segments).tokens]
  | .refused .bound [.group .paren body opened closed] => some [.group .paren body opened closed]
  | .refused .bound tokens => some [Written.group .paren tokens]
  | _ => none

def elements (g : Rules) : Parser (List (TypeExpr × Bool)) := do
  if ← atEnd then return []
  let first ← g.type true
  if ← skipSign "," then
    let others ← terminated (g.type true)
    return (first, true) :: others
  else
    return [(first, false)]

def parenthesizedType (g : Rules) (plus : Bool) : Parser TypeExpr := do
  let inside := match ← trees with
    | .group _ body _ _ :: _ => body
    | _ => []
  if startsLifetime inside then
    let bounds ← group .paren do
      let position ← here
      tokensOf (objectBounds g true position)
    return .paren (.refused .traitObject bounds)
  if startsSign "?" inside then
    let first ← tokensOf (group .paren (traitBound g false))
    let more ← tokensOf (furtherBounds g)
    return .refused (if more.isEmpty then .bound else .traitObject) (first ++ more)
  match ← group .paren (elements g) with
  | [(type, false)] =>
    match firstBound? type with
    | some first =>
      if plus && (← ahead (startsSign "+")) then
        return .refused .traitObject (first ++ (← tokensOf (furtherBounds g)))
      else
        return .paren type
    | none => return .paren type
  | entries => return .tuple (entries.map (·.1)) ((entries.getLast?.map (·.2)).getD false)

def sequenceType (g : Rules) : Parser TypeExpr :=
  group .bracket do
    let element ← g.type true
    if ← skipSign ";" then
      return .array element (← tokensOf (g.expression true))
    else
      return .slice element

def referenceType (g : Rules) : Parser TypeExpr := do
  sign "&"
  let lifetime ← skipLifetime
  let mutable ← skipWord "mut"
  return .reference lifetime mutable (← g.type false)

def pointerType (g : Rules) : Parser Unit := do
  sign "*"
  if ← ahead (startsAnyWord ["const", "mut"]) then
    let _ ← anyWord
  else
    lacks [.word "const", .word "mut"]
  let _ ← g.writtenType false

/--
A type. Bounds may follow a plus sign unless the place rules that out.
-/
def type (g : Rules) (plus : Bool) : Parser TypeExpr := do
  let trees ← trees
  if startsWord "for" trees then quantifiedType g plus
  else if startsGroup .paren trees then parenthesizedType g plus
  else if startsBareFunction trees then .refused .bareFunction <$> tokensOf (bareFunction g)
  else if startsPath trees then namedType g plus
  else if startsWord "dyn" trees then objectType g plus
  else if startsGroup .bracket trees then sequenceType g
  else if startsSign "*" trees then .refused .other <$> tokensOf (pointerType g)
  else if startsSign "&" trees then referenceType g
  else if startsSign "!" trees then .refused .other <$> tokensOf (sign "!")
  else if startsWord "impl" trees then .refused .implTrait <$> tokensOf (implType g plus)
  else if startsWord "_" trees then .refused .other <$> tokensOf (word "_")
  else if startsLifetime trees then
    let position ← here
    .refused .traitObject <$> tokensOf (objectBounds g true position)
  else
    lacks [.word "for", .parentheses, .word "fn", .word "unsafe", .word "extern", .identifier,
      .sign "::", .sign "<", .word "dyn", .brackets, .sign "*", .sign "&", .sign "!", .word "impl",
      .word "_", .lifetime]

end Bindings.Native.Grammar
