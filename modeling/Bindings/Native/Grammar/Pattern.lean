import Bindings.Native.Grammar.Member
import Bindings.Native.Grammar.Type

/-!
This module contains the grammar of patterns. What matters of a pattern is whether it is a name.
-/

namespace Bindings.Native.Grammar

def rangeSign (obsolete : Bool) : Parser Bool := do
  let trees ← trees
  if startsSign "..=" trees then
    sign "..="
    return true
  else if startsSign "..." trees then
    if obsolete then
      silently (sign "...")
      write (Written.sign "..=")
      return true
    else
      lacks [.sign "..="]
  else if startsSign ".." trees then
    sign ".."
    return false
  else
    lacks [.sign ".."]

def endsPattern (trees : List TokenTree) : Bool :=
  trees.isEmpty || startsSign "|" trees || startsSign "=" trees || startsSignOnly ":" ["::"] trees
    || startsSign "," trees || startsSign ";" trees || startsWord "if" trees

def rangeBound (g : Rules) : Parser Bool := do
  if ← ahead endsPattern then return false
  if ← ahead startsLiteral then
    literal
  else if ← ahead startsPath then
    let path ← pathType g true
    write path.tokens
  else if ← ahead (startsWord "const") then
    word "const"
    let _ ← attributedBlock g
  else
    lacks [.literal, .identifier, .sign "::", .sign "<", .word "self", .word "Self", .word "super",
      .word "crate", .word "const"]
  return true

def rangeRest (g : Rules) : Parser Pattern := do
  if ← ahead (startsSign "..") then
    let position ← here
    let closed ← rangeSign true
    let bounded ← rangeBound g
    if bounded then return .other
    if closed then complain (.expected [.upperBound])
    return .openRange position
  else
    return .other

def upperRange (g : Rules) : Parser Pattern := do
  let position ← here
  let closed ← rangeSign false
  if ← rangeBound g then return .openRange position
  if closed then complain (.expected [.upperBound])
  return .rest

def alternatives (g : Rules) : Parser Pattern := do
  let leading ← skipSign "|"
  let first ← g.pattern
  let others ← whileAhead (startsSignOnly "|" ["||", "|="]) do
    sign "|"
    g.pattern
  return if leading || !others.isEmpty then .other else first

def fieldPattern (g : Rules) : Parser Unit := do
  let boxed ← skipWord "box"
  let byReference ← skipWord "ref"
  let mutable ← skipWord "mut"
  if boxed || byReference || mutable then
    let _ ← identifier
  else
    let named ← member
    if !named || (← ahead (startsSign ":")) then
      sign ":"
      let _ ← alternatives g

def fieldPatterns (g : Rules) : Parser Unit :=
  repeating step ()
where
  step (_ : Unit) : Parser (Unit ⊕ Unit) := do
    if ← atEnd then return .inr ()
    let _ ← attributes g
    if ← ahead (startsSign "..") then
      sign ".."
      return .inr ()
    fieldPattern g
    if ← atEnd then return .inr ()
    sign ","
    return .inl ()

def pathPattern (g : Rules) : Parser Pattern := do
  let path ← pathType g true
  write path.tokens
  if ← ahead (startsMacroCall path) then
    let _ ← macroArguments
    return .other
  else if ← ahead (startsGroup .brace) then
    group .brace (fieldPatterns g)
    return .other
  else if ← ahead (startsGroup .paren) then
    let _ ← group .paren (terminated (alternatives g))
    return .other
  else
    rangeRest g

def namePattern (g : Rules) : Parser Pattern := do
  let _ ← skipWord "ref"
  let _ ← skipWord "mut"
  let name ← if ← ahead (startsWord "self") then anyWord else identifier
  if ← skipSign "@" then
    let _ ← g.pattern
  return .name name

def slicePatterns (g : Rules) : Parser Unit := do
  let _ ← terminated do
    match ← alternatives g with
    | .openRange position => complainAt position (.broken .halfRangeInSlice)
    | _ => return ()

def startsPathPattern (trees : List TokenTree) : Bool :=
  (startsIdentifier trees && (startsSign "::" after || startsSign "!" after
      || startsGroup .brace after || startsGroup .paren after || startsSign ".." after))
    || (startsWord "self" trees && startsSign "::" after) || startsSign "::" trees
    || startsSign "<" trees || startsAnyWord ["Self", "super", "crate"] trees
where
  after := trees.drop 1

def pattern (g : Rules) : Parser Pattern := do
  let trees ← trees
  if startsPathPattern trees then
    pathPattern g
  else if startsWord "_" trees then
    word "_"
    return .other
  else if startsWord "box" trees then
    verbatim do
      word "box"
      let _ ← g.pattern
    return .other
  else if startsSign "-" trees || startsLiteral trees || startsWord "const" trees then
    let _ ← rangeBound g
    rangeRest g
  else if startsAnyWord ["ref", "mut", "self"] trees || startsIdentifier trees then
    namePattern g
  else if startsSign "&" trees then
    sign "&"
    let _ ← skipWord "mut"
    let _ ← g.pattern
    return .other
  else if startsGroup .paren trees then
    let _ ← group .paren (terminated (alternatives g))
    return .other
  else if startsGroup .bracket trees then
    group .bracket (slicePatterns g)
    return .other
  else if startsSignOnly ".." ["..."] trees then
    upperRange g
  else
    lacks ([.identifier, .sign "::", .sign "<", .word "_", .literal, .word "const", .word "ref",
      .word "mut", .sign "&", .parentheses, .brackets]
      ++ if startsSign "..." trees then [] else [.sign ".."])

end Bindings.Native.Grammar
