import Bindings.Native.Grammar.Attribute

/-!
This module contains the grammar of paths and of the arguments in their angle brackets.
-/

namespace Bindings.Native.Grammar

def startsArguments (inExpression : Bool) (trees : List TokenTree) : Bool :=
  (!inExpression && startsSignOnly "<" ["<=", "<<="] trees)
    || match afterSign? "::" trees with
      | some rest => startsSign "<" rest
      | none => false

def constant (g : Rules) : Parser Unit := do
  if ← ahead startsLiteral then
    literal
  else if ← ahead startsIdentifier then
    let _ ← identifier
  else if ← ahead (startsGroup .brace) then
    let _ ← attributedBlock g
  else
    lacks []

def startsConstant (trees : List TokenTree) : Bool :=
  startsLiteral trees || startsGroup .brace trees

def endsConstraint (trees : List TokenTree) : Bool :=
  startsSign "," trees || startsSign ">" trees

def argument (g : Rules) : Parser Argument := do
  let trees ← trees
  if startsLifetime trees && !startsSign "+" (trees.drop 1) then
    return .lifetime (← lifetime)
  if startsConstant trees then
    return .other (← tokensOf (constant g))
  match ← g.type true with
  | .path false [segment] =>
    if ← ahead (startsSign "=") then
      return .other (segment.tokens ++ (← tokensOf value))
    else if ← ahead (startsSign ":") then
      return .other (segment.tokens ++ (← tokensOf constraint))
    else
      return .type (.path false [segment])
  | type => return .type type
where
  value : Parser Unit := do
    sign "="
    if ← ahead startsConstant then
      constant g
    else
      let _ ← g.writtenType true
  constraint : Parser Unit := do
    sign ":"
    let _ ← separatedWhile "+" endsConstraint (g.bound false true)

def arguments (g : Rules) : Parser (List Argument × Bool) := do
  sign "<"
  let entries ← separatedUntil "," (startsSign ">") (argument g)
  sign ">"
  return (entries.map (·.1), (entries.getLast?.map (·.2)).getD false)

def segment (g : Rules) (inExpression : Bool) : Parser Segment := do
  if ← ahead (startsAnyWord ["super", "self", "crate", "try"]) then
    return .plain (← anyWord)
  let name ← if ← ahead (startsWord "Self") then anyWord else identifier
  if ← ahead (startsArguments inExpression) then
    let turbofish ← skipSign "::"
    let (arguments, trailing) ← arguments g
    return .generic name turbofish arguments trailing
  else
    return .plain name

/--
Whether another segment follows. Parentheses belong to no segment.
-/
def continuesPath (trees : List TokenTree) : Bool :=
  match afterSign? "::" trees with
  | some rest => !startsGroup .paren rest
  | none => false

def path (g : Rules) (inExpression : Bool) : Parser (Bool × List Segment) := do
  let global ← skipSign "::"
  let first ← segment g inExpression
  let others ← whileAhead continuesPath do
    sign "::"
    segment g inExpression
  return (global, first :: others)

def writtenPath (g : Rules) (inExpression : Bool) : Parser Unit := do
  let (global, segments) ← silently (path g inExpression)
  write (TypeExpr.path global segments).tokens

def qualifiedPath (g : Rules) (inExpression : Bool) : Parser Unit := do
  sign "<"
  let _ ← g.writtenType true
  if ← skipWord "as" then writtenPath g false
  sign ">"
  behindSign
  let _ ← whileAhead (startsSign "::") behindSign
where
  behindSign : Parser Unit := do
    sign "::"
    let segment ← silently (segment g inExpression)
    write segment.tokens

def pathType (g : Rules) (inExpression : Bool) : Parser TypeExpr := do
  if ← ahead (startsSign "<") then
    return .refused .qualifiedPath (← tokensOf (qualifiedPath g inExpression))
  else
    let (global, segments) ← silently (path g inExpression)
    return .path global segments

def startsPath (trees : List TokenTree) : Bool :=
  startsIdentifier trees || startsAnyWord pathKeywords trees || startsSign "::" trees
    || startsSign "<" trees

def isPlainPath : TypeExpr → Bool
  | .path _ segments => segments.all fun
    | .plain _ => true
    | .generic _ _ _ _ => false
  | _ => false

def startsMacroCall (path : TypeExpr) (trees : List TokenTree) : Bool :=
  isPlainPath path && startsSignOnly "!" ["!="] trees

def macroArguments : Parser Delimiter := do
  sign "!"
  anyGroup

end Bindings.Native.Grammar
