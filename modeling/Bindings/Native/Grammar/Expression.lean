import Bindings.Native.Grammar.Control
import Bindings.Native.Grammar.Operator

/-!
This module contains the grammar of expressions. What matters of an expression is where it ends.
-/

namespace Bindings.Native.Grammar

def startsExpression (trees : List TokenTree) : Bool :=
  (startsSomeWord trees && !startsWord "as" trees)
    || startsGroup .paren trees || startsGroup .bracket trees || startsGroup .brace trees
    || startsLiteral trees || startsSignOnly "!" ["!="] trees
    || startsSignOnly "-" ["-=", "->"] trees || startsSignOnly "*" ["*="] trees
    || startsSignOnly "|" ["|="] trees || startsSignOnly "&" ["&="] trees
    || startsSign ".." trees || startsSignOnly "<" ["<=", "<<="] trees || startsSign "::" trees
    || startsLifetime trees || startsSign "#" trees

def callArguments (g : Rules) : Parser Unit := do
  let _ ← group .paren (terminated (g.expression true))

def turbofish (g : Rules) : Parser Unit := do
  let (arguments, trailing) ← silently do
    sign "::"
    arguments g
  write (Written.sign "::" ++ Written.sign "<"
    ++ orderArguments (Argument.rows trailing arguments) ++ Written.sign ">")

def memberTail (g : Rules) : Parser Unit := do
  sign "."
  if ← skipNestedMembers then
    if !(← skipWord "await") then
      let named ← member
      if named && (← ahead (startsSign "::")) then
        turbofish g
        callArguments g
      else if named && (← ahead (startsGroup .paren)) then
        callArguments g

def tails (g : Rules) (operand : Expression) : Parser Expression :=
  repeating step operand
where
  step (operand : Expression) : Parser (Expression ⊕ Expression) := do
    let trees ← trees
    if startsGroup .paren trees then
      callArguments g
      return .inl .other
    else if startsMember trees && operand ≠ .range then
      memberTail g
      return .inl .other
    else if startsGroup .bracket trees then
      let _ ← group .bracket (g.expression true)
      return .inl .other
    else if startsSign "?" trees && operand ≠ .range then
      sign "?"
      return .inl .other
    else
      return .inr operand

def literalField (g : Rules) : Parser Unit := do
  let _ ← attributes g
  let named ← member
  if !named || (← ahead (startsSign ":")) then
    sign ":"
    let _ ← g.expression true

def literalFields (g : Rules) : Parser Unit :=
  repeating step ()
where
  step (_ : Unit) : Parser (Unit ⊕ Unit) := do
    if ← atEnd then return .inr ()
    if ← ahead (startsSign "..") then
      sign ".."
      if !(← atEnd) then
        let _ ← g.expression true
      return .inr ()
    literalField g
    if ← atEnd then return .inr ()
    sign ","
    return .inl ()

def pathExpression (g : Rules) (literals : Bool) : Parser Expression := do
  let path ← pathType g true
  write path.tokens
  if ← ahead (startsMacroCall path) then
    return .macroCall (← macroArguments)
  else if literals && (← ahead (startsGroup .brace)) then
    group .brace (literalFields g)
    return .other
  else
    return .other

def startsAsyncBlock (trees : List TokenTree) : Bool :=
  startsWord "async" trees
    && (startsGroup .brace (trees.drop 1)
      || (startsWord "move" (trees.drop 1) && startsGroup .brace (trees.drop 2)))

def asyncBlock (g : Rules) : Parser Unit := do
  word "async"
  let _ ← skipWord "move"
  block g

def startsClosure (trees : List TokenTree) : Bool :=
  startsSign "|" trees || startsAnyWord ["move", "static"] trees
    || (startsWord "for" trees && startsGenerics (trees.drop 1))
    || (startsWord "const" trees && !startsGroup .brace (trees.drop 1))
    || (startsWord "async" trees
      && (startsSign "|" (trees.drop 1) || startsWord "move" (trees.drop 1)))

def closureInput (g : Rules) : Parser Unit := do
  let _ ← attributes g
  let _ ← pattern g
  if ← skipSign ":" then
    let _ ← g.writtenType true

def closure (g : Rules) (literals : Bool) : Parser Unit := do
  let _ ← skipBinder g
  let _ ← skipWord "const"
  let _ ← skipWord "static"
  let _ ← skipWord "async"
  let _ ← skipWord "move"
  sign "|"
  let _ ← separatedUntil "," (startsSign "|") (closureInput g)
  sign "|"
  if ← skipSign "->" then
    let _ ← g.writtenType true
    block g
  else
    let _ ← g.expression literals

def builtin : Parser Unit :=
  verbatim do
    word "builtin"
    sign "#"
    let _ ← identifier
    group .paren everything

def arrayElements (g : Rules) : Parser Unit := do
  if ← atEnd then return
  let _ ← g.expression true
  if ← atEnd then return
  if ← skipSign "," then
    let _ ← terminated (g.expression true)
  else if ← skipSign ";" then
    let _ ← g.expression true
  else
    lacks [.sign ",", .sign ";"]

def breakExpression (g : Rules) (literals : Bool) : Parser Unit := do
  word "break"
  let trees ← trees
  if startsLifetime trees && startsSign ":" (trees.drop 1) then
    let position ← here
    let _ ← g.expression true
    complainAt position (.broken .labelledBreak)
  let _ ← skipLifetime
  if (← ahead startsExpression) && (literals || !(← ahead (startsGroup .brace))) then
    let _ ← g.expression true

def jump (g : Rules) (text : String) : Parser Unit := do
  word text
  if ← ahead startsExpression then
    let _ ← g.expression true

def letExpression (g : Rules) (literals : Bool) : Parser Unit := do
  word "let"
  let _ ← alternatives g
  sign "="
  let left ← g.unary literals
  let _ ← operators g literals .comparison left

def startsPathExpression (trees : List TokenTree) : Bool :=
  startsPath trees || (startsWord "try" trees
    && (startsSign "!" (trees.drop 1) || startsSign "::" (trees.drop 1)))

def atom (g : Rules) (literals : Bool) : Parser Expression := do
  let trees ← trees
  if startsControl trees then
    control g
    return .block
  else if startsWord "builtin" trees && startsSign "#" (trees.drop 1) then
    builtin
    return .other
  else if startsPathExpression trees then
    pathExpression g literals
  else if startsSign ".." trees then
    rangeTail g literals
    return .range
  else
    if startsLiteral trees then literal
    else if startsAsyncBlock trees then asyncBlock g
    else if startsClosure trees then closure g literals
    else if startsGroup .paren trees then callArguments g
    else if startsGroup .bracket trees then group .bracket (arrayElements g)
    else if startsWord "break" trees then breakExpression g literals
    else if startsWord "continue" trees then
      word "continue"
      let _ ← skipLifetime
    else if startsWord "return" trees then jump g "return"
    else if startsWord "yield" trees then jump g "yield"
    else if startsWord "become" trees then
      verbatim do
        word "become"
        let _ ← g.expression true
    else if startsWord "let" trees then letExpression g literals
    else if startsWord "_" trees then word "_"
    else lacks [.expression]
    return .other

def addressTail (g : Rules) (literals : Bool) : Parser Unit := do
  let trees ← trees
  if startsWord "raw" trees && startsAnyWord ["mut", "const"] (trees.drop 1) then
    word "raw"
    let _ ← anyWord
  else
    let _ ← skipWord "mut"
  let _ ← g.unary literals

def leadingOperator? (trees : List TokenTree) : Option String :=
  ["*", "!", "-"].find? (startsSign · trees)

/--
An operand with its attributes, the operators in front of it and what stands behind it. A range
without a lower bound has no attributes.
-/
def unary (g : Rules) (literals : Bool) : Parser Expression := do
  let attributes ← attributes g
  if ← skipSign "&" then
    addressTail g literals
    return .other
  if let some text := leadingOperator? (← trees) then
    sign text
    let _ ← g.unary literals
    return .other
  let position ← here
  let operand ← tails g (← atom g literals)
  if operand = .range && !attributes.isEmpty then complainAt position (.broken .attributeOnRange)
  return operand

/--
An operand with the operators that bind it more tightly than the one in front of it.
-/
def operand (g : Rules) (literals : Bool) (p : Precedence) : Parser Expression := do
  repeating step (← unary g literals)
where
  step (left : Expression) : Parser (Expression ⊕ Expression) := do
    match nextPrecedence? (← trees) with
    | some next =>
      if left ≠ .range && (p.rank < next.rank || (p = .assign && next = .assign)) then
        return .inl (← operators g literals next left)
      else
        return .inr left
    | none => return .inr left

/--
An expression. Where a block follows it cannot be a struct literal.
-/
def expression (g : Rules) (literals : Bool) : Parser Expression := do
  operators g literals .jump (← unary g literals)

/--
An expression as a statement or as the body of an arm. One that ends with its block goes on only
with a member or a question mark.
-/
def boundary (g : Rules) : Parser Expression := do
  let _ ← attributes g
  if ← ahead startsControl then
    control g
    if ← ahead fun trees => startsMember trees || startsSign "?" trees then
      operators g true .jump (← tails g .block)
    else
      return .block
  else
    operators g true .jump (← unary g true)

end Bindings.Native.Grammar
