import Bindings.Native.Grammar.Item

/-!
This module contains the grammar of statements.
-/

namespace Bindings.Native.Grammar

def afterMacroName? (trees : List TokenTree) : Option (List TokenTree) := do
  afterSign? "!" (← afterPlainPath? trees)

def startsMacroStatement (trees : List TokenTree) : Bool :=
  (afterMacroName? trees).any fun rest =>
    startsGroup .brace rest && !startsMember (rest.drop 1) && !startsSign "?" (rest.drop 1)

def startsNamedMacro (trees : List TokenTree) : Bool :=
  (afterMacroName? trees).any fun rest => startsIdentifier rest || startsWord "try" rest

def startsItem (trees : List TokenTree) : Bool :=
  startsAnyWord ["pub", "extern", "use", "fn", "mod", "type", "struct", "enum", "trait", "impl",
      "macro"] trees
    || (startsWord "crate" trees && !startsSign "::" next)
    || (startsWord "static" trees && (startsWord "mut" next || startsIdentifier next))
    || (startsWord "const" trees && !isConstExpression)
    || (startsWord "unsafe" trees && !startsGroup .brace next)
    || (startsWord "async" trees && startsAnyWord ["unsafe", "extern", "fn"] next)
    || (startsWord "union" trees && startsIdentifier next)
    || (startsWord "auto" trees && startsWord "trait" next)
    || (startsWord "default" trees && startsAnyWord ["unsafe", "impl"] next)
    || startsNamedMacro trees
where
  next := trees.drop 1
  isConstExpression :=
    startsGroup .brace next || startsAnyWord ["static", "move"] next || startsSign "|" next
      || (startsWord "async" next
        && !startsAnyWord ["unsafe", "extern", "fn"] (trees.drop 2))

def endsWithBrace : Parser Bool := do
  match (← get).written with
  | .group .brace _ _ _ :: _ => return true
  | _ => return false

def letStatement (g : Rules) : Parser Unit := do
  word "let"
  let _ ← pattern g
  if ← skipSign ":" then
    let _ ← g.writtenType true
  if ← skipSign "=" then
    let _ ← g.expression true
    if !(← endsWithBrace) then
      if ← skipWord "else" then block g
  sign ";"

def statement (g : Rules) : Parser Bool := do
  let attributes ← attributes g
  let trees ← trees
  if startsMacroStatement trees then
    let _ ← plainPath
    let _ ← macroArguments
    let _ ← skipSign ";"
    return false
  else if startsWord "let" trees then
    letStatement g
    return false
  else if startsItem trees then
    let _ ← itemWith g attributes
    return false
  else
    let expression ← boundary g
    if ← skipSign ";" then return false
    return expression ≠ .block && expression ≠ .macroCall .brace

def statements (g : Rules) : Parser Unit :=
  repeating step ()
where
  step (_ : Unit) : Parser (Unit ⊕ Unit) := do
    let _ ← whileAhead (startsSign ";") (sign ";")
    if ← atEnd then return .inr ()
    let open? ← statement g
    if ← atEnd then return .inr ()
    if open? then complain (.broken .statementEnd)
    return .inl ()

end Bindings.Native.Grammar
