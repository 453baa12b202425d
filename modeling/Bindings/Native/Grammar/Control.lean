import Bindings.Native.Grammar.Pattern

/-!
This module contains the grammar of the expressions that end with a block.
-/

namespace Bindings.Native.Grammar

def ifExpression (g : Rules) : Parser Unit :=
  repeating step ()
where
  step (_ : Unit) : Parser (Unit ⊕ Unit) := do
    word "if"
    let _ ← g.expression false
    block g
    if !(← skipWord "else") then return .inr ()
    if ← ahead (startsWord "if") then return .inl ()
    if !(← ahead (startsGroup .brace)) then lacks [.word "if", .braces]
    block g
    return .inr ()

def whileExpression (g : Rules) : Parser Unit := do
  word "while"
  let _ ← g.expression false
  let _ ← attributedBlock g

def forExpression (g : Rules) : Parser Unit := do
  word "for"
  let _ ← alternatives g
  word "in"
  let _ ← g.expression false
  let _ ← attributedBlock g

def wordBlock (g : Rules) (text : String) : Parser Unit := do
  word text
  let _ ← attributedBlock g

/--
An arm of a match. A comma has to follow, except behind a block and at the end.
-/
def arm (g : Rules) : Parser Unit := do
  let _ ← attributes g
  let _ ← alternatives g
  if ← skipWord "if" then
    let _ ← g.expression true
  sign "=>"
  let body ← g.boundary
  if body = .block || (← atEnd) then
    let _ ← skipSign ","
  else
    sign ","

def matchExpression (g : Rules) : Parser Unit := do
  word "match"
  let _ ← g.expression false
  group .brace do
    let _ ← innerAttributes g
    let _ ← untilEnd (arm g)

def labelled (g : Rules) : Parser Unit := do
  let _ ← lifetime
  sign ":"
  let trees ← trees
  if startsWord "while" trees then whileExpression g
  else if startsWord "for" trees then forExpression g
  else if startsWord "loop" trees then wordBlock g "loop"
  else if startsGroup .brace trees then
    let _ ← attributedBlock g
  else lacks [.loopOrBlock]

def startsControl (trees : List TokenTree) : Bool :=
  startsAnyWord ["if", "while", "loop", "match", "unsafe"] trees
    || (startsWord "for" trees && !startsGenerics (trees.drop 1))
    || (startsAnyWord ["try", "const"] trees && startsGroup .brace (trees.drop 1))
    || startsGroup .brace trees || startsLifetime trees

def control (g : Rules) : Parser Unit := do
  let trees ← trees
  if startsWord "if" trees then ifExpression g
  else if startsWord "while" trees then whileExpression g
  else if startsWord "for" trees then forExpression g
  else if startsWord "loop" trees then wordBlock g "loop"
  else if startsWord "match" trees then matchExpression g
  else if startsWord "unsafe" trees then wordBlock g "unsafe"
  else if startsWord "const" trees then wordBlock g "const"
  else if startsWord "try" trees then
    word "try"
    block g
  else if startsLifetime trees then labelled g
  else
    let _ ← attributedBlock g

end Bindings.Native.Grammar
