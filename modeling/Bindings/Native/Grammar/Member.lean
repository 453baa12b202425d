import Bindings.Native.Grammar.Rules

/-!
This module contains the grammar of members: the names of fields and the numbers of places in
tuples.
-/

namespace Bindings.Native.Grammar

def tupleIndex (negative : Bool) (text : String) : Except Problem Nat :=
  match IntegerLiteral.ofText? text with
  | none => .error (.expected [.integerLiteral])
  | some number =>
    if !number.suffix.isEmpty then .error (.expected [.unsuffixedInteger])
    else if negative then .error (.broken .negativeIndex)
    else if number.value < 4294967296 then .ok number.value
    else .error (.broken .numberTooLarge)

def indices (ofNumber : (negative : Bool) → String → Except Problem (List TokenTree)) :
    Parser Unit := do
  let tokens :=
    match ← trees with
    | .literal text _ _ :: _ => ofNumber false text
    | .punct _ _ _ :: .literal text _ _ :: _ => ofNumber true text
    | _ => .error (.expected [.integerLiteral])
  match tokens with
  | .ok tokens =>
    write tokens
    silently literal
  | .error problem => complain problem

def indexToken (n : Nat) : TokenTree :=
  .literal n.repr none {}

def startsIndex (trees : List TokenTree) : Bool :=
  startsNumber (fun text => (IntegerLiteral.ofText? text).isSome) trees

def member : Parser Bool := do
  if ← ahead startsIdentifier then
    let _ ← identifier
    return true
  else if ← ahead startsIndex then
    indices fun negative text => do return [indexToken (← tupleIndex negative text)]
    return false
  else
    lacks [.identifierOrInteger]

def nestedIndices (negative : Bool) : List String → Except Problem (List TokenTree)
  | [] | [""] => .ok []
  | [part] => do return [indexToken (← tupleIndex negative part)]
  | part :: parts => do
    let index ← tupleIndex negative part
    return indexToken index :: Written.sign "." ++ (← nestedIndices false parts)

/--
Members of nested tuples behind a point, if they are written as one number with points in it. Tells
whether a member has to follow.
-/
def skipNestedMembers : Parser Bool := do
  if ← ahead (startsNumber Number.isFloat) then
    let open? := endsOpen (← trees)
    indices fun negative text => nestedIndices negative (text.splitOn ".")
    return open?
  else
    return true
where
  endsOpen : List TokenTree → Bool
    | .literal text _ _ :: _ | .punct _ _ _ :: .literal text _ _ :: _ => text.endsWith "."
    | _ => false

end Bindings.Native.Grammar
