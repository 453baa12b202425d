import Bindings.Native.Grammar.Pattern

/-!
This module contains the grammar of what stands behind the first operand of an expression: operators
with further operands, ranges, casts and assignments.
-/

namespace Bindings.Native.Grammar

def binaryOperators : List (String × Precedence) :=
  ["+=", "-=", "*=", "/=", "%=", "^=", "&=", "|=", "<<=", ">>="].map (·, .assign)
    ++ [("&&", .and), ("||", .or), ("<<", .shift), (">>", .shift)]
    ++ ["==", "<=", "!=", ">="].map (·, .comparison)
    ++ [("+", .sum), ("-", .sum), ("*", .product), ("/", .product), ("%", .product),
      ("^", .bitXor), ("&", .bitAnd), ("|", .bitOr), ("<", .comparison), (">", .comparison)]

def binaryOperator? (trees : List TokenTree) : Option (String × Precedence) :=
  binaryOperators.find? fun (text, _) => startsSign text trees

def startsAssignment (trees : List TokenTree) : Bool :=
  startsSignOnly "=" ["=>"] trees

def nextPrecedence? (trees : List TokenTree) : Option Precedence :=
  match binaryOperator? trees with
  | some (_, p) => some p
  | none =>
    if startsAssignment trees then some .assign
    else if startsSign ".." trees then some .range
    else if startsWord "as" trees then some .cast
    else none

def startsMember (trees : List TokenTree) : Bool :=
  startsSignOnly "." [".."] trees

def endsRange (literals : Bool) (trees : List TokenTree) : Bool :=
  trees.isEmpty || startsMember trees || (!literals && startsGroup .brace trees)
    || startsWord "as" trees
    || [",", ";", "?", "=>", "=", "+", "/", "%", "^", ">", "<=", "!=", "-=", "*=", "&=", "|=",
      "<<="].any (startsSign · trees)

/--
The sign of a range and its upper bound, which only a range that excludes it can be without.
-/
def rangeTail (g : Rules) (literals : Bool) : Parser Unit := do
  let closed ← rangeSign false
  if closed || !(← ahead (endsRange literals)) then
    let _ ← g.operand literals .range

def castContinuation? (trees : List TokenTree) : Option String :=
  if startsMember trees then
    if startsWord "await" member then some "`.await`"
    else if startsIdentifier member
        && (startsGroup .paren (member.drop 1) || startsSign "::" (member.drop 1)) then
      some "a method call"
    else some "a field access"
  else if startsSign "?" trees then some "`?`"
  else if startsGroup .bracket trees then some "indexing"
  else if startsGroup .paren trees then some "a function call"
  else none
where
  member := trees.drop 1

def castTail (g : Rules) : Parser Unit := do
  word "as"
  let _ ← g.writtenType false
  if let some continuation := castContinuation? (← trees) then
    complain (.broken (.cast continuation))

/--
The operators that bind an operand in front of them at least as tightly as a base. A range is no
operand of any, and comparisons are none of each other.
-/
def operators (g : Rules) (literals : Bool) (base : Precedence) (left : Expression) :
    Parser Expression :=
  repeating step left
where
  step (left : Expression) : Parser (Expression ⊕ Expression) := do
    let trees ← trees
    if left = .range then return .inr left
    match binaryOperator? trees with
    | some (text, p) =>
      if !p.covers base then return .inr left
      if p = .comparison && left = .comparison then complain (.broken .chainedComparison)
      sign text
      let _ ← g.operand literals p
      return .inl (if p = .comparison then .comparison else .other)
    | none =>
      if Precedence.covers .assign base && startsAssignment trees then
        sign "="
        let _ ← g.operand literals .assign
        return .inl .other
      else if Precedence.covers .range base && startsSign ".." trees then
        rangeTail g literals
        return .inl .range
      else if Precedence.covers .cast base && startsWord "as" trees then
        castTail g
        return .inl .other
      else
        return .inr left

end Bindings.Native.Grammar
