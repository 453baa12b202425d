import Bindings.Native.Grammar.Basic
import Bindings.Native.Item

/-!
This module contains the rules of the grammar that refer to one another. A rule is written with all
of them at hand and takes at least one token before it uses one, so a text needs no deeper rules
than it has tokens.
-/

namespace Bindings.Native.Grammar

inductive Precedence
  | jump
  | assign
  | range
  | or
  | and
  | binding
  | comparison
  | bitOr
  | bitXor
  | bitAnd
  | shift
  | sum
  | product
  | cast
deriving DecidableEq, Repr

namespace Precedence

def rank : Precedence → Nat
  | jump => 0
  | assign => 1
  | range => 2
  | or => 3
  | and => 4
  | binding => 5
  | comparison => 6
  | bitOr => 7
  | bitXor => 8
  | bitAnd => 9
  | shift => 10
  | sum => 11
  | product => 12
  | cast => 13

def covers (p base : Precedence) : Bool :=
  base.rank ≤ p.rank

end Precedence

/--
What an expression is, as far as what may follow depends on it.
-/
inductive Expression
  | range
  | comparison
  /-- One that ends with a block and needs no sign behind it. -/
  | block
  | macroCall (delimiter : Delimiter)
  | other
deriving DecidableEq, Repr

inductive Pattern
  | name (text : String)
  /-- A range without one of its ends, with the place of its sign. -/
  | openRange (position : Position)
  | rest
  | other
deriving DecidableEq, Repr

inductive Bound
  | lifetime
  | capture
  | trait
deriving DecidableEq, Repr

structure Rules where
  /-- A type, without being written down; whether bounds may follow a plus sign. -/
  type : (plus : Bool) → Parser TypeExpr
  /-- A bound; whether it may capture parameters and whether it may hold for constants only. -/
  bound : (capture const : Bool) → Parser Bound
  /-- An expression; whether it may be a struct literal. -/
  expression : (literals : Bool) → Parser Expression
  /-- An operand with the operators that bind it more tightly than the one before it. -/
  operand : (literals : Bool) → Precedence → Parser Expression
  /-- An operand without operators between operands. -/
  unary : (literals : Bool) → Parser Expression
  /-- An expression that ends with its block where it begins with one. -/
  boundary : Parser Expression
  pattern : Parser Pattern
  /-- All of a row as the statements of a block. -/
  statements : Parser Unit
  fields : Parser (List FieldItem)
  /-- What an import names; whether it may begin at the root of the crates. -/
  importTree : (root : Bool) → Parser Unit
  item : Parser Item

namespace Rules

def none : Rules where
  type _ := lacks []
  bound _ _ := lacks []
  expression _ := lacks []
  operand _ _ := lacks []
  unary _ := lacks []
  boundary := lacks []
  pattern := lacks []
  statements := lacks []
  fields := lacks []
  importTree _ := lacks []
  item := lacks []

def writtenType (g : Rules) (plus : Bool) : Parser TypeExpr := do
  let type ← g.type plus
  write type.tokens
  return type

end Rules

end Bindings.Native.Grammar
