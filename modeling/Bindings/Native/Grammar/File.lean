import Bindings.Native.Grammar.Statement
import Bindings.Native.Lexer

/-!
This module contains the rules of the grammar as a whole and the reading of texts by them.
-/

namespace Bindings.Native.Grammar

/--
The rules for what is nested to a depth.
-/
def rules : Nat → Rules
  | 0 => .none
  | n + 1 =>
    { type := fun plus r => silently (type (rules n) plus) r
      bound := fun capture const r => bound (rules n) capture const r
      expression := fun literals r => expression (rules n) literals r
      operand := fun literals p r => operand (rules n) literals p r
      unary := fun literals r => unary (rules n) literals r
      boundary := fun r => boundary (rules n) r
      pattern := fun r => pattern (rules n) r
      statements := fun r => statements (rules n) r
      fields := fun r => namedFields (rules n) r
      importTree := fun root r => importTree (rules n) root r
      item := fun r => item (rules n) r }

def rulesFor (trees : List TokenTree) : Rules :=
  rules (TokenTree.sizeAll trees + 1)

def read (trees : Option (List TokenTree)) (p : Rules → Parser α) : Option α := do
  let trees ← trees
  ((p (rulesFor trees)).parse { trees }).toOption

def file (text : String) : Option (List Item) :=
  read (Lexer.fileTrees text) fun g => do
    let _ ← innerAttributes g
    untilEnd (item g)

def typeText (text : String) : Option TypeExpr :=
  read (Lexer.trees text.toList) fun g => g.type true

def itemText (text : String) : Option Item :=
  read (Lexer.trees text.toList) item

end Bindings.Native.Grammar
