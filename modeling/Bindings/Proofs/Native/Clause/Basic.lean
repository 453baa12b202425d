import Bindings.Native.Directive.Reading
import Bindings.Proofs.Native.Carrying.Rules

/-!
This module contains the arguments of attributes as they are meant, wherever they stand, and the
rows of trees that spell them.
-/

namespace Bindings.Native.Directive

open Grammar

/--
An argument of an attribute: what its path is, if that is a single name, and what stands behind it.
-/
inductive Clause
  | bare (key : Option String)
  /-- A value; what it denotes, if it is one string literal. -/
  | value (key : Option String) (text : Option String)
  | list (key : Option String) (clauses : List Clause)

namespace Clause

def key : Clause → Option String
  | bare key | value key _ | list key _ => key

inductive Behind : List String → List TokenTree → Prop
  | nil : Behind [] []
  | cons {names : List String} {row : List TokenTree} (joint : Bool)
    (position position' place : Position) (name : String) (h : Behind names row) :
    Behind (name :: names)
      (.punct ':' true position :: .punct ':' joint position' :: .word name place :: row)

inductive Path : Option String → List TokenTree → Prop
  | name (name : String) (position : Position) : Path (some name) [.word name position]
  | long {names : List String} {row : List TokenTree} (name : String) (position : Position)
    (h : Behind names row) (hnames : names ≠ []) : Path none (.word name position :: row)
  | global {names : List String} {row : List TokenTree} (h : Behind names row)
    (hnames : names ≠ []) : Path none row

def IsExpression (row : List TokenTree) : Prop :=
  ∃ expression, ((rulesFor row).expression true).parse { trees := row } = .ok expression

def textOf : List TokenTree → Option String
  | [.literal _ text _] => text
  | _ => none

/--
Rows with commas between them. There is at least one row: nothing in brackets is no list.
-/
inductive Separated (P : α → List TokenTree → Prop) : List α → List TokenTree → Prop
  | single {a : α} {row : List TokenTree} (h : P a row) : Separated P [a] row
  | cons {a : α} {as : List α} {row rows : List TokenTree} (h : P a row) (joint : Bool)
    (position : Position) (hs : Separated P as rows) :
    Separated P (a :: as) (row ++ .punct ',' joint position :: rows)

inductive Trailing : List TokenTree → Prop
  | none : Trailing []
  | comma (joint : Bool) (position : Position) : Trailing [.punct ',' joint position]

mutual

inductive Row : Clause → List TokenTree → Prop
  | intro {clause : Clause} {path tail : List TokenTree} (hpath : Path clause.key path)
    (htail : Tail clause tail) : Row clause (path ++ tail)

inductive Tail : Clause → List TokenTree → Prop
  | bare (key : Option String) : Tail (.bare key) []
  | value (key : Option String) (joint : Bool) (position : Position) {row : List TokenTree}
    (h : IsExpression row) : Tail (.value key (textOf row)) (.punct '=' joint position :: row)
  | list (key : Option String) (opened closed : Position) {clauses : List Clause}
    {body last : List TokenTree} (h : Separated Row clauses body) (hlast : Trailing last) :
    Tail (.list key clauses) [.group .paren (body ++ last) opened closed]

end

end Clause

end Bindings.Native.Directive
