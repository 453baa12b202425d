import Bindings.Text.LetterCase

/-!
This module contains the case conventions for the names of fields and variants.
Field names are taken to be in snake case and variant names in Pascal case.
-/

namespace Bindings

namespace Naming

def camelChars (raise : Bool) : List Char → List Char
  | [] => []
  | c :: cs =>
    if c == '_' then
      camelChars true cs
    else
      (if raise then c.toUpper else c) :: camelChars false cs

def toCamelCase (name : String) : String :=
  String.ofList (camelChars false name.toList)

def mapFirst (f : Char → List Char) : List Char → List Char
  | [] => []
  | c :: cs => f c ++ cs

def toPascalCase (name : String) : String :=
  String.ofList (mapFirst Text.upperCase (camelChars false name.toList))

def snakeChars : List Char → List Char :=
  List.flatMap fun c => if c.isUpper then ['_', c.toLower] else [c]

def snakeWord : List Char → List Char
  | [] => []
  | c :: cs => c.toLower :: snakeChars cs

def toSnakeCase (name : String) : String :=
  String.ofList (snakeWord name.toList)

def upperAscii (name : String) : String :=
  name.map Char.toUpper

def lowerAscii (name : String) : String :=
  name.map Char.toLower

def hyphenate (name : String) : String :=
  name.map fun c => if c == '_' then '-' else c

end Naming

inductive RenameRule
  | lower
  | upper
  | pascal
  | camel
  | snake
  | screamingSnake
  | kebab
  | screamingKebab
deriving DecidableEq, Repr

namespace RenameRule

def all : List RenameRule :=
  [lower, upper, pascal, camel, snake, screamingSnake, kebab, screamingKebab]

/--
The name of a rule is an example of the rule.
-/
def name : RenameRule → String
  | lower => "lowercase"
  | upper => "UPPERCASE"
  | pascal => "PascalCase"
  | camel => "camelCase"
  | snake => "snake_case"
  | screamingSnake => "SCREAMING_SNAKE_CASE"
  | kebab => "kebab-case"
  | screamingKebab => "SCREAMING-KEBAB-CASE"

def ofName? (text : String) : Option RenameRule :=
  all.find? fun rule => rule.name == text

open Naming in
def applyToField (rule : RenameRule) (field : String) : String :=
  match rule with
  | lower | snake => field
  | upper | screamingSnake => upperAscii field
  | pascal => toPascalCase field
  | camel => toCamelCase field
  | kebab => hyphenate field
  | screamingKebab => hyphenate (upperAscii field)

open Naming in
def applyToVariant (rule : RenameRule) (variant : String) : String :=
  match rule with
  | pascal => variant
  | lower => lowerAscii variant
  | upper => upperAscii variant
  | camel => String.ofList (mapFirst Text.lowerCase variant.toList)
  | snake => toSnakeCase variant
  | screamingSnake => upperAscii (toSnakeCase variant)
  | kebab => hyphenate (toSnakeCase variant)
  | screamingKebab => hyphenate (upperAscii (toSnakeCase variant))

@[simp]
theorem ofName?_name (rule : RenameRule) : ofName? rule.name = some rule := by
  cases rule <;> decide

end RenameRule

end Bindings
