import Bindings.Native.Refusal

/-!
This module contains the reasons for which native source text is refused.
-/

namespace Bindings.Native

/--
A place in a text. Lines and columns count from one, columns in characters.
-/
structure Position where
  line : Nat := 1
  column : Nat := 1
deriving DecidableEq, Repr

namespace Position

def next (position : Position) (c : Char) : Position :=
  if c == '\n' then ⟨position.line + 1, 1⟩ else ⟨position.line, position.column + 1⟩

def advance (position : Position) (text : List Char) : Position :=
  text.foldl next position

end Position

inductive Delimiter
  | paren
  | bracket
  | brace
deriving DecidableEq, Repr

inductive Expectation
  | sign (text : String)
  | word (text : String)
  | identifier
  | anyWord
  | lifetime
  | literal
  | stringLiteral
  | integerLiteral
  | unsuffixedInteger
  | identifierOrInteger
  | identifierOrUnderscore
  | parentheses
  | brackets
  | braces
  | anyBrackets
  | pathSegment
  | expression
  | loopOrBlock
  | upperBound
  | nestedAttribute
deriving DecidableEq, Repr

namespace Expectation

def ofDelimiter : Delimiter → Expectation
  | .paren => parentheses
  | .bracket => brackets
  | .brace => braces

def describe : Expectation → String
  | sign text => Site.quote text
  | word text => Site.quote text
  | identifier => "identifier"
  | anyWord => "ident"
  | lifetime => "lifetime"
  | literal => "literal"
  | stringLiteral => "string literal"
  | integerLiteral => "integer literal"
  | unsuffixedInteger => "unsuffixed integer"
  | identifierOrInteger => "identifier or integer"
  | identifierOrUnderscore => "identifier or underscore"
  | parentheses => "parentheses"
  | brackets => "square brackets"
  | braces => "curly braces"
  | anyBrackets => "delimiter"
  | pathSegment => "path segment after `::`"
  | expression => "an expression"
  | loopOrBlock => "loop or block expression"
  | upperBound => "range upper bound"
  | nestedAttribute => "nested attribute"

def describeAny : List Expectation → String
  | [what] => "expected " ++ what.describe
  | [first, second] => "expected " ++ first.describe ++ " or " ++ second.describe
  | whats => "expected one of: " ++ String.intercalate ", " (whats.map describe)

end Expectation

/--
A rule of the grammar that is broken although every token is one that could be expected.
-/
inductive Violation
  | attributeInAttribute
  | attributeOnRange
  | chainedComparison
  | cast (continuation : String)
  | labelledBreak
  | statementEnd
  | halfRangeInSlice
  | numberTooLarge
  | polarityWithBinder
  | constBound
  | conditionalBound
  | captureBound
  | noTraitInObject
  | noTrait
  | parameterizedConditions
  | secondReceiver
  | lateReceiver
  | negativeInherent
  | negativeIndex
deriving DecidableEq, Repr

def Violation.describe : Violation → String
  | attributeInAttribute => "unexpected attribute inside of attribute"
  | attributeOnRange => "attributes are not allowed on range expressions starting with `..`"
  | chainedComparison => "comparison operators cannot be chained"
  | cast continuation => "casts cannot be followed by " ++ continuation
  | labelledBreak => "parentheses required"
  | statementEnd => "unexpected token, expected `;`"
  | halfRangeInSlice => "range pattern is not allowed unparenthesized inside slice pattern"
  | numberTooLarge => "number too large to fit in target type"
  | polarityWithBinder => "`for<...>` binder not allowed with `?` trait polarity modifier"
  | constBound => "`const` is not allowed here"
  | conditionalBound => "`[const]` is not allowed here"
  | captureBound => "`use<...>` precise capturing syntax is not allowed here"
  | noTraitInObject => "at least one trait is required for an object type"
  | noTrait => "at least one trait must be specified"
  | parameterizedConditions =>
    "generic parameters on `where` clauses are reserved for future use"
  | secondReceiver => "unexpected second method receiver"
  | lateReceiver => "unexpected method receiver"
  | negativeInherent => "inherent impls cannot be negative"
  | negativeIndex => "invalid digit found in string"

inductive Problem
  | expected (whats : List Expectation)
  /-- A row of tokens ends where more is expected. -/
  | unexpectedEnd (whats : List Expectation)
  | reservedWord (word : String)
  /-- A row of tokens goes on where it has to end, inside brackets or not. -/
  | leftover (delimiter : Option Delimiter)
  | broken (rule : Violation)
  | literalAsArgument
  | tokenAsArgument
  | argumentsMissing (path : String)
  | notParenthesized (path : String)
  | unknownRenameRule
deriving DecidableEq, Repr

def Problem.describe : Problem → String
  | expected [] => "unexpected token"
  | expected whats => Expectation.describeAny whats
  | unexpectedEnd [] => "unexpected end of input"
  | unexpectedEnd whats => "unexpected end of input, " ++ Expectation.describeAny whats
  | reservedWord word => "expected identifier, found keyword " ++ Site.quote word
  | leftover none => "unexpected token"
  | leftover (some .paren) => "unexpected token, expected `)`"
  | leftover (some .bracket) => "unexpected token, expected `]`"
  | leftover (some .brace) => "unexpected token, expected `\x7d`"
  | broken rule => rule.describe
  | literalAsArgument => "unexpected literal in nested attribute, expected ident"
  | tokenAsArgument => "unexpected token in nested attribute, expected ident"
  | argumentsMissing path =>
    "expected attribute arguments in parentheses: #[" ++ path ++ "(...)]"
  | notParenthesized path => "expected parentheses: #[" ++ path ++ "(...)]"
  | unknownRenameRule => "unknown rename_all rule"

structure Complaint where
  position : Position
  problem : Problem
deriving DecidableEq, Repr

def Complaint.message (complaint : Complaint) : String :=
  "source parse error at " ++ complaint.position.line.repr ++ ":" ++ complaint.position.column.repr
    ++ ": " ++ complaint.problem.describe

inductive SourceFault
  /-- The text breaks the grammar of the language. -/
  | ungrammatical
  | argument (complaint : Complaint)
deriving DecidableEq, Repr

def SourceFault.message? : SourceFault → Option String
  | ungrammatical => none
  | argument complaint => some complaint.message

end Bindings.Native
