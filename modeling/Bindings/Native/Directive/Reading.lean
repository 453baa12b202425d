import Bindings.Native.Directive.Basic
import Bindings.Native.Grammar.File

/-!
This module contains the reading of directives from the arguments of `serde` attributes. An argument
is a path with nothing, a value or arguments of its own behind it. Faults point at the tree at which
the arguments cannot go on or, where they end too soon, at the bracket that closes them.
-/

namespace Bindings.Native.Directive

open Grammar

def key : Parser (Option String) := do
  let global ← skipSign "::"
  let name ← first
  let others ← whileAhead (startsSign "::") do
    sign "::"
    anyWord
  return if global || !others.isEmpty then none else some name
where
  first : Parser String := do
    let trees ← trees
    if startsSomeWord trees then anyWord
    else if trees.isEmpty then lacks [.nestedAttribute]
    else if startsLiteral trees then complain .literalAsArgument
    else complain .tokenAsArgument

def arguments (read : Option String → Parser α) : Parser (List α) :=
  repeating step []
where
  step (earlier : List α) : Parser (List α ⊕ List α) := do
    let a ← read (← key)
    if ← atEnd then return .inr (a :: earlier).reverse
    sign ","
    if ← atEnd then return .inr (a :: earlier).reverse
    return .inl (a :: earlier)

def text : Parser (String × Position) := do
  let position ← here
  return (← stringLiteral, position)

def assignedText : Parser (String × Position) := do
  sign "="
  text

def skipArgument (g : Rules) : (depth : Nat) → Parser Unit
  | 0 => lacks []
  | depth + 1 => do
    if ← skipSign "=" then
      let _ ← g.expression true
    else if ← ahead (startsGroup .paren) then
      let _ ← group .paren (arguments fun _ => skipArgument g depth)

/--
A name for serialization: the value of an argument or, where its name differs from that for reading
back, the value that its own argument `serialize` has last.
-/
def serializedName (g : Rules) (depth : Nat) : Parser (Option (String × Position)) := do
  if ← ahead (startsSign "=") then
    some <$> assignedText
  else
    let names ← group .paren (arguments half)
    return (names.filterMap id).getLast?
where
  half (name : Option String) : Parser (Option (String × Position)) := do
    if name = some "serialize" then
      some <$> assignedText
    else
      skipArgument g depth
      return none

def ofName (name : Option (String × Position)) : Directive :=
  (name.map fun (name, _) => .rename name).getD .inert

def ofRuleName : Option (String × Position) → Parser Directive
  | none => return .inert
  | some (name, position) =>
    match RenameRule.ofName? name with
    | some rule => return .renameAll rule
    | none => complainAt position .unknownRenameRule

def named (g : Rules) (depth : Nat) (name : Option String) : Parser Directive := do
  match name with
  | some "rename" => ofName <$> serializedName g depth
  | some "rename_all" => ofRuleName (← serializedName g depth)
  | some "skip" | some "skip_serializing" => return .skip
  | some "tag" => return .tag (← assignedText).1
  | some "content" => return .content (← assignedText).1
  | some "untagged" => return .untagged
  | some "flatten" => return .flatten
  | _ =>
    skipArgument g depth
    return .inert

def ofAttribute (a : Attribute) : Except SourceFault (List Directive) :=
  match a.body with
  | .bare => .error (.argument ⟨a.position, .argumentsMissing "serde"⟩)
  | .value position _ => .error (.argument ⟨position, .notParenthesized "serde"⟩)
  | .list [] _ => .ok []
  | .list tokens closed =>
    let read := arguments (named (rulesFor tokens) (TokenTree.sizeAll tokens + 1))
    (read.parse { trees := tokens, closed }).mapError .argument

def ofAttributes (attributes : List Attribute) : Except SourceFault (List Directive) := do
  return (← (attributes.filter (·.isNamed "serde")).mapM ofAttribute).flatten

end Bindings.Native.Directive

namespace Bindings.Native.Directives

def ofAttributes (attributes : List Attribute) : Except SourceFault Directives :=
  ofList <$> Directive.ofAttributes attributes

end Bindings.Native.Directives
