import Bindings.Native.Grammar.Field

/-!
This module contains the grammar of functions.
-/

namespace Bindings.Native.Grammar

def pastWord (text : String) (trees : List TokenTree) : List TokenTree :=
  if startsWord text trees then trees.drop 1 else trees

def pastConvention (trees : List TokenTree) : List TokenTree :=
  if startsWord "extern" trees then
    if startsString (trees.drop 1) then trees.drop 2 else trees.drop 1
  else
    trees

def startsFunction (safe : Bool) (trees : List TokenTree) : Bool :=
  startsWord "fn" (pastConvention (pastSafety (pastWord "async" (pastWord "const" trees))))
where
  pastSafety (trees : List TokenTree) : List TokenTree :=
    if safe && startsWord "safe" trees then trees.drop 1 else pastWord "unsafe" trees

def startsReceiver (trees : List TokenTree) : Bool :=
  startsWord "self" receiver && !startsSign "::" (receiver.drop 1)
    && !(startsSign ":" (receiver.drop 1) && startsSign "..." (receiver.drop 2))
where
  pastLifetime (trees : List TokenTree) : List TokenTree :=
    if startsLifetime trees then trees.drop 1 else trees
  receiver := pastWord "mut" (if startsSign "&" trees then pastLifetime (trees.drop 1) else trees)

def receiver (g : Rules) : Parser Position := do
  let reference ← skipSign "&"
  if reference then
    let _ ← skipLifetime
  let _ ← skipWord "mut"
  let position ← here
  word "self"
  if !reference && (← skipSign ":") then
    let _ ← g.writtenType true
  return position

/--
A pattern and its type, or none where any number of arguments may stand. A type with arguments may
stand without a pattern.
-/
def typedInput (g : Rules) : Parser (Option InputItem) := do
  if ← ahead fun trees => startsIdentifier trees && startsSign "<" (trees.drop 1) then
    write (Written.word "_" :: Written.sign ":")
    return some (.typed none (← g.writtenType true))
  let bound ← pattern g
  sign ":"
  if ← skipSign "..." then return none
  match bound with
  | .name name => return some (.typed (some name) (← g.writtenType true))
  | _ => return some (.typed none (← g.writtenType true))

/--
All of a row as the inputs of a function. A receiver can only come first, and nothing but a comma
can follow where any number of arguments may stand.
-/
def inputs (g : Rules) : Parser (List InputItem) :=
  repeating step []
where
  finish (inputs : List InputItem) : Parser (List InputItem ⊕ List InputItem) := do
    if !(← atEnd) then sign ","
    return .inr inputs.reverse
  proceed (input : InputItem) (inputs : List InputItem) :
      Parser (List InputItem ⊕ List InputItem) := do
    if ← atEnd then return .inr (input :: inputs).reverse
    sign ","
    return .inl (input :: inputs)
  step (inputs : List InputItem) : Parser (List InputItem ⊕ List InputItem) := do
    if ← atEnd then return .inr inputs.reverse
    let _ ← attributes g
    if ← skipSign "..." then
      finish inputs
    else if ← ahead startsReceiver then
      let position ← receiver g
      if inputs.any InputItem.isReceiver then complainAt position (.broken .secondReceiver)
      if !inputs.isEmpty then complainAt position (.broken .lateReceiver)
      proceed .receiver inputs
    else
      match ← typedInput g with
      | none => finish inputs
      | some input => proceed input inputs

def signature (g : Rules) (attributes : List Attribute) (visibility : Visibility) (safe : Bool) :
    Parser FunctionItem := do
  let _ ← skipWord "const"
  let isAsync ← skipWord "async"
  if !(← skipWord "unsafe") && safe then
    let _ ← skipWord "safe"
  skipConvention
  word "fn"
  let name ← identifier
  let generics ← generics g
  let inputs ← group .paren (inputs g)
  let output ← result g true
  let _ ← conditions g
  return ⟨attributes, visibility, isAsync, name, generics, inputs, output⟩

def functionBody (g : Rules) : Parser (Option (List Attribute)) := do
  if ← skipSign ";" then return none
  some <$> attributedBlock g

end Bindings.Native.Grammar
