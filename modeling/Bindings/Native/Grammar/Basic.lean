import Bindings.Native.Number
import Bindings.Native.Token

/-!
This module contains what the grammar of native source consists of: tests of how a row of token
trees begins, and parsers. A parser takes trees from a row and writes down what it takes, in the
spacing that tokens have by themselves.
-/

namespace Bindings.Native.Grammar

def keywords : List String :=
  ["_", "abstract", "as", "async", "await", "become", "box", "break", "const", "continue", "crate",
    "do", "dyn", "else", "enum", "extern", "false", "final", "fn", "for", "if", "impl", "in", "let",
    "loop", "macro", "match", "mod", "move", "mut", "override", "priv", "pub", "ref", "return",
    "Self", "self", "static", "struct", "super", "trait", "true", "try", "type", "typeof", "unsafe",
    "unsized", "use", "virtual", "where", "while", "yield"]

def isKeyword (text : String) : Bool :=
  keywords.contains text

def startsWord (text : String) : List TokenTree → Bool
  | .word other _ :: _ => other == text
  | _ => false

def startsSomeWord : List TokenTree → Bool
  | .word _ _ :: _ => true
  | _ => false

def startsAnyWord (texts : List String) : List TokenTree → Bool
  | .word other _ :: _ => texts.contains other
  | _ => false

def startsIdentifier : List TokenTree → Bool
  | .word text _ :: _ => !isKeyword text
  | _ => false

def startsLifetime : List TokenTree → Bool
  | .lifetime _ _ :: _ => true
  | _ => false

def startsGroup (delimiter : Delimiter) : List TokenTree → Bool
  | .group other _ _ _ :: _ => other == delimiter
  | _ => false

def startsString : List TokenTree → Bool
  | .literal _ (some _) _ :: _ => true
  | _ => false

/--
What follows a punctuation of one or more characters, all but the last one joint.
-/
def afterPunct : List Char → List TokenTree → Option (List TokenTree)
  | [], trees => some trees
  | [c], .punct other _ _ :: trees => if other == c then some trees else none
  | c :: chars, .punct other joint _ :: trees =>
    if other == c && joint then afterPunct chars trees else none
  | _ :: _, _ => none

def afterSign? (text : String) (trees : List TokenTree) : Option (List TokenTree) :=
  afterPunct text.toList trees

def startsSign (text : String) (trees : List TokenTree) : Bool :=
  (afterSign? text trees).isSome

/--
Whether a row begins with a sign that is not the beginning of one of some others.
-/
def startsSignOnly (text : String) (others : List String) (trees : List TokenTree) : Bool :=
  startsSign text trees && !others.any fun other => startsSign other trees

def afterLiteral? : List TokenTree → Option (List TokenTree × List TokenTree)
  | .literal text value position :: trees => some ([.literal text value position], trees)
  | .word text position :: trees =>
    if text == "true" || text == "false" then some ([.word text position], trees) else none
  | .punct '-' _ position :: .literal text value place :: trees =>
    if Number.isNumber text then
      some ([.punct '-' false position, .literal text value place], trees)
    else
      none
  | _ => none

def startsLiteral (trees : List TokenTree) : Bool :=
  (afterLiteral? trees).isSome

def startsNumber (test : String → Bool) : List TokenTree → Bool
  | .literal text _ _ :: _ | .punct '-' _ _ :: .literal text _ _ :: _ => test text
  | _ => false

def pathKeywords : List String :=
  ["super", "self", "Self", "crate"]

def afterPlainPath? (trees : List TokenTree) : Option (List TokenTree) :=
  segments ((afterSign? "::" trees).getD trees)
where
  segments : List TokenTree → Option (List TokenTree)
    | .word text _ :: rest =>
      if isKeyword text && !pathKeywords.contains text then
        none
      else
        match rest with
        | .punct ':' true _ :: .punct ':' _ _ :: rest => segments rest
        | rest => some rest
    | _ => none

def unraw (name : String) : String :=
  match name.toList with
  | 'r' :: '#' :: cs => String.ofList cs
  | _ => name

/--
A row of trees that is being read, up to the bracket that closes it.
-/
structure Reader where
  trees : List TokenTree
  /-- At least as many as there are trees. -/
  width : Nat := trees.length
  closed : Position := {}
  /-- The brackets around the row, if there are any. -/
  delimiter : Option Delimiter := none
  /-- The first place inside brackets at which something has been left. -/
  leftover : Option Complaint := none
  /-- What has been written down, the last token first. -/
  written : List TokenTree := []

namespace Reader

def place (r : Reader) : Position :=
  (r.trees.head?.map TokenTree.position).getD r.closed

def complaint? (r : Reader) : Option Complaint :=
  r.leftover.or (if r.trees.isEmpty then none else some ⟨r.place, .leftover r.delimiter⟩)

end Reader

abbrev Parser := StateT Reader (Except Complaint)

def Parser.parse (p : Parser α) (r : Reader) : Except Complaint α := do
  let (a, r) ← p r
  match r.complaint? with
  | none => return a
  | some complaint => throw complaint

def trees : Parser (List TokenTree) :=
  return (← get).trees

def ahead (test : List TokenTree → Bool) : Parser Bool :=
  return test (← trees)

def atEnd : Parser Bool :=
  ahead List.isEmpty

def here : Parser Position :=
  return (← get).place

def complain (problem : Problem) : Parser α := fun r =>
  .error ⟨r.place, problem⟩

def complainAt (position : Position) (problem : Problem) : Parser α := fun _ =>
  .error ⟨position, problem⟩

def lacks (whats : List Expectation) : Parser α := fun r =>
  .error ⟨r.place, if r.trees.isEmpty then .unexpectedEnd whats else .expected whats⟩

def write (tokens : List TokenTree) : Parser Unit :=
  modify fun r => { r with written := tokens.reverse ++ r.written }

def silently (p : Parser α) : Parser α := fun r => do
  let (a, after) ← p r
  return (a, { after with written := r.written })

def recorded (p : Parser α) : Parser (α × List TokenTree) := fun r => do
  let (a, after) ← p { r with written := [] }
  return ((a, after.written.reverse), { after with written := r.written })

def tokensOf (p : Parser α) : Parser (List TokenTree) :=
  Prod.snd <$> recorded p

def takenSince (before : List TokenTree) : Parser (List TokenTree) :=
  return before.take (before.length - (← trees).length)

def verbatim (p : Parser α) : Parser α := do
  let before ← trees
  let a ← silently p
  write (← takenSince before)
  return a

def sign (text : String) : Parser Unit := fun r =>
  match afterSign? text r.trees with
  | some trees =>
    .ok ((), { r with trees, written := (Written.sign text).reverse ++ r.written })
  | none => .error ⟨r.place, .expected [.sign text]⟩

def anyWord : Parser String := do
  match ← trees with
  | .word text position :: rest =>
    modify fun r => { r with trees := rest, written := .word text position :: r.written }
    return text
  | _ => lacks [.anyWord]

def identifier : Parser String := do
  match ← trees with
  | .word text _ :: _ => if isKeyword text then lacksIdentifier text else anyWord
  | _ => lacks [.identifier]
where
  lacksIdentifier (text : String) : Parser String :=
    complain (.reservedWord text)

def word (text : String) : Parser Unit := do
  if ← ahead (startsWord text) then
    let _ ← anyWord
  else
    lacks [.word text]

def lifetime : Parser String := do
  match ← trees with
  | .lifetime text position :: rest =>
    modify fun r => { r with trees := rest, written := .lifetime text position :: r.written }
    return text
  | _ => lacks [.lifetime]

def literal : Parser Unit := do
  match afterLiteral? (← trees) with
  | some (tokens, rest) =>
    write tokens
    modify fun r => { r with trees := rest }
  | none => lacks [.literal]

def stringLiteral : Parser String := do
  match ← trees with
  | .literal _ (some value) _ :: _ =>
    literal
    return value
  | _ => lacks [.stringLiteral]

def skipSign (text : String) : Parser Bool := do
  if ← ahead (startsSign text) then
    sign text
    return true
  else
    return false

def skipWord (text : String) : Parser Bool := do
  if ← ahead (startsWord text) then
    word text
    return true
  else
    return false

def skipLifetime : Parser (Option String) := do
  if ← ahead startsLifetime then some <$> lifetime else return none

/--
Reads what stands between brackets. What is left of it is remembered as a complaint.
-/
def group (delimiter : Delimiter) (p : Parser α) : Parser α := fun r =>
  match r.trees with
  | .group other body opened closed :: rest =>
    if other = delimiter then do
      let (a, inner) ← p
        { trees := body, closed, delimiter := some delimiter, leftover := r.leftover }
      return (a, { r with
        trees := rest
        leftover := inner.complaint?
        written := .group delimiter inner.written.reverse opened closed :: r.written })
    else
      lacks [.ofDelimiter delimiter] r
  | _ => lacks [.ofDelimiter delimiter] r

def everything : Parser Unit := do
  write (← trees)
  modify fun r => { r with trees := [] }

def anyGroup : Parser Delimiter := do
  match ← trees with
  | .group delimiter _ _ _ :: _ =>
    group delimiter everything
    return delimiter
  | _ => lacks [.anyBrackets]

/--
Repeats a step until it yields a result. Every step but the last one has to take something, so there
are at most as many steps as trees and one more.
-/
def repeating (step : σ → Parser (σ ⊕ α)) (s : σ) : Parser α := fun r =>
  go (r.width + 1) s r
where
  go : Nat → σ → Parser α
    | 0, _ => lacks []
    | n + 1, s => do
      match ← step s with
      | .inl s => go n s
      | .inr a => return a

/--
Entries up to a place, with a sign between every two and possibly one behind the last. Every entry
comes with whether the sign follows it.
-/
def separatedUntil (separator : String) (stop : List TokenTree → Bool) (entry : Parser α) :
    Parser (List (α × Bool)) :=
  repeating step []
where
  step (entries : List (α × Bool)) :
      Parser (List (α × Bool) ⊕ List (α × Bool)) := do
    if ← ahead stop then return .inr entries.reverse
    let a ← entry
    if ← ahead stop then return .inr ((a, false) :: entries).reverse
    sign separator
    return .inl ((a, true) :: entries)

/--
Entries with a sign between every two. After a sign there may be none, where a place is reached.
-/
def separatedWhile (separator : String) (stop : List TokenTree → Bool) (entry : Parser α) :
    Parser (List (α × Bool)) :=
  repeating step []
where
  step (entries : List (α × Bool)) :
      Parser (List (α × Bool) ⊕ List (α × Bool)) := do
    if ← ahead stop then return .inr entries.reverse
    let a ← entry
    if ← skipSign separator then
      return .inl ((a, true) :: entries)
    else
      return .inr ((a, false) :: entries).reverse

def terminated (entry : Parser α) : Parser (List (α × Bool)) :=
  separatedUntil "," List.isEmpty entry

def whileAhead (test : List TokenTree → Bool) (entry : Parser α) : Parser (List α) :=
  repeating step []
where
  step (entries : List α) : Parser (List α ⊕ List α) := do
    if ← ahead test then return .inl ((← entry) :: entries) else return .inr entries.reverse

def untilEnd (entry : Parser α) : Parser (List α) :=
  whileAhead (!·.isEmpty) entry

def plainPath : Parser (Bool × List String) := do
  let global ← skipSign "::"
  if !(← ahead startsSegment) then
    let _ ← identifier
  let names ← repeating step []
  return (global, names)
where
  startsSegment (trees : List TokenTree) : Bool :=
    startsIdentifier trees || startsAnyWord pathKeywords trees
  step (names : List String) : Parser (List String ⊕ List String) := do
    if ← ahead startsSegment then
      let name ← anyWord
      if ← skipSign "::" then return .inl (name :: names) else return .inr (name :: names).reverse
    else
      lacks [.pathSegment]

end Bindings.Native.Grammar
