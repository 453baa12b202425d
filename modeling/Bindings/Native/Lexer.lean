import Bindings.Native.Literal
import Bindings.Native.Token
import Bindings.Text.Blank
import Bindings.Text.Quoted

/-!
This module contains the reading of native source text into tokens and the matching of brackets.
Comments and white space separate tokens; documentation comments are attributes.
-/

namespace Bindings.Native

inductive Lexeme
  | leaf (token : TokenTree)
  | opening (delimiter : Delimiter) (position : Position)
  | closing (delimiter : Delimiter) (position : Position)

namespace Lexer

/--
The marks that direct text from left to right or from right to left count as white space.
-/
def isSpace (c : Char) : Bool :=
  Text.isBlank c || c.toNat == 0x200e || c.toNat == 0x200f

def punctuation : List Char :=
  "~!@#$%^&*-=+|;:,<.>/?'".toList

def startsPunct (cs : List Char) : Bool :=
  match cs with
  | '/' :: '/' :: _ | '/' :: '*' :: _ => false
  | c :: _ => punctuation.contains c
  | [] => false

def spanLine : List Char → List Char × List Char
  | [] => ([], [])
  | '\n' :: cs => ([], '\n' :: cs)
  | '\r' :: '\n' :: cs => ([], '\n' :: cs)
  | c :: cs =>
    let (line, rest) := spanLine cs
    (c :: line, rest)

def spanBlock (depth : Nat) : List Char → Option (List Char × List Char)
  | [] => none
  | '*' :: '/' :: cs =>
    match depth with
    | 0 => some ([], cs)
    | depth + 1 => (spanBlock depth cs).map fun (body, rest) => ('*' :: '/' :: body, rest)
  | '/' :: '*' :: cs => (spanBlock (depth + 1) cs).map fun (body, rest) =>
    ('/' :: '*' :: body, rest)
  | c :: cs => (spanBlock depth cs).map fun (body, rest) => (c :: body, rest)

def returnsPaired : List Char → Bool
  | [] => true
  | '\r' :: '\n' :: cs => returnsPaired cs
  | c :: cs => c != '\r' && returnsPaired cs

def docTokens (inner : Bool) (body : List Char) (position : Position) : List Lexeme :=
  let doc := String.ofList body
  [.leaf (.punct '#' false position)]
    ++ (if inner then [.leaf (.punct '!' false position)] else [])
    ++ [.opening .bracket position, .leaf (.word "doc" position),
      .leaf (.punct '=' false position),
      .leaf (.literal (Text.Quoted.encode doc) (some doc) position), .closing .bracket position]

abbrev Step := Option ((Position → List Lexeme) × List Char)

def skip (rest : List Char) : Step :=
  some (fun _ => [], rest)

def yield (lexeme : Position → Lexeme) (rest : List Char) : Step :=
  some (fun position => [lexeme position], rest)

def doc (inner : Bool) (body rest : List Char) : Step :=
  if returnsPaired body then some (docTokens inner body, rest) else none

def comment : List Char → Step
  | '/' :: '/' :: '/' :: cs => skip (spanLine cs).2
  | '/' :: '/' :: cs => let (body, rest) := spanLine cs; doc false body rest
  | '/' :: '!' :: cs => let (body, rest) := spanLine cs; doc true body rest
  | '/' :: cs => skip (spanLine cs).2
  | '*' :: '*' :: '/' :: cs => skip cs
  | '*' :: '*' :: '*' :: cs => do skip (← spanBlock 0 ('*' :: '*' :: cs)).2
  | '*' :: '*' :: cs => do let (body, rest) ← spanBlock 0 cs; doc false body rest
  | '*' :: '!' :: cs => do let (body, rest) ← spanBlock 0 cs; doc true body rest
  | '*' :: cs => do skip (← spanBlock 0 cs).2
  | _ => none

def neverRaw : List String :=
  ["_", "super", "self", "Self", "crate"]

def spanWord : List Char → Option (String × List Char)
  | [] => none
  | c :: cs =>
    if Text.isWordStart c then
      some (String.ofList (c :: cs.takeWhile Text.isWordContinue), cs.dropWhile Text.isWordContinue)
    else
      none

def spanIdentifier : List Char → Option (String × List Char)
  | 'r' :: '#' :: cs => do
    let (name, rest) ← spanWord cs
    if neverRaw.contains name then failure
    return ("r#" ++ name, rest)
  | cs => spanWord cs

def literalPrefixes : List String :=
  ["r\"", "r#\"", "r##", "b\"", "b'", "br\"", "br#", "c\"", "cr\"", "cr#"]

def identifier (cs : List Char) : Step := do
  if literalPrefixes.any fun start => start.toList.isPrefixOf cs then failure
  let (name, rest) ← spanIdentifier cs
  yield (fun position => .leaf (.word name position)) rest

def lifetime (cs : List Char) : Step := do
  let (name, rest) ← spanIdentifier cs
  match rest with
  | '\'' :: _ => failure
  | '#' :: _ =>
    if "r#".toList.isPrefixOf cs then
      yield (fun position => .leaf (.lifetime ("'" ++ name) position)) rest
    else
      failure
  | _ => yield (fun position => .leaf (.lifetime ("'" ++ name) position)) rest

def leaf (cs : List Char) : Step :=
  match Literal.read cs with
  | some (value, rest) =>
    let text := String.ofList (cs.take (cs.length - rest.length))
    yield (fun position => .leaf (.literal text value position)) rest
  | none =>
    match cs with
    | '\'' :: cs => lifetime cs
    | c :: rest =>
      if startsPunct cs then
        yield (fun position => .leaf (.punct c (startsPunct rest) position)) rest
      else
        identifier cs
    | [] => none

/--
The spelling of a token that stands for a mistake. It is a literal.
-/
def mistake : List Char :=
  "(/*ERROR*/)".toList

def step (cs : List Char) : Step :=
  if mistake.isPrefixOf cs then
    yield (fun position => .leaf (.literal (String.ofList mistake) none position))
      (cs.drop mistake.length)
  else
    match cs with
    | [] => none
    | '(' :: cs => yield (.opening .paren) cs
    | '[' :: cs => yield (.opening .bracket) cs
    | '\x7b' :: cs => yield (.opening .brace) cs
    | ')' :: cs => yield (.closing .paren) cs
    | ']' :: cs => yield (.closing .bracket) cs
    | '\x7d' :: cs => yield (.closing .brace) cs
    | '/' :: '/' :: cs => comment ('/' :: cs)
    | '/' :: '*' :: cs => comment ('*' :: cs)
    | c :: cs => if isSpace c then skip (cs.dropWhile isSpace) else leaf (c :: cs)

/--
Reads a text from a position on. Every step has to consume something.
-/
def lexemesFrom (position : Position) (cs : List Char) : Option (List Lexeme) :=
  if cs.isEmpty then
    some []
  else
    match step cs with
    | none => none
    | some (lexemes, rest) =>
      if rest.length < cs.length then do
        let consumed := cs.take (cs.length - rest.length)
        return lexemes position ++ (← lexemesFrom (position.advance consumed) rest)
      else
        none
termination_by cs.length

/--
A bracket that has been opened: the trees before it, the last one first.
-/
structure Frame where
  delimiter : Delimiter
  opened : Position
  before : List TokenTree

def nest (frames : List Frame) (trees : List TokenTree) : List Lexeme → Option (List TokenTree)
  | [] => if frames.isEmpty then some trees.reverse else none
  | .leaf token :: lexemes => nest frames (token :: trees) lexemes
  | .opening delimiter position :: lexemes =>
    nest (⟨delimiter, position, trees⟩ :: frames) [] lexemes
  | .closing delimiter position :: lexemes =>
    match frames with
    | [] => none
    | frame :: frames =>
      if frame.delimiter = delimiter then
        nest frames (.group delimiter trees.reverse frame.opened position :: frame.before) lexemes
      else
        none

def dropByteOrderMark : List Char → List Char
  | [] => []
  | c :: cs => if c.toNat == 0xfeff then cs else c :: cs

def trees (cs : List Char) : Option (List TokenTree) := do
  nest [] [] (← lexemesFrom {} (dropByteOrderMark cs))

def skipSpace (cs : List Char) : List Char :=
  match step cs with
  | some (lexemes, rest) =>
    if rest.length < cs.length ∧ (lexemes {}).isEmpty then skipSpace rest else cs
  | none => cs
termination_by cs.length

/--
A text without the interpreter line at its beginning. A line that begins an inner attribute is none.
-/
def dropInterpreterLine : List Char → List Char
  | '#' :: '!' :: cs =>
    if (skipSpace cs).head? == some '[' then '#' :: '!' :: cs else cs.dropWhile (· != '\n')
  | cs => cs

def fileTrees (text : String) : Option (List TokenTree) :=
  trees (dropInterpreterLine (dropByteOrderMark text.toList))

end Lexer

end Bindings.Native
