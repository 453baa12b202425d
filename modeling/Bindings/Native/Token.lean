import Bindings.Native.SourceFault

/-!
This module contains token trees, in which brackets are matched, and their text.
-/

namespace Bindings.Native

inductive TokenTree
  /-- An identifier or a keyword. Raw identifiers keep their `r#`. -/
  | word (text : String) (position : Position)
  /-- A lifetime with its apostrophe. -/
  | lifetime (text : String) (position : Position)
  /-- A punctuation character; it is joint if another one follows at once. -/
  | punct (c : Char) (joint : Bool) (position : Position)
  /-- A literal as it is written and, if it is a string, what it denotes. -/
  | literal (text : String) (value : Option String) (position : Position)
  | group (delimiter : Delimiter) (body : List TokenTree) (opened closed : Position)
deriving Repr

namespace Delimiter

def openingText : Delimiter → String
  | paren => "("
  | bracket => "["
  | brace => "\x7b "

def closingText : Delimiter → String
  | paren => ")"
  | bracket => "]"
  | brace => "\x7d"

end Delimiter

namespace TokenTree

def position : TokenTree → Position
  | word _ position | lifetime _ position | punct _ _ position | literal _ _ position
  | group _ _ position _ => position

def isJoint : TokenTree → Bool
  | punct _ joint _ => joint
  | _ => false

/--
The text of a tree. A space stands inside braces and between every two trees of which the first one
is not joint.
-/
def render : TokenTree → String
  | word text _ | lifetime text _ | literal text _ _ => text
  | punct c _ _ => String.singleton c
  | group delimiter [] _ _ => delimiter.openingText ++ delimiter.closingText
  | group delimiter (tree :: trees) _ _ =>
    delimiter.openingText ++ tree.render ++ go tree.isJoint trees
      ++ (if delimiter = .brace then " " else "") ++ delimiter.closingText
where
  go (joint : Bool) : List TokenTree → String
    | [] => ""
    | tree :: trees => (if joint then "" else " ") ++ tree.render ++ go tree.isJoint trees

def renderAll : List TokenTree → String
  | [] => ""
  | tree :: trees => tree.render ++ render.go tree.isJoint trees

def size : TokenTree → Nat
  | group _ body _ _ => go body + 2
  | _ => 1
where
  go : List TokenTree → Nat
    | [] => 0
    | tree :: trees => tree.size + go trees

def sizeAll (trees : List TokenTree) : Nat :=
  size.go trees

end TokenTree

namespace Written

def word (text : String) : TokenTree :=
  .word text {}

def sign (text : String) : List TokenTree :=
  go text.toList
where
  go : List Char → List TokenTree
    | [] => []
    | [c] => [.punct c false {}]
    | c :: cs => .punct c true {} :: go cs

def group (delimiter : Delimiter) (body : List TokenTree) : TokenTree :=
  .group delimiter body {} {}

end Written

end Bindings.Native
