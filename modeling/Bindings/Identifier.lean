/-!
This module contains the identifiers of the target: which texts can stand as a name without quotes
and which of these are reserved.
-/

namespace Bindings.Identifier

def isStart (c : Char) : Bool :=
  c.isAlpha || c == '_' || c == '$'

def isContinue (c : Char) : Bool :=
  c.isAlphanum || c == '_' || c == '$'

/--
Whether a text can stand unquoted as a name. Identifiers are ASCII.
-/
def isIdentifier (text : String) : Bool :=
  match text.toList with
  | [] => false
  | first :: rest => isStart first && rest.all isContinue

/--
The words that cannot name a declaration or a parameter. Property keys may still use them.
-/
def reservedWords : List String :=
  ["await", "break", "case", "catch", "class", "const", "continue", "debugger", "default",
    "delete", "do", "else", "enum", "export", "extends", "false", "finally", "for", "function",
    "if", "implements", "import", "in", "instanceof", "interface", "let", "new", "null",
    "package", "private", "protected", "public", "return", "static", "super", "switch", "this",
    "throw", "true", "try", "typeof", "var", "void", "while", "with", "yield"]

def isReserved (text : String) : Bool :=
  reservedWords.contains text

end Bindings.Identifier
