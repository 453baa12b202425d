import Bindings.Text.Blank
import Bindings.Text.Lines

/-!
This module contains the comment blocks that carry documentation into an artifact.
-/

namespace Bindings.Artifact

/--
The text in which no comment ends: a slash after an asterisk is escaped.
-/
def escapeTerminator : List Char → List Char
  | [] => []
  | '*' :: '/' :: cs => '*' :: '\\' :: '/' :: escapeTerminator cs
  | c :: cs => c :: escapeTerminator cs

def docLine (margin line : String) : String :=
  match escapeTerminator (Text.trimEnd line.toList) with
  | [] => margin ++ " *"
  | text => margin ++ " * " ++ String.ofList text

def docBlock (margin : String) (lines : List String) : List String :=
  (margin ++ "/**") :: lines.map (docLine margin) ++ [margin ++ " */"]

def docLines (margin : String) : Option String → List String
  | none => []
  | some doc => docBlock margin (Text.lines doc)

end Bindings.Artifact
