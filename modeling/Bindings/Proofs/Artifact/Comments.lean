import Bindings.Artifact.Emission
import Bindings.Proofs.Text.Lexeme

/-!
This module contains the comments of an artifact: one for each documentation of a description, and
one for each function whose signature is documented. No line of documentation ends its comment.
-/

namespace Bindings.Artifact

open Text

def comment (margin : String) (lines : List String) : String :=
  "/**\n" ++ unlines (lines.map (docLine margin)) ++ margin ++ " */"

def docComments (margin : String) : Option String → List String
  | none => []
  | some doc => [comment margin (Text.lines doc)]

def bodyComments (o : Options) : Body → List String
  | .struct fields =>
    (fields.filter (!·.flatten)).flatMap fun field => docComments o.margin field.doc
  | .enum _ variants => variants.flatMap fun variant => docComments o.margin variant.doc
  | .typeAlias _ => []

def typeComments (o : Options) (decl : TypeDecl) : List String :=
  docComments "" decl.doc ++ bodyComments o decl.body

def functionDocs (nameOf : String → String) (o : Options) (function : FunctionDecl) :
    List String :=
  (function.doc.map Text.lines).getD [] ++ functionTags nameOf o function

def functionComments (nameOf : String → String) (o : Options) (function : FunctionDecl) :
    List String :=
  if (functionDocs nameOf o function).isEmpty then []
  else [comment "" (functionDocs nameOf o function)]

def comments (o : Options) (r : Resolution u) : List String :=
  r.decls.flatMap (typeComments o) ++ r.functions.flatMap (functionComments u.nameOf o)

theorem unlines_docBlock (margin : String) (lines : List String) :
    unlines (docBlock margin lines) = margin ++ comment margin lines ++ "\n" := by
  apply String.toList_inj.1
  simp [docBlock, comment, unlines, unlines_append]

theorem escapeTerminator_cons (c : Char) (cs : List Char) :
    ∃ rest, escapeTerminator (c :: cs) = c :: rest := by
  unfold escapeTerminator
  split
  . next heq =>
    cases heq
  . next heq =>
    cases heq
    exact ⟨_, rfl⟩
  . next heq =>
    cases heq
    exact ⟨_, rfl⟩

/--
An escaped line goes on with the comment in which it stands, also with its line feed: a final
asterisk is not followed by a slash.
-/
theorem commented_escapeTerminator (cs : List Char) :
    Commented (escapeTerminator cs ++ ['\n']) := by
  induction cs using escapeTerminator.induct with
  | case1 =>
    intro read rest
    simp [escapeTerminator]
  | case2 cs ih =>
    rw [escapeTerminator]
    have hescape : Commented ['*', '\\', '/'] := by
      intro read rest
      simp
    exact hescape.append ih
  | case3 c cs hterminator ih =>
    rw [escapeTerminator]
    . cases cs with
      | nil => exact ih.cons rfl fun _ => by decide
      | cons d cs =>
        obtain ⟨rest, heq⟩ := escapeTerminator_cons d cs
        rw [heq] at ih ⊢
        apply ih.cons rfl
        rintro hstar rfl
        exact hterminator cs hstar rfl
    . exact hterminator

theorem commented_docLine {margin : String} (line : String) (hmargin : Commented margin.toList) :
    Commented (docLine margin line ++ "\n").toList := by
  have hstar : Commented [' ', '*', '\n'] := by
    intro read rest
    simp
  have hspaced : Commented [' ', '*', ' '] := by
    intro read rest
    simp
  unfold docLine
  split
  . simpa using hmargin.append hstar
  . next text _ =>
    have htext := commented_escapeTerminator (trimEnd line.toList)
    simpa using (hmargin.append hspaced).append htext

theorem cuts_comment {margin : String} (lines : List String) (hmargin : Commented margin.toList) :
    Cuts (comment margin lines).toList [.comment (comment margin lines).toList] := by
  have hlines : Commented (unlines (lines.map (docLine margin))).toList := by
    induction lines with
    | nil =>
      intro read rest
      simp [unlines]
    | cons line lines ih =>
      rw [List.map_cons, unlines, String.toList_append]
      exact (commented_docLine line hmargin).append ih
  have hopen : Commented ['*', '\n'] := by
    intro read rest
    simp
  have hclose : Commented [' '] := by
    intro read rest
    simp
  have hinner := ((hopen.append hlines).append hmargin).append hclose
  have hsplit : (comment margin lines).toList = ['/', '*']
      ++ (['*', '\n'] ++ (unlines (lines.map (docLine margin))).toList ++ margin.toList ++ [' '])
      ++ ['*', '/'] := by
    simp [comment]
  rw [hsplit]
  exact hinner.cuts

end Bindings.Artifact
