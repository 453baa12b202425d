import Bindings.Proofs.Artifact.DeclaredNames

/-!
This module contains what is gathered from a text part by part, and how it goes through the lines,
the blocks and the whole of an artifact.
-/

namespace Bindings.Artifact

open Text

/--
A text gives a list, texts that are put together give their lists one behind the other, and line
feeds give nothing.
-/
structure Gathers (p : String → List β → Prop) : Prop where
  append : ∀ {text other list more}, p text list → p other more → p (text ++ other) (list ++ more)
  empty : p "" []
  feed : p "\n" []

namespace Gathers

variable {p : String → List β → Prop} (h : Gathers p)

include h

theorem line {text : String} {list : List β} (htext : p text list) : p (unlines [text]) list := by
  simpa [unlines] using h.append htext h.feed

theorem block {lines others : List String} {list more : List β} (hlines : p (unlines lines) list)
    (hothers : p (unlines others) more) : p (unlines (lines ++ others)) (list ++ more) := by
  rw [unlines_append]
  exact h.append hlines hothers

theorem flatMap {elements : List α} {lines : α → List String} {list : α → List β}
    (hlines : ∀ element ∈ elements, p (unlines (lines element)) (list element)) :
    p (unlines (elements.flatMap lines)) (elements.flatMap list) := by
  induction elements with
  | nil => exact h.empty
  | cons element elements ih =>
    rw [List.forall_mem_cons] at hlines
    exact h.block hlines.1 (ih hlines.2)

theorem separate {elements : List α} {block : α → List String} {list : α → List β}
    (hblock : ∀ element ∈ elements, p (unlines (block element)) (list element)) :
    p (unlines (Artifact.separate (elements.map block))) (elements.flatMap list) := by
  induction elements with
  | nil => exact h.empty
  | cons element elements ih =>
    rw [List.forall_mem_cons] at hblock
    cases elements with
    | nil => simpa [Artifact.separate] using hblock.1
    | cons next elements =>
      have hblocks := h.block hblock.1 (h.block (h.line h.empty) (ih hblock.2))
      simpa [Artifact.separate] using hblocks

theorem functions {r : Resolution u} {o : Options} {list : FunctionDecl → List β}
    (hfunctions : ∀ function ∈ r.functions,
      p (unlines (functionLines u.nameOf o function)) (list function)) :
    p (unlines ((if !(r.decls.map (typeLines u.nameOf o)).isEmpty && !r.functions.isEmpty
      then [""] else []) ++ r.functions.flatMap (functionLines u.nameOf o)))
      (r.functions.flatMap list) := by
  split
  . exact h.block (h.line h.empty) (h.flatMap hfunctions)
  . exact h.flatMap hfunctions

theorem bodyLines {r : Resolution u} {o : Options} {list : TypeDecl → List β}
    {more : FunctionDecl → List β}
    (htypes : ∀ decl ∈ r.decls, p (unlines (typeLines u.nameOf o decl)) (list decl))
    (hfunctions : ∀ function ∈ r.functions,
      p (unlines (functionLines u.nameOf o function)) (more function)) :
    p (unlines (bodyLines o r)) (r.decls.flatMap list ++ r.functions.flatMap more) :=
  h.block (h.separate htypes) (h.functions hfunctions)

end Gathers

end Bindings.Artifact
