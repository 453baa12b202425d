import Bindings.Proofs.Reference
import Mathlib.Logic.Relation

/-!
This module contains the graph that the references of declarations span, which of its nodes the
functions and the exported types reach, and when no reference leads out of it.
-/

namespace Bindings.ReferenceGraph

variable (decls : List TypeDecl) (functions : List FunctionDecl)

def RefersTo (i j : Fin decls.length) : Prop :=
  ∃ site, (decls.get i).MentionsAt i (decls.get j).id site

theorem refersTo_iff {i j : Fin decls.length} :
    RefersTo decls i j
      ↔ (decls.get j).id ∈ (mentions ((decls.get i).references i)).map (·.1) := by
  unfold RefersTo
  rw [List.mem_map]
  constructor
  . rintro ⟨site, h⟩
    exact ⟨(_, site), TypeDecl.mem_mentions_references_iff.2 h, rfl⟩
  . rintro ⟨⟨_, site⟩, h, heq⟩
    subst heq
    exact ⟨site, TypeDecl.mem_mentions_references_iff.1 h⟩

instance (i j : Fin decls.length) : Decidable (RefersTo decls i j) :=
  decidable_of_iff _ (refersTo_iff decls).symm

def IsRoot (i : Fin decls.length) : Prop :=
  (decls.get i).exported = true
    ∨ ∃ function ∈ functions, ∃ site, function.MentionsAt (decls.get i).id site

def Reachable (i : Fin decls.length) : Prop :=
  ∃ root, IsRoot decls functions root ∧ Relation.ReflTransGen (RefersTo decls) root i

def MentionedAt (id : String) (site : Site) : Prop :=
  (∃ function ∈ functions, function.MentionsAt id site)
    ∨ ∃ i, Reachable decls functions i ∧ (decls.get i).MentionsAt i id site

def Declared (id : String) : Prop :=
  ∃ i, (decls.get i).id = id

def Closed : Prop :=
  ∀ id site, MentionedAt decls functions id site → Declared decls id

structure DistinctNames : Prop where
  type_names : ∀ i j, Reachable decls functions i → Reachable decls functions j →
    (decls.get i).declaredName = (decls.get j).declaredName → i = j
  function_names : (functions.map (·.name)).Nodup
  apart : ∀ i, Reachable decls functions i → ∀ function ∈ functions,
    (decls.get i).declaredName ≠ function.name

end Bindings.ReferenceGraph
