import Bindings.Proofs.Artifact.Statements

/-!
This module contains where an artifact does without parentheses although it joins types with `&` and
with `|`: at a tag that is joined to a payload which can be absent.
-/

namespace Bindings

theorem Body.ambiguities_eq_zero_iff {body : Body} :
    body.ambiguities = 0
      ↔ ∀ tag variants, body = .enum (.internal tag) variants →
        ∀ variant ∈ variants, ∀ inner, variant.payload ≠ .newtype (.option inner) := by
  constructor
  . rintro h tag variants rfl ⟨name, payload, doc⟩ hmem inner rfl
    exact List.countP_eq_zero.1 h _ hmem rfl
  . intro h
    cases body with
    | struct fields => rfl
    | typeAlias target => rfl
    | enum tagging variants =>
      rw [ambiguities, List.countP_eq_zero]
      rintro ⟨name, payload, doc⟩ hmem hambiguous
      cases tagging with
      | internal tag =>
        cases payload with
        | newtype type =>
          cases type with
          | option inner => exact h tag variants rfl _ hmem inner rfl
          | _ => cases hambiguous
        | _ => cases hambiguous
      | _ => cases hambiguous

namespace Artifact

open Text

theorem isMixed_eq_false_iff_mixtures {trees : List Tree} (h : isMixed trees = false) :
    (∀ level ∈ levels trees, isMixed level = false) ↔ mixtures trees = 0 := by
  rw [levels, List.forall_mem_cons, List.forall_mem_map, mixtures, List.countP_eq_zero]
  simp [h]

/--
No expression of an artifact has both an `&` and a `|` outside of the brackets in it, so each part
of an intersection is all of what is joined and each intersection is all of a union's member. The
only exception is a tag that is joined to a payload which can be absent.
-/
theorem isMixed_eq_false_iff_of_generate {d : Description} {o : Options} {text : String}
    (h : (d.generate o).result = .ok text) :
    ∃ u, ∃ r : Resolution u, ∃ rest trees,
      Universe.ofDecls d.types = .ok u
        ∧ (Resolution.resolve u d.functions).result = .ok r
        ∧ text = unlines o.header ++ rest
        ∧ trees? rest = some trees
        ∧ ((∀ level ∈ levels trees, isMixed level = false)
          ↔ ∀ decl ∈ r.decls, ∀ tag variants, decl.body = .enum (.internal tag) variants →
            ∀ variant ∈ variants, ∀ inner, variant.payload ≠ .newtype (.option inner)) := by
  obtain ⟨u, r, haccepted, heq⟩ := Description.generate_eq_ok_iff.1 h
  obtain ⟨trees, hreads, hclear, _, hmixed⟩ := stated_bodyLines haccepted o
  have houter : isMixed trees = false := by
    have hnil := hclear []
    rw [List.append_nil] at hnil
    rw [hnil]
    rfl
  refine ⟨u, r, unlines (bodyLines o r), trees, haccepted.declared, haccepted.resolved, ?_,
    hreads.trees?_eq_some, ?_⟩
  . rw [heq, text_eq_append]
  . rw [isMixed_eq_false_iff_mixtures houter, hmixed, List.sum_eq_zero_iff_forall_eq_nat,
      List.forall_mem_map]
    simp only [Body.ambiguities_eq_zero_iff]

/--
Fields of other types are flattened, one of which can be absent, and tags stand in front of
payloads.
-/
def events : Universe where
  decls :=
    [{ id := "Base", body := .struct [{ name := "at", type := .scalar .u32 }] },
      { id := "Note"
        body := .struct
         [{ name := "title", type := .option (.scalar .string) },
          { name := "base", type := .named "Base", flatten := true },
          { name := "last", type := .option (.named "Base"), flatten := true }] },
      { id := "Event"
        body := .enum (.internal "kind")
         [{ name := "Cleared" },
          { name := "Written", payload := .newtype (.named "Note") },
          { name := "Moved"
            payload := .struct [{ name := "base", type := .named "Base", flatten := true }] }]
        exported := true }]
  nodup_ids := by decide

theorem accepted_events : Description.Accepted ⟨events.decls, []⟩ events
    ⟨[(0 : Fin 3), (1 : Fin 3), (2 : Fin 3)], []⟩ := by
  refine ⟨rfl, Universe.ofDecls_eq_ok_iff.2 rfl, ?_, rfl⟩
  cbv

theorem isMixed_eq_false_events :
    let text := "export interface Base \x7b\n  at: number;\n\x7d\n\n"
      ++ "export type Note = \x7b\n  title: string | null;\n\x7d & Base & (Base | \x7b\x7d);\n\n"
      ++ "export type Event = \x7b kind: \"Cleared\" \x7d | (\x7b kind: \"Written\" \x7d & Note)"
      ++ " | (\x7b kind: \"Moved\" \x7d & Base);\n"
    (Description.generate ⟨events.decls, []⟩ plainNotes).result = .ok text
      ∧ ∃ trees, trees? text = some trees ∧ ∀ level ∈ levels trees, isMixed level = false := by
  intro text
  have hok : (Description.generate ⟨events.decls, []⟩ plainNotes).result = .ok text := by
    rw [accepted_events.generate_eq_ok]
    decide +kernel
  obtain ⟨u, r, rest, trees, hdeclared, hresolved, htext, hreads, hiff⟩ :=
    isMixed_eq_false_iff_of_generate hok
  rw [accepted_events.declared] at hdeclared
  cases hdeclared
  rw [accepted_events.resolved] at hresolved
  cases hresolved
  obtain rfl : text = rest := htext.trans String.empty_append
  have hnone : ∀ decl ∈ events.decls, decl.body.ambiguities = 0 := by decide
  refine ⟨hok, trees, hreads, hiff.2 ?_⟩
  intro decl hmem
  exact Body.ambiguities_eq_zero_iff.1 (hnone decl hmem)

def messages : Universe where
  decls :=
    [{ id := "Message"
       body := .enum (.internal "kind")
        [{ name := "Text", payload := .newtype (.option (.scalar .string)) }]
       exported := true }]
  nodup_ids := by decide

theorem accepted_messages : Description.Accepted ⟨messages.decls, []⟩ messages
    ⟨[(0 : Fin 1)], []⟩ := by
  refine ⟨rfl, Universe.ofDecls_eq_ok_iff.2 rfl, ?_, rfl⟩
  cbv

theorem mixed_messages :
    (Description.generate ⟨messages.decls, []⟩ plainNotes).result
        = .ok "export type Message = (\x7b kind: \"Text\" \x7d & string | null);\n"
      ∧ ∃ trees,
        trees? "export type Message = (\x7b kind: \"Text\" \x7d & string | null);\n" = some trees
          ∧ ¬ ∀ level ∈ levels trees, isMixed level = false := by
  constructor
  . rw [accepted_messages.generate_eq_ok]
    rfl
  . decide +kernel

end Artifact

end Bindings
