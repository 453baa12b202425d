import Bindings.Proofs.Artifact.Condensed

/-!
This module contains what documentation and ownership are to an artifact: comments and, where a
variant is documented, the layout of a union. They change no declaration.
-/

namespace Bindings

theorem map_eq_map_cases {x y : Except ε α} {f : α → β} (h : x.map f = y.map f) :
    (∃ fault, x = .error fault ∧ y = .error fault)
      ∨ ∃ a b, x = .ok a ∧ y = .ok b ∧ f a = f b := by
  cases x with
  | error fault =>
    cases y with
    | error fault' =>
      cases h
      exact Or.inl ⟨fault, rfl, rfl⟩
    | ok b => cases h
  | ok a =>
    cases y with
    | error fault' => cases h
    | ok b => exact Or.inr ⟨a, b, rfl, rfl, Except.ok.inj h⟩

namespace Description

open Artifact Text

theorem generate_condense (d : Description) {o : Options} (h : o.header = []) :
    (d.generate o).result.map condense = (d.bare.generate o.bare).result := by
  rcases cosmetic_bare.generate_cases d with ⟨fault, herror⟩ | ⟨u, r, haccepted, hbare⟩
  . rw [(herror o).1]
    exact (herror o.bare).2.symm
  . have hok := hbare.generate_eq_ok o.bare
    rw [haccepted.generate_eq_ok o, Except.map, condense_text o r haccepted h]
    exact hok.symm

theorem generate_owned (d : Description) {o : Options} (h : o.jsdoc = false) :
    (d.owned.generate o).result = (d.generate o).result := by
  rcases cosmetic_owned.generate_cases d with ⟨fault, herror⟩ | ⟨u, r, haccepted, howned⟩
  . rw [(herror o).1]
    exact (herror o).2
  . have hok := howned.generate_eq_ok o
    rw [text_owned o r h] at hok
    rw [haccepted.generate_eq_ok o]
    exact hok

/--
Descriptions that differ only in documentation and in the ownership of parameters end at the same
fault, or their artifacts are condensed to the same text, whether signatures are documented or not.
Without documented signatures ownership does not show in the artifact.
-/
theorem generate_of_bare_eq {d other : Description} {o o' : Options} (hd : d.bare = other.bare)
    (ho : o.bare = o'.bare) (hheader : o.header = []) :
    ((∃ fault, (d.generate o).result = .error fault ∧ (other.generate o').result = .error fault)
        ∨ ∃ text text', (d.generate o).result = .ok text ∧ (other.generate o').result = .ok text'
          ∧ condense text = condense text'
          ∧ (d.bare.generate o.bare).result = .ok (condense text))
      ∧ (d.owned = other.owned → o.jsdoc = false → o'.jsdoc = false →
          (d.generate o).result = (other.generate o').result) := by
  have hheader' : o'.header = [] := by
    rw [← hheader]
    exact (congrArg Options.header ho).symm
  have hbare := generate_condense d hheader
  have hsame : (d.generate o).result.map condense = (other.generate o').result.map condense := by
    rw [hbare, generate_condense other hheader', hd, ho]
  constructor
  . rcases map_eq_map_cases hsame with herror | ⟨text, text', hok, hok', heq⟩
    . exact Or.inl herror
    . rw [hok] at hbare
      exact Or.inr ⟨text, text', hok, hok', heq, hbare.symm⟩
  . intro howned hjsdoc hjsdoc'
    have hoptions : o = o' := by
      have huntagged : ∀ o : Options, o.jsdoc = false → o.bare = o := by
        intro o h
        unfold Options.bare
        rw [← h]
      rw [← huntagged o hjsdoc, ho, huntagged o' hjsdoc']
    rw [← generate_owned d hjsdoc, howned, hoptions, generate_owned other hjsdoc']

def palette : Description where
  types :=
    [{ id := "Color"
       doc := some "A color. */ | Fake"
       body := .enum .external
        [{ name := "Red", doc := some "" },
          { name := "Named"
            payload := .newtype (.scalar .string)
            doc := some "| Fake;\n\n*/" }] }]
  functions :=
    [{ name := "paint"
       params := [{ name := "color", type := .named "Color", ownership := .borrowed }] }]

theorem generate_palette :
    (∃ text, (palette.generate { header := [], jsdoc := true }).result = .ok text
        ∧ condense text = "export type Color = \"Red\" | \x7b Named: string \x7d;\n\n"
          ++ "export function paint(color: Color): void;\n")
      ∧ palette.owned ≠ palette
      ∧ (palette.owned.generate { header := [] }).result
        = (palette.generate { header := [] }).result := by
  let u : Universe := ⟨palette.bare.types, by decide⟩
  have hbare : Accepted palette.bare u ⟨[(0 : Fin 1)], palette.bare.functions⟩ := by
    refine ⟨rfl, Universe.ofDecls_eq_ok_iff.2 rfl, ?_, rfl⟩
    cbv
  have hplain : (palette.bare.generate { header := [] }).result
      = .ok ("export type Color = \"Red\" | \x7b Named: string \x7d;\n\n"
        ++ "export function paint(color: Color): void;\n") := by
    rw [hbare.generate_eq_ok]
    rfl
  have hd : palette.bare = palette.bare.bare := rfl
  have ho : Options.bare { header := [], jsdoc := true } = Options.bare { header := [] } := rfl
  refine ⟨?_, by decide, ?_⟩
  . rcases (generate_of_bare_eq hd ho rfl).1
      with ⟨fault, _, herror⟩ | ⟨text, _, hok, _, _, hcondensed⟩
    . rw [hplain] at herror
      cases herror
    . have htext := hplain.symm.trans hcondensed
      exact ⟨text, hok, (Except.ok.inj htext).symm⟩
  . have howned : palette.owned.bare = palette.bare := rfl
    exact (generate_of_bare_eq howned rfl rfl).2 rfl rfl rfl

end Description

end Bindings
