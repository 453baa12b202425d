import Bindings.Proofs.WellFormed

/-!
This module contains the shape rules of declarations one by one. A rule about fields speaks of
structs and of struct payloads alike, a rule about tags of one tagging only. Validation accepts
exactly the descriptions that keep all of them.
-/

namespace Bindings

inductive TypeRef.HasProperties : TypeRef → Prop
  | named {id : String} : HasProperties (.named id)
  | map : HasProperties (.map key value)

theorem TypeRef.isFlattenable_iff {type : TypeRef} :
    type.isFlattenable = true
      ↔ type.HasProperties ∨ ∃ inner, type = .option inner ∧ inner.HasProperties := by
  have hinner : ∀ inner : TypeRef,
      (option inner).isFlattenable = true ↔ inner.HasProperties := by
    intro inner
    constructor
    . intro h
      cases inner with
      | named => exact .named
      | map => exact .map
      | scalar => cases h
      | vector => cases h
      | option => cases h
      | tuple => cases h
    . intro h
      cases h with
      | named => rfl
      | map => rfl
  constructor
  . intro h
    cases type with
    | named => exact Or.inl .named
    | map => exact Or.inl .map
    | option inner => exact Or.inr ⟨inner, rfl, (hinner inner).1 h⟩
    | scalar => cases h
    | vector => cases h
    | tuple => cases h
  . rintro (h | ⟨inner, rfl, h⟩)
    . cases h with
      | named => rfl
      | map => rfl
    . exact (hinner inner).2 h

namespace TypeDecl

inductive HasFields (decl : TypeDecl) : List Field → Prop
  | struct (hbody : decl.body = .struct fields) : HasFields decl fields
  | variant (hbody : decl.body = .enum tagging variants) (hvariant : variant ∈ variants)
      (hpayload : variant.payload = .struct fields) : HasFields decl fields

structure KeepsRules (decl : TypeDecl) : Prop where
  id : Identifier.Declarable decl.id
  declared_name : Identifier.Declarable decl.declaredName
  field_names : ∀ fields, decl.HasFields fields → ∀ field ∈ fields, field.name ≠ ""
  /-- Only what has properties, or can be absent and has some, is flattened. -/
  flattened : ∀ fields, decl.HasFields fields → ∀ field ∈ fields, field.flatten = true →
    field.type.HasProperties ∨ ∃ inner, field.type = .option inner ∧ inner.HasProperties
  nodup_fields : ∀ fields, decl.HasFields fields →
    ((fields.filter (!·.flatten)).map (·.name)).Nodup
  variant_names : ∀ tagging variants, decl.body = .enum tagging variants →
    ∀ variant ∈ variants, variant.name ≠ ""
  nodup_variants : ∀ tagging variants, decl.body = .enum tagging variants →
    (variants.map (·.name)).Nodup
  internal_tag : ∀ tag variants, decl.body = .enum (.internal tag) variants → tag ≠ ""
  internal_tuple : ∀ tag variants, decl.body = .enum (.internal tag) variants →
    ∀ variant ∈ variants, ∀ elements, variant.payload ≠ .tuple elements
  internal_field : ∀ tag variants, decl.body = .enum (.internal tag) variants →
    ∀ variant ∈ variants, ∀ fields, variant.payload = .struct fields →
      ∀ field ∈ fields, field.flatten = false → field.name ≠ tag
  adjacent_tag : ∀ tag content variants, decl.body = .enum (.adjacent tag content) variants →
    tag ≠ "" ∧ content ≠ "" ∧ tag ≠ content

variable {decl : TypeDecl}

theorem WellFormed.keepsRules (h : decl.WellFormed) : decl.KeepsRules := by
  have henum : ∀ {tagging variants}, decl.body = .enum tagging variants →
      tagging.WellFormed ∧ (∀ variant ∈ variants, variant.WellFormed tagging)
        ∧ (variants.map (·.name)).Nodup := by
    intro tagging variants hbody
    have hformed := h.body
    rwa [hbody] at hformed
  have hfields : ∀ fields, decl.HasFields fields → WellFormedFields fields := by
    intro fields hhas
    cases hhas with
    | struct hbody =>
      have hformed := h.body
      rwa [hbody] at hformed
    | variant hbody hvariant hpayload =>
      have hformed := ((henum hbody).2.1 _ hvariant).payload
      rwa [hpayload] at hformed
  refine ⟨h.id, h.declaredName, ?_, ?_, ?_, ?_, ?_, ?_, ?_, ?_, ?_⟩
  . intro fields hhas field hmem
    exact ((hfields fields hhas).each field hmem).name
  . intro fields hhas field hmem hflatten
    exact TypeRef.isFlattenable_iff.1 (((hfields fields hhas).each field hmem).flattenable hflatten)
  . intro fields hhas
    exact (hfields fields hhas).nodup
  . intro tagging variants hbody variant hmem
    exact ((henum hbody).2.1 variant hmem).name
  . intro tagging variants hbody
    exact (henum hbody).2.2
  . intro tag variants hbody
    exact (henum hbody).1
  . intro tag variants hbody variant hmem elements hpayload
    have hadmitted := ((henum hbody).2.1 variant hmem).admitted
    rw [hpayload] at hadmitted
    exact hadmitted
  . intro tag variants hbody variant hmem fields hpayload field hfield hkept hname
    have hadmitted := ((henum hbody).2.1 variant hmem).admitted
    rw [hpayload] at hadmitted
    apply hadmitted
    rw [← hname]
    exact List.mem_map_of_mem (List.mem_filter.2 ⟨hfield, by simp [hkept]⟩)
  . intro tag content variants hbody
    exact (henum hbody).1

namespace KeepsRules

variable (h : decl.KeepsRules)

include h

theorem wellFormedFields {fields : List Field} (hhas : decl.HasFields fields) :
    WellFormedFields fields := by
  refine ⟨?_, h.nodup_fields fields hhas⟩
  intro field hmem
  refine ⟨h.field_names fields hhas field hmem, ?_⟩
  intro hflatten
  exact TypeRef.isFlattenable_iff.2 (h.flattened fields hhas field hmem hflatten)

theorem tagging_wellFormed {tagging : Tagging} {variants : List Variant}
    (hbody : decl.body = .enum tagging variants) : tagging.WellFormed := by
  cases tagging with
  | external => exact trivial
  | internal tag => exact h.internal_tag tag variants hbody
  | adjacent tag content => exact h.adjacent_tag tag content variants hbody
  | untagged => exact trivial

theorem admits {tagging : Tagging} {variants : List Variant} {variant : Variant}
    (hbody : decl.body = .enum tagging variants) (hvariant : variant ∈ variants) :
    tagging.Admits variant.payload := by
  cases tagging with
  | external => exact trivial
  | internal tag =>
    cases hpayload : variant.payload with
    | unit => exact trivial
    | newtype type => exact trivial
    | tuple elements =>
      exact h.internal_tuple tag variants hbody variant hvariant elements hpayload
    | struct fields =>
      intro hmem
      obtain ⟨field, hfield, hname⟩ := List.mem_map.1 hmem
      obtain ⟨hfield, hkept⟩ := List.mem_filter.1 hfield
      exact h.internal_field tag variants hbody variant hvariant fields hpayload field hfield
        (by simpa using hkept) hname
  | adjacent tag content => exact trivial
  | untagged => exact trivial

theorem wellFormed : decl.WellFormed := by
  refine ⟨h.id, h.declared_name, ?_⟩
  cases hbody : decl.body with
  | struct fields => exact h.wellFormedFields (.struct hbody)
  | enum tagging variants =>
    refine ⟨h.tagging_wellFormed hbody, ?_, h.nodup_variants tagging variants hbody⟩
    intro variant hvariant
    refine ⟨h.variant_names tagging variants hbody variant hvariant, h.admits hbody hvariant, ?_⟩
    cases hpayload : variant.payload with
    | unit => exact trivial
    | newtype type => exact trivial
    | tuple elements => exact trivial
    | struct fields => exact h.wellFormedFields (.variant hbody hvariant hpayload)
  | typeAlias target => exact trivial

end KeepsRules

end TypeDecl

namespace Description

structure KeepsRules (d : Description) : Prop where
  types : ∀ decl ∈ d.types, decl.KeepsRules
  function_names : ∀ function ∈ d.functions, Identifier.Declarable function.name
  param_names : ∀ function ∈ d.functions, ∀ param ∈ function.params,
    Identifier.Declarable param.name
  nodup_params : ∀ function ∈ d.functions, (function.params.map (·.name)).Nodup

/--
Validation accepts a description exactly when it keeps every rule.
-/
theorem validate_eq_ok_iff_keepsRules (d : Description) : d.validate = .ok () ↔ d.KeepsRules := by
  rw [validate_eq_ok_iff_wellFormed]
  constructor
  . rintro ⟨htypes, hfunctions⟩
    refine ⟨?_, ?_, ?_, ?_⟩
    . intro decl hmem
      exact (htypes decl hmem).keepsRules
    . intro function hmem
      exact (hfunctions function hmem).name
    . intro function hmem
      exact (hfunctions function hmem).params
    . intro function hmem
      exact (hfunctions function hmem).nodup
  . intro h
    constructor
    . intro decl hmem
      exact (h.types decl hmem).wellFormed
    . intro function hmem
      exact ⟨h.function_names function hmem, h.param_names function hmem,
        h.nodup_params function hmem⟩

end Description

end Bindings
