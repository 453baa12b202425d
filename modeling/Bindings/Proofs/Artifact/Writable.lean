import Bindings.Identifier
import Bindings.Proofs.Reference

/-!
This module contains what declarations give to an artifact: names that it quotes unless they are
identifiers, and references that it writes by the names of what they refer to.
-/

namespace Bindings

def TypeRef.NamedBy (nameOf : String → String) (type : TypeRef) : Prop :=
  ∀ id, type.Mentions id → Identifier.isIdentifier (nameOf id) = true

section Writable

variable (quotable : String → Prop) (nameOf : String → String)

structure Field.Writable (field : Field) : Prop where
  name : quotable field.name
  type : field.type.NamedBy nameOf

def Payload.Writable : Payload → Prop
  | unit => True
  | newtype type => type.NamedBy nameOf
  | tuple elements => (TypeRef.tuple elements).NamedBy nameOf
  | struct fields => ∀ field ∈ fields, field.Writable quotable nameOf

structure Variant.Writable (variant : Variant) : Prop where
  name : quotable variant.name
  payload : variant.payload.Writable quotable nameOf

def Tagging.Writable : Tagging → Prop
  | external | untagged => True
  | internal tag => quotable tag
  | adjacent tag content => quotable tag ∧ quotable content

def Body.Writable : Body → Prop
  | struct fields => ∀ field ∈ fields, field.Writable quotable nameOf
  | enum tagging variants =>
    tagging.Writable quotable ∧ ∀ variant ∈ variants, variant.Writable quotable nameOf
  | typeAlias target => target.NamedBy nameOf

end Writable

theorem Payload.writable_of_types {quotable : String → Prop} {nameOf : String → String}
    {payload : Payload} (htypes : ∀ type ∈ payload.types, type.NamedBy nameOf)
    (hnames : ∀ fields, payload = .struct fields → ∀ field ∈ fields, quotable field.name) :
    payload.Writable quotable nameOf := by
  cases payload with
  | unit => exact trivial
  | newtype type => exact htypes type List.mem_cons_self
  | tuple elements =>
    intro id hmention
    cases hmention with
    | tuple hmem hmention => exact htypes _ hmem id hmention
  | struct fields =>
    intro field hmem
    exact ⟨hnames fields rfl field hmem, htypes _ (List.mem_map_of_mem hmem)⟩

namespace TypeDecl

inductive Quotes (decl : TypeDecl) : String → Prop
  | field (hbody : decl.body = .struct fields) (hfield : field ∈ fields) : Quotes decl field.name
  | variant (hbody : decl.body = .enum tagging variants) (hvariant : variant ∈ variants) :
    Quotes decl variant.name
  | variantField (hbody : decl.body = .enum tagging variants) (hvariant : variant ∈ variants)
      (hpayload : variant.payload = .struct fields) (hfield : field ∈ fields) :
    Quotes decl field.name
  | internalTag (hbody : decl.body = .enum (.internal tag) variants) : Quotes decl tag
  | tag (hbody : decl.body = .enum (.adjacent tag content) variants) : Quotes decl tag
  | content (hbody : decl.body = .enum (.adjacent tag content) variants) : Quotes decl content

theorem writable_body {decl : TypeDecl} {quotable : String → Prop} {nameOf : String → String}
    (position : Nat) (hquotes : ∀ name, decl.Quotes name → quotable name)
    (hnamed : ∀ type site, decl.Makes position type site → type.NamedBy nameOf) :
    decl.body.Writable quotable nameOf := by
  cases hbody : decl.body with
  | struct fields =>
    intro field hmem
    obtain ⟨index, hfield⟩ := List.mem_iff_getElem?.1 hmem
    exact ⟨hquotes _ (.field hbody hmem), hnamed _ _ (.field hbody hfield)⟩
  | enum tagging variants =>
    constructor
    . cases tagging with
      | external => exact trivial
      | internal tag => exact hquotes _ (.internalTag hbody)
      | adjacent tag content => exact ⟨hquotes _ (.tag hbody), hquotes _ (.content hbody)⟩
      | untagged => exact trivial
    . intro variant hmem
      obtain ⟨index, hvariant⟩ := List.mem_iff_getElem?.1 hmem
      refine ⟨hquotes _ (.variant hbody hmem), Payload.writable_of_types ?_ ?_⟩
      . intro type htype
        exact hnamed _ _ (.variant hbody hvariant htype)
      . intro fields hpayload field hfield
        exact hquotes _ (.variantField hbody hmem hpayload hfield)
  | typeAlias target => exact hnamed _ _ (.target hbody)

end TypeDecl

end Bindings
