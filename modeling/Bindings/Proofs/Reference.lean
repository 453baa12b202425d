import Bindings.Declaration

/-!
This module contains what it means that a reference mentions an identifier and that a declaration
or a function makes a reference. The lists of names and of references hold exactly these.
-/

namespace Bindings

namespace TypeRef

inductive Mentions (id : String) : TypeRef → Prop
  | named : Mentions id (.named id)
  | vector : Mentions id element → Mentions id (.vector element)
  | option {inner : TypeRef} : Mentions id inner → Mentions id (.option inner)
  | tuple : element ∈ elements → Mentions id element → Mentions id (.tuple elements)
  | mapKey : Mentions id key → Mentions id (.map key value)
  | mapValue : Mentions id value → Mentions id (.map key value)

theorem mem_names_iff {id : String} : (type : TypeRef) → (id ∈ type.names ↔ type.Mentions id)
  | .scalar _ => by
    simp only [names, List.not_mem_nil, false_iff]
    intro h
    cases h
  | .named name => by
    simp only [names, List.mem_singleton]
    constructor
    . intro h
      rw [h]
      exact .named
    . intro h
      cases h
      rfl
  | .vector element => by
    rw [names, mem_names_iff element]
    constructor
    . exact .vector
    . intro h
      cases h with
      | vector h => exact h
  | .option inner => by
    rw [names, mem_names_iff inner]
    constructor
    . exact .option
    . intro h
      cases h with
      | option h => exact h
  | .tuple elements => by
    rw [names, names.go_eq_flatMap, List.mem_flatMap]
    constructor
    . rintro ⟨element, hmem, h⟩
      exact .tuple hmem ((mem_names_iff element).1 h)
    . intro h
      cases h with
      | tuple hmem h => exact ⟨_, hmem, (mem_names_iff _).2 h⟩
  | .map key value => by
    rw [names, List.mem_append, mem_names_iff key, mem_names_iff value]
    constructor
    . intro h
      cases h with
      | inl h => exact .mapKey h
      | inr h => exact .mapValue h
    . intro h
      cases h with
      | mapKey h => exact Or.inl h
      | mapValue h => exact Or.inr h

end TypeRef

theorem mem_mentions_iff {references : List Reference} {id : String} {site : Site} :
    (id, site) ∈ mentions references
      ↔ ∃ type, (type, site) ∈ references ∧ type.Mentions id := by
  simp only [mentions, List.mem_flatMap, List.mem_map, Prod.mk.injEq]
  constructor
  . rintro ⟨⟨type, _⟩, hmem, name, hname, hid, hsite⟩
    subst hid hsite
    exact ⟨type, hmem, (TypeRef.mem_names_iff type).1 hname⟩
  . rintro ⟨type, hmem, h⟩
    exact ⟨(type, site), hmem, id, (TypeRef.mem_names_iff type).2 h, rfl, rfl⟩

namespace TypeDecl

/--
A declaration at a position makes a reference at a site: by a field, by a payload of any kind or by
the target of an alias.
-/
inductive Makes (decl : TypeDecl) (position : Nat) : TypeRef → Site → Prop
  | field (hbody : decl.body = .struct fields) (hfield : fields[index]? = some field) :
    Makes decl position field.type (.field decl.id field.name index)
  | newtype (hbody : decl.body = .enum tagging variants)
      (hvariant : variants[index]? = some variant) (hpayload : variant.payload = .newtype type) :
    Makes decl position type (.variant decl.id variant.name index)
  | element (hbody : decl.body = .enum tagging variants)
      (hvariant : variants[index]? = some variant) (hpayload : variant.payload = .tuple elements)
      (helement : element ∈ elements) :
    Makes decl position element (.variant decl.id variant.name index)
  | payloadField (hbody : decl.body = .enum tagging variants)
      (hvariant : variants[index]? = some variant) (hpayload : variant.payload = .struct fields)
      (hfield : field ∈ fields) :
    Makes decl position field.type (.variant decl.id variant.name index)
  | target (hbody : decl.body = .typeAlias target) :
    Makes decl position target (.declaration .typeAlias decl.id position)

theorem Makes.variant {decl : TypeDecl} {position index : Nat} {tagging : Tagging}
    {variants : List Variant} {variant : Variant} {type : TypeRef}
    (hbody : decl.body = .enum tagging variants) (hvariant : variants[index]? = some variant)
    (htype : type ∈ variant.payload.types) :
    decl.Makes position type (.variant decl.id variant.name index) := by
  cases hpayload : variant.payload with
  | unit =>
    rw [hpayload] at htype
    cases htype
  | newtype inner =>
    rw [hpayload, Payload.types, List.mem_singleton] at htype
    rw [htype]
    exact .newtype hbody hvariant hpayload
  | tuple elements =>
    rw [hpayload, Payload.types] at htype
    exact .element hbody hvariant hpayload htype
  | struct fields =>
    rw [hpayload, Payload.types, List.mem_map] at htype
    obtain ⟨field, hfield, rfl⟩ := htype
    exact .payloadField hbody hvariant hpayload hfield

theorem mem_references_of_variant {decl : TypeDecl} {position index : Nat} {tagging : Tagging}
    {variants : List Variant} {variant : Variant} {type : TypeRef}
    (hbody : decl.body = .enum tagging variants) (hvariant : variants[index]? = some variant)
    (htype : type ∈ variant.payload.types) :
    (type, .variant decl.id variant.name index) ∈ decl.references position := by
  obtain ⟨hlt, heq⟩ := List.getElem?_eq_some_iff.1 hvariant
  unfold references
  rw [hbody]
  refine List.mem_flatten.2 ⟨_, List.mem_mapIdx.2 ⟨_, hlt, rfl⟩, ?_⟩
  rw [heq]
  exact List.mem_map_of_mem htype

theorem mem_references_iff {decl : TypeDecl} {position : Nat} {type : TypeRef} {site : Site} :
    (type, site) ∈ decl.references position ↔ decl.Makes position type site := by
  constructor
  . intro h
    unfold references at h
    split at h
    . next fields hbody =>
      rw [List.mem_mapIdx] at h
      obtain ⟨index, hlt, heq⟩ := h
      cases heq
      exact .field hbody (List.getElem?_eq_getElem hlt)
    . next tagging variants hbody =>
      rw [List.mem_flatten] at h
      obtain ⟨entries, hentries, hmem⟩ := h
      rw [List.mem_mapIdx] at hentries
      obtain ⟨index, hlt, heq⟩ := hentries
      subst heq
      rw [List.mem_map] at hmem
      obtain ⟨_, htype, heq⟩ := hmem
      cases heq
      exact .variant hbody (List.getElem?_eq_getElem hlt) htype
    . next target hbody =>
      have hsite : decl.site position = .declaration .typeAlias decl.id position := by
        rw [TypeDecl.site, kind, hbody, Body.kind]
      rw [List.mem_singleton, hsite] at h
      cases h
      exact .target hbody
  . intro h
    cases h with
    | field hbody hfield =>
      obtain ⟨hlt, heq⟩ := List.getElem?_eq_some_iff.1 hfield
      unfold references
      rw [hbody]
      exact List.mem_mapIdx.2 ⟨_, hlt, by rw [heq]⟩
    | newtype hbody hvariant hpayload =>
      apply mem_references_of_variant hbody hvariant
      rw [hpayload]
      exact List.mem_singleton.2 rfl
    | element hbody hvariant hpayload helement =>
      apply mem_references_of_variant hbody hvariant
      rw [hpayload]
      exact helement
    | payloadField hbody hvariant hpayload hfield =>
      apply mem_references_of_variant hbody hvariant
      rw [hpayload]
      exact List.mem_map_of_mem hfield
    | target hbody =>
      unfold references
      rw [hbody, TypeDecl.site, kind, hbody]
      exact List.mem_singleton.2 rfl

def MentionsAt (decl : TypeDecl) (position : Nat) (id : String) (site : Site) : Prop :=
  ∃ type, decl.Makes position type site ∧ type.Mentions id

theorem mem_mentions_references_iff {decl : TypeDecl} {position : Nat} {id : String}
    {site : Site} :
    (id, site) ∈ mentions (decl.references position) ↔ decl.MentionsAt position id site := by
  rw [mem_mentions_iff]
  simp only [mem_references_iff, MentionsAt]

end TypeDecl

namespace FunctionDecl

/--
A function makes a reference at a site: by a parameter or by the result.
-/
inductive Makes (function : FunctionDecl) : TypeRef → Site → Prop
  | param (hparam : function.params[index]? = some param) :
    Makes function param.type (.param function.name param.name index)
  | result (hresult : function.result = some type) : Makes function type (.result function.name)

theorem mem_references_iff {function : FunctionDecl} {type : TypeRef} {site : Site} :
    (type, site) ∈ function.references ↔ function.Makes type site := by
  rw [references, List.mem_append]
  constructor
  . intro h
    cases h with
    | inl h =>
      rw [List.mem_mapIdx] at h
      obtain ⟨index, hlt, heq⟩ := h
      cases heq
      exact .param (List.getElem?_eq_getElem hlt)
    | inr h =>
      rw [List.mem_map] at h
      obtain ⟨_, hresult, heq⟩ := h
      cases heq
      exact .result (Option.mem_toList.1 hresult)
  . intro h
    cases h with
    | param hparam =>
      obtain ⟨hlt, heq⟩ := List.getElem?_eq_some_iff.1 hparam
      exact Or.inl (List.mem_mapIdx.2 ⟨_, hlt, by rw [heq]⟩)
    | result hresult =>
      exact Or.inr (List.mem_map_of_mem (Option.mem_toList.2 hresult))

def MentionsAt (function : FunctionDecl) (id : String) (site : Site) : Prop :=
  ∃ type, function.Makes type site ∧ type.Mentions id

theorem mem_mentions_references_iff {functions : List FunctionDecl} {id : String} {site : Site} :
    (id, site) ∈ mentions (functions.flatMap references)
      ↔ ∃ function ∈ functions, function.MentionsAt id site := by
  rw [mem_mentions_iff]
  simp only [List.mem_flatMap, mem_references_iff, MentionsAt]
  constructor
  . rintro ⟨type, ⟨function, hmem, hmakes⟩, hid⟩
    exact ⟨function, hmem, type, hmakes, hid⟩
  . rintro ⟨function, hmem, type, hmakes, hid⟩
    exact ⟨type, ⟨function, hmem, hmakes⟩, hid⟩

end FunctionDecl

def Body.types : Body → List TypeRef
  | struct fields => fields.map (·.type)
  | enum _ variants => variants.flatMap (·.payload.types)
  | typeAlias target => [target]

theorem TypeDecl.map_fst_references (decl : TypeDecl) (position : Nat) :
    (decl.references position).map (·.1) = decl.body.types := by
  unfold references Body.types
  cases decl.body with
  | struct fields =>
    apply List.ext_getElem
    . simp
    . simp
  | enum tagging variants =>
    simp only [List.map_flatten, List.flatMap_def]
    congr 1
    apply List.ext_getElem
    . simp
    . simp [Function.comp_def]
  | typeAlias target => rfl

theorem FunctionDecl.map_fst_references (function : FunctionDecl) :
    function.references.map (·.1) = function.params.map (·.type) ++ function.result.toList := by
  have hparams : (function.params.mapIdx fun index param =>
      (param.type, Site.param function.name param.name index)).map (·.1)
        = function.params.map (·.type) := by
    apply List.ext_getElem <;> simp
  unfold references
  rw [List.map_append, hparams, List.map_map]
  simp [Function.comp_def]

theorem exists_mem_mentions {references : List Reference} {type : TypeRef} {id : String}
    (hmem : type ∈ references.map (·.1)) (h : type.Mentions id) :
    ∃ site, (id, site) ∈ mentions references := by
  obtain ⟨⟨_, site⟩, hreference, rfl⟩ := List.mem_map.1 hmem
  exact ⟨site, mem_mentions_iff.2 ⟨_, hreference, h⟩⟩

end Bindings
