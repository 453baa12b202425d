import Bindings.Proofs.Generation
import Bindings.Proofs.Scope

/-!
This module contains where the duplicates come from that a description is refused for. Names are
claimed by the fields of one owner, the variants of one enum, the parameters of one function, the
identifiers of all types and what an artifact would declare. A duplicate is the first name that is
repeated in one of these lists of claims, and it points at both of its places.
-/

namespace Bindings

def fieldClaims (owner : String) (fields : List Field) : List (String × Site) :=
  (fields.zipIdx.filter fun (field, _) => !field.flatten).map fun (field, index) =>
    (field.name, .field owner field.name index)

def variantClaims (owner : String) (variants : List Variant) : List (String × Site) :=
  variants.mapIdx fun index variant => (variant.name, .variant owner variant.name index)

def paramClaims (function : FunctionDecl) : List (String × Site) :=
  function.params.mapIdx fun index param => (param.name, .param function.name param.name index)

namespace Description

/--
The lists of claims in which no name may be repeated.
-/
inductive Claims (d : Description) : List (String × Site) → Prop
  | fields (hdecl : decl ∈ d.types) (hbody : decl.body = .struct fields) :
    Claims d (fieldClaims decl.id fields)
  | payload (hdecl : decl ∈ d.types) (hbody : decl.body = .enum tagging variants)
      (hvariant : variant ∈ variants) (hpayload : variant.payload = .struct fields) :
    Claims d (fieldClaims (decl.id ++ "::" ++ variant.name) fields)
  | variants (hdecl : decl ∈ d.types) (hbody : decl.body = .enum tagging variants) :
    Claims d (variantClaims decl.id variants)
  | params (hfunction : function ∈ d.functions) : Claims d (paramClaims function)
  | ids : Claims d (Universe.idClaims d.types)
  | names {r : Resolution u} (hdeclared : Universe.ofDecls d.types = .ok u)
      (hresolved : (Resolution.resolve u d.functions).result = .ok r) : Claims d r.nameClaims

end Description

section Sites

theorem nodup_mapIdx {f : Nat → α → β} (hf : ∀ i j a b, f i a = f j b → i = j) (elements : List α) :
    (elements.mapIdx f).Nodup := by
  rw [List.nodup_iff_injective_get]
  intro i j heq
  simp only [List.get_eq_getElem, List.getElem_mapIdx] at heq
  exact Fin.ext (hf _ _ _ _ heq)

theorem map_snd_mapIdx (name : α → String) (site : Nat → α → Site) (elements : List α) :
    (elements.mapIdx fun index element => (name element, site index element)).map (·.2)
      = elements.mapIdx site := by
  apply List.ext_getElem <;> simp

theorem nodup_sites_fieldClaims (owner : String) (fields : List Field) :
    ((fieldClaims owner fields).map (·.2)).Nodup := by
  have hall : (fields.mapIdx fun index field => Site.field owner field.name index).Nodup :=
    nodup_mapIdx (by simp) fields
  rw [List.mapIdx_eq_zipIdx_map] at hall
  rw [fieldClaims, List.map_map]
  exact hall.sublist (List.filter_sublist.map _)

theorem nodup_sites_nameClaims {u : Universe} {r : Resolution u} (h : r.order.Nodup) :
    (r.nameClaims.map (·.2)).Nodup := by
  unfold Resolution.nameClaims
  rw [List.map_append, List.map_map, map_snd_mapIdx, List.nodup_append]
  refine ⟨?_, nodup_mapIdx (by simp [FunctionDecl.site]) _, ?_⟩
  . apply h.map
    intro i j heq
    simp only [Function.comp_apply, Universe.site, TypeDecl.site, Site.declaration.injEq] at heq
    exact Fin.ext heq.2.2
  . -- No type is declared as a function.
    intro site htype other hfunction heq
    obtain ⟨i, _, rfl⟩ := List.mem_map.1 htype
    obtain ⟨position, _, rfl⟩ := List.mem_mapIdx.1 hfunction
    cases hbody : (u.get i).body <;>
      simp [Universe.site, TypeDecl.site, TypeDecl.kind, Body.kind, FunctionDecl.site, hbody] at heq

theorem Description.Claims.nodup_sites {d : Description} {claims : List (String × Site)}
    (h : d.Claims claims) : (claims.map (·.2)).Nodup := by
  cases h with
  | fields => exact nodup_sites_fieldClaims _ _
  | payload => exact nodup_sites_fieldClaims _ _
  | variants =>
    rw [variantClaims, map_snd_mapIdx]
    exact nodup_mapIdx (by simp) _
  | params =>
    rw [paramClaims, map_snd_mapIdx]
    exact nodup_mapIdx (by simp) _
  | ids =>
    rw [Universe.idClaims, map_snd_mapIdx]
    exact nodup_mapIdx (by simp [TypeDecl.site]) _
  | names _ hresolved =>
    exact nodup_sites_nameClaims (Resolution.nodup_order_of_resolve hresolved)

theorem Duplicate.IsFirstIn.first_ne_second {duplicate : Duplicate} {claims : List (String × Site)}
    (h : duplicate.IsFirstIn claims) (hsites : (claims.map (·.2)).Nodup) :
    duplicate.first ≠ duplicate.second := by
  obtain ⟨before, after, rfl, hfirst, _⟩ := h
  rw [List.map_append, List.map_cons] at hsites
  intro heq
  apply (List.nodup_append.1 hsites).2.2 duplicate.first (List.mem_map_of_mem hfirst)
    duplicate.second List.mem_cons_self heq

end Sites

section Refusals

variable {duplicate : Duplicate}

theorem checkIdentifier_ne_duplicate {name : String} {site : Site} :
    checkIdentifier name site ≠ .error (.duplicate duplicate) := by
  unfold checkIdentifier
  split
  . nofun
  . split
    . nofun
    . split <;> nofun

theorem Tagging.validate_ne_duplicate {tagging : Tagging} {site : Site} :
    tagging.validate site ≠ .error (.duplicate duplicate) := by
  unfold validate
  cases tagging with
  | external => nofun
  | internal tag =>
    dsimp only
    split <;> nofun
  | adjacent tag content =>
    dsimp only
    split
    . nofun
    . split <;> nofun
  | untagged => nofun

theorem Tagging.admits_ne_duplicate {tagging : Tagging} {payload : Payload} {site : Site} :
    tagging.admits payload site ≠ .error (.duplicate duplicate) := by
  unfold admits
  split
  . nofun
  . split <;> nofun
  . nofun

theorem Obligation.passes_ne_require {condition : Bool} {site : Site} {reason : Malformation} :
    passes (.error (.duplicate duplicate)) ≠ require condition site reason := by
  unfold require
  split <;> nofun

theorem checkScope_members_eq_duplicate {obligations : Nat → α → List Obligation}
    {claims : List (String × Site)} (members : List α)
    (hclaims : claims
      = members.zipIdx.flatMap fun (member, index) =>
        (obligations index member).filterMap Obligation.claim?)
    (h : checkScope (members.mapIdx obligations).flatten = .error (.duplicate duplicate)) :
    (∃ index, ∃ member ∈ members,
        .passes (.error (.duplicate duplicate)) ∈ obligations index member)
      ∨ duplicate.IsFirstIn claims := by
  cases checkScope_eq_error_cases h with
  | inl hpasses =>
    obtain ⟨_, hmem, hpasses⟩ := List.mem_flatten.1 hpasses
    obtain ⟨index, hlt, rfl⟩ := List.mem_mapIdx.1 hmem
    exact Or.inl ⟨index, _, List.getElem_mem hlt, hpasses⟩
  | inr hfirst =>
    obtain ⟨other, heq, hfirst⟩ := hfirst
    cases heq
    rw [List.filterMap_flatten, List.mapIdx_eq_zipIdx_map, List.map_map] at hfirst
    rw [hclaims, List.flatMap_def]
    exact Or.inr hfirst

theorem filterMap_claim?_obligations (owner : String) (index : Nat) (field : Field) :
    (field.obligations owner index).filterMap Obligation.claim?
      = if field.flatten then [] else [(field.name, .field owner field.name index)] := by
  unfold Field.obligations
  cases field.flatten <;> rfl

theorem checkFields_eq_duplicate {owner : String} {fields : List Field}
    (h : checkFields owner fields = .error (.duplicate duplicate)) :
    duplicate.IsFirstIn (fieldClaims owner fields) := by
  refine (checkScope_members_eq_duplicate fields ?_ h).resolve_left ?_
  . simp only [filterMap_claim?_obligations]
    exact (flatMap_ite_eq_map_filter _ _ _).symm
  . rintro ⟨index, field, _, hpasses⟩
    rcases List.mem_cons.1 hpasses with heq | hpasses
    . exact Obligation.passes_ne_require heq
    rcases List.mem_cons.1 hpasses with heq | hpasses
    . exact Obligation.passes_ne_require heq
    split at hpasses
    . cases hpasses
    . cases List.mem_singleton.1 hpasses

theorem checkVariants_eq_duplicate {owner : String} {tagging : Tagging} {variants : List Variant}
    (h : checkScope (variants.mapIdx (Variant.obligations owner tagging)).flatten
      = .error (.duplicate duplicate)) :
    (∃ variant ∈ variants, ∃ fields, variant.payload = .struct fields
        ∧ duplicate.IsFirstIn (fieldClaims (owner ++ "::" ++ variant.name) fields))
      ∨ duplicate.IsFirstIn (variantClaims owner variants) := by
  have hclaims : variantClaims owner variants = variants.zipIdx.flatMap fun (variant, index) =>
      (variant.obligations owner tagging index).filterMap Obligation.claim? := by
    rw [variantClaims, List.mapIdx_eq_zipIdx_map]
    exact List.map_eq_flatMap
  refine (checkScope_members_eq_duplicate variants hclaims h).imp_left ?_
  rintro ⟨index, variant, hmem, hpasses⟩
  simp only [Variant.obligations, List.mem_cons, Obligation.passes_ne_require, reduceCtorEq,
    false_or, List.not_mem_nil, or_false, Obligation.passes.injEq] at hpasses
  refine ⟨variant, hmem, ?_⟩
  cases hpasses with
  | inl hadmits => exact absurd hadmits.symm Tagging.admits_ne_duplicate
  | inr hvalidate =>
    unfold Payload.validate at hvalidate
    split at hvalidate
    . next fields hpayload => exact ⟨fields, hpayload, checkFields_eq_duplicate hvalidate.symm⟩
    . cases hvalidate

theorem checkParams_eq_duplicate {function : FunctionDecl}
    (h : checkScope (function.params.mapIdx (Param.obligations function.name)).flatten
      = .error (.duplicate duplicate)) : duplicate.IsFirstIn (paramClaims function) := by
  have hclaims : paramClaims function = function.params.zipIdx.flatMap fun (param, index) =>
      (param.obligations function.name index).filterMap Obligation.claim? := by
    rw [paramClaims, List.mapIdx_eq_zipIdx_map]
    exact List.map_eq_flatMap
  refine (checkScope_members_eq_duplicate function.params hclaims h).resolve_left ?_
  rintro ⟨index, param, _, hpasses⟩
  simp only [Param.obligations, List.mem_cons, reduceCtorEq, List.not_mem_nil, or_false,
    Obligation.passes.injEq] at hpasses
  exact checkIdentifier_ne_duplicate hpasses.symm

end Refusals

theorem eq_error_cases_of_bind {x : Except ε α} {f : α → Except ε β} {e : ε}
    (h : (x >>= f) = .error e) : x = .error e ∨ ∃ a, x = .ok a ∧ f a = .error e := by
  cases x with
  | error => exact Or.inl (congrArg Except.error (Except.error.inj h))
  | ok a => exact Or.inr ⟨a, rfl, h⟩

theorem eq_error_of_ite {p : Prop} [Decidable p] {x : Except ε α} {y : Except ε β} {e : ε}
    (hx : x ≠ .error e) (h : (if p then x >>= fun _ => y else y) = .error e) : y = .error e := by
  split at h
  . obtain ⟨_, _, hy⟩ := (eq_error_cases_of_bind h).resolve_left hx
    exact hy
  . exact h

theorem checkEach.exists_of_go_eq_error {check : α → Nat → Except Fault Unit} {elements : List α}
    {position : Nat} {fault : Fault} (h : go check position elements = .error fault) :
    ∃ element ∈ elements, ∃ index, check element index = .error fault := by
  induction elements generalizing position with
  | nil => cases h
  | cons element elements ih =>
    cases eq_error_cases_of_bind h with
    | inl hcheck => exact ⟨element, List.mem_cons_self, position, hcheck⟩
    | inr hrest =>
      obtain ⟨_, _, hrest⟩ := hrest
      obtain ⟨other, hmem, hcheck⟩ := ih hrest
      exact ⟨other, List.mem_cons_of_mem _ hmem, hcheck⟩

section Claims

variable {d : Description} {duplicate : Duplicate}

theorem TypeDecl.exists_claims {decl : TypeDecl} (hdecl : decl ∈ d.types) {position : Nat}
    (h : decl.validate position = .error (.duplicate duplicate)) :
    ∃ claims, d.Claims claims ∧ duplicate.IsFirstIn claims := by
  unfold validate at h
  obtain ⟨_, _, hid⟩ := (eq_error_cases_of_bind h).resolve_left checkIdentifier_ne_duplicate
  have hbody := eq_error_of_ite checkIdentifier_ne_duplicate hid
  cases heq : decl.body with
  | struct fields =>
    rw [heq] at hbody
    exact ⟨_, .fields hdecl heq, checkFields_eq_duplicate hbody⟩
  | enum tagging variants =>
    rw [heq] at hbody
    obtain ⟨_, _, hvariants⟩ :=
      (eq_error_cases_of_bind hbody).resolve_left Tagging.validate_ne_duplicate
    cases checkVariants_eq_duplicate hvariants with
    | inl hpayload =>
      obtain ⟨variant, hvariant, fields, hpayload, hfirst⟩ := hpayload
      exact ⟨_, .payload hdecl heq hvariant hpayload, hfirst⟩
    | inr hfirst => exact ⟨_, .variants hdecl heq, hfirst⟩
  | typeAlias target =>
    rw [heq] at hbody
    cases hbody

theorem FunctionDecl.exists_claims {function : FunctionDecl} (hfunction : function ∈ d.functions)
    {position : Nat} (h : function.validate position = .error (.duplicate duplicate)) :
    ∃ claims, d.Claims claims ∧ duplicate.IsFirstIn claims := by
  obtain ⟨_, _, hparams⟩ := (eq_error_cases_of_bind h).resolve_left checkIdentifier_ne_duplicate
  exact ⟨_, .params hfunction, checkParams_eq_duplicate hparams⟩

namespace Description

theorem exists_claims_of_validate (h : d.validate = .error (.duplicate duplicate)) :
    ∃ claims, d.Claims claims ∧ duplicate.IsFirstIn claims := by
  cases eq_error_cases_of_bind h with
  | inl htypes =>
    obtain ⟨decl, hdecl, position, hvalidate⟩ := checkEach.exists_of_go_eq_error htypes
    exact decl.exists_claims hdecl hvalidate
  | inr hfunctions =>
    obtain ⟨_, _, hfunctions⟩ := hfunctions
    obtain ⟨function, hfunction, position, hvalidate⟩ :=
      checkEach.exists_of_go_eq_error hfunctions
    exact function.exists_claims hfunction hvalidate

theorem generate_eq_error_cases {o : Options} {fault : Fault}
    (h : (d.generate o).result = .error fault) :
    d.validate = .error fault ∨ Universe.ofDecls d.types = .error fault
      ∨ ∃ u, Universe.ofDecls d.types = .ok u
        ∧ ((Resolution.resolve u d.functions).result = .error fault
          ∨ ∃ r, (Resolution.resolve u d.functions).result = .ok r ∧ r.check = .error fault) := by
  rw [generate_result] at h
  cases eq_error_cases_of_bind h with
  | inl hvalid => exact Or.inl hvalid
  | inr h =>
    obtain ⟨_, _, h⟩ := h
    cases eq_error_cases_of_bind h with
    | inl hdeclared => exact Or.inr (Or.inl hdeclared)
    | inr h =>
      obtain ⟨u, hdeclared, h⟩ := h
      refine Or.inr (Or.inr ⟨u, hdeclared, ?_⟩)
      cases eq_error_cases_of_bind h with
      | inl hresolved => exact Or.inl hresolved
      | inr h =>
        obtain ⟨r, hresolved, h⟩ := h
        refine Or.inr ⟨r, hresolved, ?_⟩
        cases eq_error_cases_of_bind h with
        | inl hcheck => exact hcheck
        | inr h =>
          obtain ⟨_, _, h⟩ := h
          cases h

theorem exists_claims_of_generate {o : Options}
    (h : (d.generate o).result = .error (.duplicate duplicate)) :
    ∃ claims, d.Claims claims ∧ duplicate.IsFirstIn claims := by
  rcases generate_eq_error_cases h with
    hvalid | hdeclared | ⟨u, hdeclared, hresolved | ⟨r, hresolved, hcheck⟩⟩
  . exact exists_claims_of_validate hvalid
  . obtain ⟨other, heq, hfirst⟩ :=
      checkScope_claimAll_eq_error (Universe.ofDecls_eq_error_iff.1 hdeclared)
    cases heq
    exact ⟨_, .ids, hfirst⟩
  . -- While resolving there are only undeclared types.
    obtain ⟨_, heq, _⟩ := Resolution.mentionedAt_of_resolve_error hresolved
    cases heq
  . rw [Resolution.check_of_resolve hresolved] at hcheck
    obtain ⟨other, heq, hfirst⟩ := checkScope_claimAll_eq_error hcheck
    cases heq
    exact ⟨_, .names hdeclared hresolved, hfirst⟩

/--
A duplicate that a description is refused for points at two places of one list of claims. Both claim
its identifier, the first one earlier. Up to the second no other place does, and the names that have
been claimed before the second are pairwise distinct.
-/
theorem duplicate_of_generate {o : Options}
    (h : (d.generate o).result = .error (.duplicate duplicate)) :
    duplicate.first ≠ duplicate.second
      ∧ ∃ claims, d.Claims claims ∧ ∃ i j : Nat, i < j
        ∧ claims[i]? = some (duplicate.id, duplicate.first)
        ∧ claims[j]? = some (duplicate.id, duplicate.second)
        ∧ (∀ k < j, ∀ site, claims[k]? = some (duplicate.id, site) → k = i)
        ∧ ((claims.take j).map (·.1)).Nodup := by
  obtain ⟨claims, hclaims, hfirst⟩ := exists_claims_of_generate h
  refine ⟨hfirst.first_ne_second hclaims.nodup_sites, claims, hclaims, ?_⟩
  obtain ⟨before, after, rfl, hmem, hnodup⟩ := hfirst
  obtain ⟨i, hi⟩ := List.mem_iff_getElem?.1 hmem
  have hlt : i < before.length := (List.getElem?_eq_some_iff.1 hi).1
  refine ⟨i, before.length, hlt, ?_, ?_, ?_, ?_⟩
  . rw [List.getElem?_append_left hlt]
    exact hi
  . simp
  . intro k hk site hsite
    rw [List.getElem?_append_left hk] at hsite
    have hnames : (before.map (·.1))[k]? = (before.map (·.1))[i]? := by
      simp only [List.getElem?_map, hsite, hi, Option.map_some]
    apply (List.getElem?_inj _ hnodup).1 hnames
    rwa [List.length_map]
  . rwa [List.take_left]

/--
A struct whose first property comes twice, with a flattened field of the same name in between.
-/
def doubled : Description where
  types :=
    [{ id := "Point"
       body := .struct
        [{ name := "x", type := .scalar .f64 },
          { name := "x", type := .named "Base", flatten := true },
          { name := "y", type := .scalar .f64 },
          { name := "x", type := .scalar .f32 },
          { name := "y", type := .scalar .f32 }] }]

theorem duplicate_doubled :
    (doubled.generate {}).result
        = .error (.duplicate ⟨"x", .field "Point" "x" 0, .field "Point" "x" 3⟩)
      ∧ Site.field "Point" "x" 0 ≠ .field "Point" "x" 3
      ∧ ∃ claims, doubled.Claims claims ∧ ∃ i j : Nat, i < j
        ∧ claims[i]? = some ("x", Site.field "Point" "x" 0)
        ∧ claims[j]? = some ("x", Site.field "Point" "x" 3)
        ∧ (∀ k < j, ∀ site, claims[k]? = some ("x", site) → k = i)
        ∧ ((claims.take j).map (·.1)).Nodup := by
  have herror : (doubled.generate {}).result
      = .error (.duplicate ⟨"x", .field "Point" "x" 0, .field "Point" "x" 3⟩) :=
    rfl
  exact ⟨herror, duplicate_of_generate herror⟩

end Description

end Claims

end Bindings
