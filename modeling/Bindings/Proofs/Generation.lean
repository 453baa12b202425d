import Bindings.Generation
import Bindings.Proofs.Resolution
import Mathlib.Data.List.Nodup

/-!
This module contains which descriptions have an artifact. Each stage on the way refuses for a reason
of its own, and none of them looks at the options.
-/

namespace Bindings

open ReferenceGraph

theorem mem_mentions_append_iff {references others : List Reference} {mention : Mention} :
    mention ∈ mentions (references ++ others)
      ↔ mention ∈ mentions references ∨ mention ∈ mentions others := by
  unfold mentions
  rw [List.flatMap_append, List.mem_append]

@[simp]
theorem Traced.liftM_result (result : Except Fault α) : (liftM result : Traced α).result = result :=
  rfl

namespace Resolution

variable {u : Universe} {functions : List FunctionDecl}

theorem contains_iff {r : Resolution u} {name : String} :
    r.contains name = true ↔ ∃ i ∈ r.order, (u.get i).id = name := by
  unfold contains
  split
  . next hlookup =>
    simp only [Bool.false_eq_true, false_iff]
    rintro ⟨i, _, hid⟩
    exact Universe.lookup_eq_none_iff.1 hlookup i hid
  . next i hlookup =>
    rw [List.contains_iff_mem]
    have hid : (u.get i).id = name := Universe.lookup_eq_some_iff.1 hlookup
    constructor
    . intro hi
      exact ⟨i, hi, hid⟩
    . rintro ⟨j, hj, hjd⟩
      rw [Universe.id_get_injective (hid.trans hjd.symm)]
      exact hj

theorem mem_mentions_references_iff {r : Resolution u} {name : String} {site : Site} :
    (name, site) ∈ mentions r.references
      ↔ (∃ function ∈ r.functions, function.MentionsAt name site)
        ∨ ∃ i ∈ r.order, (u.get i).MentionsAt i name site := by
  rw [references, mem_mentions_append_iff, FunctionDecl.mem_mentions_references_iff, or_comm]
  apply or_congr_right
  rw [mem_mentions_iff]
  simp only [List.mem_flatMap, Universe.references, TypeDecl.mem_references_iff,
    TypeDecl.MentionsAt]
  constructor
  . rintro ⟨type, ⟨i, hi, hmakes⟩, hid⟩
    exact ⟨i, hi, type, hmakes, hid⟩
  . rintro ⟨i, hi, type, hmakes, hid⟩
    exact ⟨type, ⟨i, hi, hmakes⟩, hid⟩

theorem check_of_resolve {r : Resolution u} (h : (resolve u functions).result = .ok r) :
    r.check = checkScope (claimAll r.nameClaims) := by
  have hcontains : ∀ name site, (name, site) ∈ mentions r.references → r.contains name = true := by
    intro name site hmem
    rw [mem_mentions_references_iff, functions_of_resolve h] at hmem
    exact contains_iff.2 (mem_order_of_mentionedAt h hmem)
  unfold check
  generalize hfind : (mentions r.references).find? _ = found
  cases found with
  | none =>
    cases checkScope (claimAll r.nameClaims) with
    | error => rfl
    | ok => rfl
  | some mention =>
    -- What resolving yields mentions nothing undeclared, so the check finds no such mention.
    obtain ⟨name, site⟩ := mention
    have hmissing := List.find?_some hfind
    rw [Bool.not_eq_true', hcontains name site (List.mem_of_find?_eq_some hfind)] at hmissing
    cases hmissing

theorem map_fst_nameClaims (r : Resolution u) :
    r.nameClaims.map (·.1) = r.decls.map (·.declaredName) ++ r.functions.map (·.name) := by
  unfold nameClaims decls
  rw [List.map_append, List.map_map, List.map_map]
  congr 1
  apply List.ext_getElem <;> simp

theorem check_eq_ok_iff {r : Resolution u} (h : (resolve u functions).result = .ok r) :
    r.check = .ok () ↔ DistinctNames u.decls functions := by
  rw [check_of_resolve h, checkScope_claimAll_eq_ok_iff, map_fst_nameClaims, List.nodup_append,
    functions_of_resolve h, decls, List.map_map,
    List.nodup_map_iff_inj_on (nodup_order_of_resolve h)]
  constructor
  . rintro ⟨htypes, hfunctions, hapart⟩
    refine ⟨?_, hfunctions, ?_⟩
    . intro i j hi hj heq
      exact htypes i ((mem_order_iff h i).2 hi) j ((mem_order_iff h j).2 hj) heq
    . intro i hi function hmem
      exact hapart _ (List.mem_map_of_mem ((mem_order_iff h i).2 hi)) _ (List.mem_map_of_mem hmem)
  . intro hdistinct
    refine ⟨?_, hdistinct.function_names, ?_⟩
    . intro i hi j hj heq
      exact hdistinct.type_names i j ((mem_order_iff h i).1 hi) ((mem_order_iff h j).1 hj) heq
    . intro name hname other hother
      rw [List.mem_map] at hname hother
      obtain ⟨i, hi, hname⟩ := hname
      obtain ⟨function, hmem, hother⟩ := hother
      rw [← hname, ← hother]
      exact hdistinct.apart i ((mem_order_iff h i).1 hi) function hmem

end Resolution

theorem checkEach.go_eq_ok_iff {check : α → Nat → Except Fault Unit} {elements : List α}
    {position : Nat} :
    go check position elements = .ok ()
      ↔ ∀ index element, elements[index]? = some element →
          check element (position + index) = .ok () := by
  induction elements generalizing position with
  | nil => simp [go]
  | cons element elements ih =>
    have hgo : go check position (element :: elements)
        = (check element position).bind fun _ => go check (position + 1) elements := rfl
    rw [hgo]
    cases hcheck : check element position with
    | error fault =>
      simp only [Except.bind, reduceCtorEq, false_iff]
      intro h
      have := h 0 element rfl
      rw [Nat.add_zero, hcheck] at this
      cases this
    | ok =>
      simp only [Except.bind, ih]
      constructor
      . intro h index other hother
        cases index with
        | zero =>
          cases hother
          exact hcheck
        | succ index =>
          have := h index other hother
          rw [Nat.add_assoc, Nat.add_comm 1] at this
          exact this
      . intro h index other hother
        rw [Nat.add_assoc, Nat.add_comm 1]
        exact h (index + 1) other hother

theorem checkEach_eq_ok_iff {check : α → Nat → Except Fault Unit} {elements : List α} :
    checkEach check elements = .ok ()
      ↔ ∀ index element, elements[index]? = some element → check element index = .ok () := by
  simp only [checkEach, checkEach.go_eq_ok_iff, Nat.zero_add]

namespace Description

structure LocallyValid (d : Description) : Prop where
  types : ∀ (position : Nat) (decl : TypeDecl), d.types[position]? = some decl →
    decl.validate position = .ok ()
  functions : ∀ (position : Nat) (function : FunctionDecl),
    d.functions[position]? = some function → function.validate position = .ok ()

theorem validate_eq_ok_iff {d : Description} : d.validate = .ok () ↔ d.LocallyValid := by
  have hbind : d.validate = (checkEach TypeDecl.validate d.types).bind fun _ =>
      checkEach FunctionDecl.validate d.functions := rfl
  rw [hbind]
  constructor
  . intro h
    cases htypes : checkEach TypeDecl.validate d.types with
    | error fault =>
      rw [htypes] at h
      cases h
    | ok =>
      rw [htypes] at h
      exact ⟨checkEach_eq_ok_iff.1 htypes, checkEach_eq_ok_iff.1 h⟩
  . intro h
    rw [checkEach_eq_ok_iff.2 h.types]
    exact checkEach_eq_ok_iff.2 h.functions

/--
A description passes every stage on the way to an artifact, with the universe and the resolution
that two of them yield.
-/
structure Accepted (d : Description) (u : Universe) (r : Resolution u) : Prop where
  valid : d.validate = .ok ()
  declared : Universe.ofDecls d.types = .ok u
  resolved : (Resolution.resolve u d.functions).result = .ok r
  checked : r.check = .ok ()

theorem generate_result (d : Description) (o : Options) :
    (d.generate o).result = d.validate.bind fun _ =>
      (Universe.ofDecls d.types).bind fun u =>
        (Resolution.resolve u d.functions).result.bind fun r =>
          r.check.bind fun _ => .ok (Artifact.text o r) := by
  unfold generate emit Universe.build Artifact.emit
  simp only [Traced.bind_result, Traced.record_result, Traced.pure_result, Traced.liftM_result]
  cases d.validate with
  | error => rfl
  | ok =>
    cases Universe.ofDecls d.types with
    | error => rfl
    | ok u =>
      simp only [Except.bind]
      cases (Resolution.resolve u d.functions).result with
      | error => rfl
      | ok r =>
        cases hcheck : r.check with
        | error => simp only [hcheck]
        | ok => simp only [hcheck]

theorem generate_cases (d : Description) :
    (∃ fault, ∀ o, (d.generate o).result = .error fault)
      ∨ ∃ u r, d.Accepted u r ∧ ∀ o, (d.generate o).result = .ok (Artifact.text o r) := by
  simp only [generate_result]
  cases hvalid : d.validate with
  | error fault => exact Or.inl ⟨fault, fun o => rfl⟩
  | ok =>
    cases hdeclared : Universe.ofDecls d.types with
    | error fault => exact Or.inl ⟨fault, fun o => rfl⟩
    | ok u =>
      cases hresolved : (Resolution.resolve u d.functions).result with
      | error fault =>
        refine Or.inl ⟨fault, fun o => ?_⟩
        simp only [Except.bind, hresolved]
      | ok r =>
        cases hchecked : r.check with
        | error fault =>
          refine Or.inl ⟨fault, fun o => ?_⟩
          simp only [Except.bind, hresolved, hchecked]
        | ok =>
          refine Or.inr ⟨u, r, ⟨hvalid, hdeclared, hresolved, hchecked⟩, fun o => ?_⟩
          simp only [Except.bind, hresolved, hchecked]

theorem Accepted.generate_eq_ok {d : Description} {u : Universe} {r : Resolution u}
    (h : d.Accepted u r) (o : Options) : (d.generate o).result = .ok (Artifact.text o r) := by
  rw [generate_result, h.valid, h.declared]
  simp only [Except.bind, h.resolved, h.checked]

theorem generate_eq_ok_iff {d : Description} {o : Options} {text : String} :
    (d.generate o).result = .ok text
      ↔ ∃ u, ∃ r : Resolution u, d.Accepted u r ∧ text = Artifact.text o r := by
  constructor
  . intro h
    rcases generate_cases d with ⟨fault, herror⟩ | ⟨u, r, haccepted, hok⟩
    . rw [herror] at h
      cases h
    . rw [hok] at h
      cases h
      exact ⟨u, r, haccepted, rfl⟩
  . rintro ⟨u, r, haccepted, heq⟩
    rw [heq]
    exact haccepted.generate_eq_ok o

theorem accepted_iff {d : Description} :
    (∃ u r, d.Accepted u r)
      ↔ d.LocallyValid ∧ (d.types.map (·.id)).Nodup ∧ Closed d.types d.functions
        ∧ DistinctNames d.types d.functions := by
  obtain ⟨types, functions⟩ := d
  constructor
  . rintro ⟨u, r, hvalid, hdeclared, hresolved, hchecked⟩
    have htypes : u.decls = types := Universe.ofDecls_eq_ok_iff.1 hdeclared
    subst htypes
    exact ⟨validate_eq_ok_iff.1 hvalid, u.nodup_ids, Resolution.closed_of_resolve hresolved,
      (Resolution.check_eq_ok_iff hresolved).1 hchecked⟩
  . rintro ⟨hvalid, hnodup, hclosed, hdistinct⟩
    obtain ⟨u, hdeclared⟩ := Universe.exists_ofDecls_eq_ok_iff.2 hnodup
    have htypes : u.decls = types := Universe.ofDecls_eq_ok_iff.1 hdeclared
    subst htypes
    obtain ⟨r, hresolved⟩ := Resolution.exists_resolve_eq_ok_iff.2 hclosed
    exact ⟨u, r, validate_eq_ok_iff.2 hvalid, hdeclared, hresolved,
      (Resolution.check_eq_ok_iff hresolved).2 hdistinct⟩

/--
A description has an artifact exactly when its declarations are locally valid, their identifiers are
pairwise distinct, its reference graph is closed and the declared names of what it reaches are
pairwise distinct, the functions' names included. The outcome does not depend on the options.
-/
theorem generate_isOk_iff (d : Description) (o : Options) :
    ((∃ text, (d.generate o).result = .ok text)
        ↔ d.LocallyValid ∧ (d.types.map (·.id)).Nodup ∧ Closed d.types d.functions
          ∧ DistinctNames d.types d.functions)
      ∧ ∀ o' fault,
          (d.generate o).result = .error fault ↔ (d.generate o').result = .error fault := by
  constructor
  . rw [← accepted_iff]
    constructor
    . rintro ⟨text, h⟩
      obtain ⟨u, r, haccepted, _⟩ := generate_eq_ok_iff.1 h
      exact ⟨u, r, haccepted⟩
    . rintro ⟨u, r, haccepted⟩
      exact ⟨_, haccepted.generate_eq_ok o⟩
  . intro o' fault
    rcases generate_cases d with ⟨other, herror⟩ | ⟨u, r, _, hok⟩
    . rw [herror, herror]
    . simp only [hok, reduceCtorEq]

end Description

end Bindings
