import Bindings.Validity

/-!
This module contains what valid declarations are named: the names that an artifact writes without
quotes are identifiers.
-/

namespace Bindings

theorem exists_of_bind_eq_ok {x : Except ε α} {f : α → Except ε β} {b : β}
    (h : (x >>= f) = .ok b) : ∃ a, x = .ok a ∧ f a = .ok b := by
  cases x with
  | error => cases h
  | ok a => exact ⟨a, rfl, h⟩

theorem exists_of_map_eq_ok {x : Except ε α} {f : α → β} {b : β} (h : f <$> x = .ok b) :
    ∃ a, x = .ok a ∧ f a = b := by
  cases x with
  | error => cases h
  | ok a => exact ⟨a, rfl, Except.ok.inj h⟩

theorem isIdentifier_of_checkIdentifier {name : String} {site : Site}
    (h : checkIdentifier name site = .ok ()) : Identifier.isIdentifier name = true := by
  unfold checkIdentifier at h
  split at h
  . cases h
  . split at h
    . cases h
    . next hident =>
      simp only [Bool.not_eq_true', Bool.not_eq_false] at hident
      exact hident

theorem checkScope.passes_of_go_eq_ok {claimed : List (String × Site)}
    {obligations : List Obligation} {outcome : Except Fault Unit}
    (h : go claimed obligations = .ok ()) (hmem : .passes outcome ∈ obligations) :
    outcome = .ok () := by
  induction obligations generalizing claimed with
  | nil => cases hmem
  | cons obligation obligations ih =>
    rw [List.mem_cons] at hmem
    cases obligation with
    | passes other =>
      cases other with
      | error fault =>
        rw [go] at h
        cases h
      | ok =>
        rw [go] at h
        cases hmem with
        | inl heq =>
          cases heq
          rfl
        | inr hmem => exact ih h hmem
    | claims name site =>
      have hmem : .passes outcome ∈ obligations := by
        cases hmem with
        | inl heq => cases heq
        | inr hmem => exact hmem
      rw [go] at h
      split at h
      . cases h
      . exact ih h hmem

theorem passes_of_checkScope {obligations : List Obligation} {outcome : Except Fault Unit}
    (h : checkScope obligations = .ok ()) (hmem : .passes outcome ∈ obligations) :
    outcome = .ok () :=
  checkScope.passes_of_go_eq_ok h hmem

theorem TypeDecl.isIdentifier_declaredName {decl : TypeDecl} {position : Nat}
    (h : decl.validate position = .ok ()) : Identifier.isIdentifier decl.declaredName = true := by
  unfold validate at h
  obtain ⟨_, hid, hrest⟩ := exists_of_bind_eq_ok h
  by_cases hsame : decl.declaredName = decl.id
  . rw [hsame]
    exact isIdentifier_of_checkIdentifier hid
  . rw [if_pos (bne_iff_ne.2 hsame)] at hrest
    obtain ⟨_, hname, _⟩ := exists_of_bind_eq_ok hrest
    exact isIdentifier_of_checkIdentifier hname

theorem FunctionDecl.isIdentifier_name {function : FunctionDecl} {position : Nat}
    (h : function.validate position = .ok ()) : Identifier.isIdentifier function.name = true := by
  unfold validate at h
  obtain ⟨_, hname, _⟩ := exists_of_bind_eq_ok h
  exact isIdentifier_of_checkIdentifier hname

theorem FunctionDecl.isIdentifier_param {function : FunctionDecl} {position : Nat} {param : Param}
    (h : function.validate position = .ok ()) (hparam : param ∈ function.params) :
    Identifier.isIdentifier param.name = true := by
  unfold validate at h
  obtain ⟨_, _, hscope⟩ := exists_of_bind_eq_ok h
  obtain ⟨index, hlt, heq⟩ := List.mem_iff_getElem.1 hparam
  have hpasses : .passes (checkIdentifier param.name (.param function.name param.name index))
      ∈ (function.params.mapIdx (Param.obligations function.name)).flatten := by
    refine List.mem_flatten.2 ⟨_, List.mem_mapIdx.2 ⟨index, hlt, rfl⟩, ?_⟩
    rw [heq]
    exact List.mem_cons_self
  exact isIdentifier_of_checkIdentifier (passes_of_checkScope hscope hpasses)

end Bindings
