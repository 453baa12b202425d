import Bindings.Proofs.Generation
import Bindings.Proofs.Scope

/-!
This module contains what the check of a resolution refuses: two declarations of one name, and
nothing else. Every mention in a resolution has been followed while resolving, so the check finds
none that leads nowhere.
-/

namespace Bindings

/--
Both places of a duplicate claim its identifier among some entries, the first one earlier.
-/
def Duplicate.Among (duplicate : Duplicate) (entries : List (String × Site)) : Prop :=
  [(duplicate.id, duplicate.first), (duplicate.id, duplicate.second)].Sublist entries

theorem Duplicate.IsFirstIn.among {duplicate : Duplicate} {entries : List (String × Site)}
    (h : duplicate.IsFirstIn entries) : duplicate.Among entries := by
  obtain ⟨before, after, rfl, hfirst, _⟩ := h
  exact (List.singleton_sublist.2 hfirst).append (List.singleton_sublist.2 List.mem_cons_self)

theorem checkScope_claimAll_cases (entries : List (String × Site)) :
    checkScope (claimAll entries) = .ok ()
      ∨ ∃ duplicate : Duplicate, checkScope (claimAll entries) = .error (.duplicate duplicate)
        ∧ duplicate.Among entries := by
  cases h : checkScope (claimAll entries) with
  | ok => exact Or.inl rfl
  | error fault =>
    obtain ⟨duplicate, rfl, hfirst⟩ := checkScope_claimAll_eq_error h
    exact Or.inr ⟨duplicate, rfl, hfirst.among⟩

namespace Resolution

variable {u : Universe} {functions : List FunctionDecl}

/--
What resolving yields passes the check exactly when the names that its types and functions declare
are pairwise distinct. Otherwise the fault is a duplicate, never an undeclared type, and two of
these declarations share its identifier.
-/
theorem check_result_spec {r : Resolution u} (h : (resolve u functions).result = .ok r) :
    (r.check = .ok () ↔ (r.decls.map (·.declaredName) ++ r.functions.map (·.name)).Nodup)
      ∧ (∀ fault, r.check = .error fault →
          ∃ duplicate, fault = .duplicate duplicate ∧ duplicate.Among r.nameClaims)
      ∧ ∀ unresolved, r.check ≠ .error (.unresolved unresolved) := by
  have hfault : ∀ fault, r.check = .error fault →
      ∃ duplicate, fault = .duplicate duplicate ∧ duplicate.Among r.nameClaims := by
    intro fault herror
    rw [check_of_resolve h] at herror
    rcases checkScope_claimAll_cases r.nameClaims with hok | ⟨duplicate, hduplicate, hamong⟩
    . rw [hok] at herror
      cases herror
    . rw [hduplicate] at herror
      cases herror
      exact ⟨duplicate, rfl, hamong⟩
  refine ⟨?_, hfault, ?_⟩
  . rw [check_of_resolve h, checkScope_claimAll_eq_ok_iff, map_fst_nameClaims]
  . intro unresolved herror
    obtain ⟨_, heq, _⟩ := hfault _ herror
    cases heq

/--
Two types on a cycle, one of which is declared under the name of the function that takes it.
-/
def walkers : Universe where
  decls :=
    [{ id := "Left"
       rename := some "walk"
       body := .struct [{ name := "right", type := .option (.named "Right") }] },
      { id := "Right", body := .struct [{ name := "left", type := .vector (.named "Left") }] }]
  nodup_ids := by decide

theorem check_walkers :
    check ⟨[(1 : Fin 2), (0 : Fin 2)], [takeLeft]⟩ (u := leftRight) = .ok ()
      ∧ ∃ duplicate, check ⟨[(1 : Fin 2), (0 : Fin 2)], [takeLeft]⟩ (u := walkers)
        = .error (.duplicate duplicate) := by
  have hapart : (resolve leftRight [takeLeft]).result
      = .ok ⟨[(1 : Fin 2), (0 : Fin 2)], [takeLeft]⟩ := by
    cbv
  have hclash : (resolve walkers [takeLeft]).result
      = .ok ⟨[(1 : Fin 2), (0 : Fin 2)], [takeLeft]⟩ := by
    cbv
  constructor
  . exact (check_result_spec hapart).1.2 (by decide)
  . cases hcheck : check ⟨[(1 : Fin 2), (0 : Fin 2)], [takeLeft]⟩ (u := walkers) with
    | ok =>
      have hnodup := (check_result_spec hclash).1.1 hcheck
      exact absurd hnodup (by decide)
    | error fault =>
      obtain ⟨duplicate, heq, _⟩ := (check_result_spec hclash).2.1 fault hcheck
      exact ⟨duplicate, by rw [heq]⟩

end Resolution

end Bindings
