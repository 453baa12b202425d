import Bindings.Universe
import Mathlib.Data.List.FinRange

/-!
This module contains what a universe knows about identifiers: each is looked up to the one
declaration that has it, and declarations form a universe exactly when their identifiers are
pairwise distinct.
-/

namespace Bindings

namespace Universe

theorem id_get_injective {u : Universe} {i j : u.Id} (h : (u.get i).id = (u.get j).id) :
    i = j := by
  have hget : (u.decls.map (·.id))[i.val]? = (u.decls.map (·.id))[j.val]? := by
    unfold get at h
    simp only [List.getElem?_map, List.getElem?_eq_getElem i.isLt,
      List.getElem?_eq_getElem j.isLt, Option.map_some]
    exact congrArg some h
  have hlt : i.val < (u.decls.map (·.id)).length := by
    rw [List.length_map]
    exact i.isLt
  exact Fin.ext ((List.getElem?_inj hlt u.nodup_ids).1 hget)

theorem lookup_eq_some_iff {u : Universe} {name : String} {i : u.Id} :
    u.lookup name = some i ↔ (u.get i).id = name := by
  rw [lookup, List.findFinIdx?_eq_some_iff]
  constructor
  . rintro ⟨hname, _⟩
    exact eq_of_beq hname
  . intro hname
    refine ⟨beq_iff_eq.2 hname, ?_⟩
    intro j hlt hj
    have hij : j = i := id_get_injective ((eq_of_beq hj).trans hname.symm)
    exact Nat.ne_of_lt hlt (congrArg Fin.val hij)

theorem lookup_eq_none_iff {u : Universe} {name : String} :
    u.lookup name = none ↔ ∀ i, (u.get i).id ≠ name := by
  constructor
  . intro h i hi
    rw [lookup_eq_some_iff.2 hi] at h
    cases h
  . intro h
    cases hl : u.lookup name with
    | none => rfl
    | some i => exact absurd (lookup_eq_some_iff.1 hl) (h i)

@[simp]
theorem lookup_id_get (u : Universe) (i : u.Id) : u.lookup (u.get i).id = some i :=
  lookup_eq_some_iff.2 rfl

theorem mem_ids (u : Universe) (i : u.Id) : i ∈ u.ids :=
  List.mem_finRange i

theorem map_get_ids (u : Universe) : u.ids.map u.get = u.decls := by
  show (List.finRange u.decls.length).map u.decls.get = u.decls
  rw [← List.ofFn_eq_map, List.ofFn_get]

theorem ofDecls_eq_ok_iff {decls : List TypeDecl} {u : Universe} :
    ofDecls decls = .ok u ↔ u.decls = decls := by
  unfold ofDecls
  split
  . next fault h =>
    simp only [reduceCtorEq, false_iff]
    intro hdecls
    have hok : checkScope (claimAll (idClaims decls)) = .ok () := by
      rw [checkScope_claimAll_eq_ok_iff, map_fst_idClaims, ← hdecls]
      exact u.nodup_ids
    rw [h] at hok
    cases hok
  . next h =>
    constructor
    . intro heq
      cases heq
      rfl
    . intro hdecls
      subst hdecls
      rfl

theorem ofDecls_eq_error_iff {decls : List TypeDecl} {fault : Fault} :
    ofDecls decls = .error fault ↔ checkScope (claimAll (idClaims decls)) = .error fault := by
  unfold ofDecls
  split
  . next h => rw [h, Except.error.injEq, Except.error.injEq]
  . next h => simp [h]

theorem exists_ofDecls_eq_ok_iff {decls : List TypeDecl} :
    (∃ u, ofDecls decls = .ok u) ↔ (decls.map (·.id)).Nodup := by
  constructor
  . rintro ⟨u, hu⟩
    rw [← ofDecls_eq_ok_iff.1 hu]
    exact u.nodup_ids
  . intro h
    exact ⟨⟨decls, h⟩, ofDecls_eq_ok_iff.2 rfl⟩

end Universe

end Bindings
