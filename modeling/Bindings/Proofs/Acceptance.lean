import Bindings.Proofs.Artifact.Writable
import Bindings.Proofs.Generation
import Bindings.Proofs.Validity

/-!
This module contains what an accepted description gives to its artifact: the names that are written
without quotes are identifiers, those that references are written with among them.
-/

namespace Bindings

@[simp]
theorem Universe.nameOf_id_get (u : Universe) (i : u.Id) :
    u.nameOf (u.get i).id = (u.get i).declaredName := by
  simp [nameOf]

namespace Description

theorem LocallyValid.types_of_mem {d : Description} {decl : TypeDecl} (h : d.LocallyValid)
    (hmem : decl ∈ d.types) : ∃ position, decl.validate position = .ok () := by
  obtain ⟨position, hdecl⟩ := List.mem_iff_getElem?.1 hmem
  exact ⟨position, h.types position decl hdecl⟩

theorem LocallyValid.functions_of_mem {d : Description} {function : FunctionDecl}
    (h : d.LocallyValid) (hmem : function ∈ d.functions) :
    ∃ position, function.validate position = .ok () := by
  obtain ⟨position, hfunction⟩ := List.mem_iff_getElem?.1 hmem
  exact ⟨position, h.functions position function hfunction⟩

namespace Accepted

variable {d : Description} {u : Universe} {r : Resolution u}
variable (h : d.Accepted u r)

include h

theorem decls_eq : u.decls = d.types :=
  Universe.ofDecls_eq_ok_iff.1 h.declared

theorem mem_types (i : u.Id) : u.get i ∈ d.types := by
  rw [← h.decls_eq]
  exact List.get_mem u.decls i

theorem functions_eq : r.functions = d.functions :=
  Resolution.functions_of_resolve h.resolved

theorem nodup_names : (r.decls.map (·.declaredName) ++ d.functions.map (·.name)).Nodup := by
  have hchecked := h.checked
  rw [Resolution.check_of_resolve h.resolved, checkScope_claimAll_eq_ok_iff,
    Resolution.map_fst_nameClaims, h.functions_eq] at hchecked
  exact hchecked

theorem isIdentifier_declaredName (i : u.Id) :
    Identifier.isIdentifier (u.get i).declaredName = true := by
  obtain ⟨position, hvalid⟩ := (validate_eq_ok_iff.1 h.valid).types_of_mem (h.mem_types i)
  exact TypeDecl.isIdentifier_declaredName hvalid

theorem isIdentifier_function {function : FunctionDecl} (hmem : function ∈ d.functions) :
    Identifier.isIdentifier function.name = true := by
  obtain ⟨position, hvalid⟩ := (validate_eq_ok_iff.1 h.valid).functions_of_mem hmem
  exact FunctionDecl.isIdentifier_name hvalid

theorem isIdentifier_param {function : FunctionDecl} (hmem : function ∈ d.functions)
    {param : Param} (hparam : param ∈ function.params) :
    Identifier.isIdentifier param.name = true := by
  obtain ⟨position, hvalid⟩ := (validate_eq_ok_iff.1 h.valid).functions_of_mem hmem
  exact FunctionDecl.isIdentifier_param hvalid hparam

theorem isIdentifier_nameOf {name : String} {site : Site}
    (hmention : (∃ function ∈ d.functions, function.MentionsAt name site)
      ∨ ∃ i ∈ r.order, (u.get i).MentionsAt i name site) :
    Identifier.isIdentifier (u.nameOf name) = true := by
  obtain ⟨i, _, hid⟩ := Resolution.mem_order_of_mentionedAt h.resolved hmention
  unfold Universe.nameOf
  rw [Universe.lookup_eq_some_iff.2 hid]
  exact h.isIdentifier_declaredName i

theorem namedBy_of_function {function : FunctionDecl} (hmem : function ∈ d.functions)
    {type : TypeRef} {site : Site} (hmakes : function.Makes type site) :
    type.NamedBy u.nameOf := by
  intro id hmention
  exact h.isIdentifier_nameOf (Or.inl ⟨function, hmem, type, hmakes, hmention⟩)

theorem writable_body {i : u.Id} (hi : i ∈ r.order) :
    (u.get i).body.Writable (u.get i).Quotes u.nameOf := by
  apply TypeDecl.writable_body i
  . intro name hquotes
    exact hquotes
  . intro type site hmakes id hmention
    exact h.isIdentifier_nameOf (Or.inr ⟨i, hi, type, hmakes, hmention⟩)

end Accepted

end Description

end Bindings
