import Bindings.Fault

/-!
This module contains scopes: lists of obligations that are met in order, among them that a name has
not been claimed before. A scope without other obligations is met exactly when its names are
pairwise distinct.
-/

namespace Bindings

inductive Obligation
  /-- A check of its own, by its outcome. -/
  | passes (outcome : Except Fault Unit)
  /-- A name that no earlier obligation of the scope claims. -/
  | claims (name : String) (site : Site)

namespace Obligation

def require (condition : Bool) (site : Site) (reason : Malformation) : Obligation :=
  passes (if condition then .ok () else .error (.malformed ⟨site, reason⟩))

end Obligation

def checkScope (obligations : List Obligation) : Except Fault Unit :=
  go [] obligations
where
  go (claimed : List (String × Site)) : List Obligation → Except Fault Unit
    | [] => .ok ()
    | .passes (.error fault) :: _ => .error fault
    | .passes (.ok ()) :: obligations => go claimed obligations
    | .claims name site :: obligations =>
      match claimed.lookup name with
      | some first => .error (.duplicate ⟨name, first, site⟩)
      | none => go ((name, site) :: claimed) obligations

def claimAll (entries : List (String × Site)) : List Obligation :=
  entries.map fun (name, site) => .claims name site

theorem lookup_eq_none_iff_not_mem {name : String} {entries : List (String × Site)} :
    entries.lookup name = none ↔ name ∉ entries.map (·.1) := by
  induction entries with
  | nil => simp
  | cons entry entries ih =>
    obtain ⟨other, site⟩ := entry
    by_cases h : name = other
    · simp [h]
    · rw [List.lookup_cons, beq_false_of_ne h, List.map_cons, List.mem_cons]
      simp only [h, false_or, ih]

theorem checkScope.go_claimAll_eq_ok_iff {claimed entries : List (String × Site)} :
    go claimed (claimAll entries) = .ok ()
      ↔ (entries.map (·.1)).Nodup ∧ ∀ name ∈ entries.map (·.1), name ∉ claimed.map (·.1) := by
  induction entries generalizing claimed with
  | nil => simp [claimAll, go]
  | cons entry entries ih =>
    obtain ⟨name, site⟩ := entry
    have unfold : go claimed (claimAll ((name, site) :: entries))
        = match claimed.lookup name with
          | some first => .error (.duplicate ⟨name, first, site⟩)
          | none => go ((name, site) :: claimed) (claimAll entries) := rfl
    rw [unfold]
    cases h : claimed.lookup name with
    | some first =>
      have : name ∈ claimed.map (·.1) := by
        apply Classical.byContradiction
        intro hn
        rw [lookup_eq_none_iff_not_mem.2 hn] at h
        cases h
      simp only [reduceCtorEq, false_iff]
      intro ⟨_, hc⟩
      exact hc name (by simp) this
    | none =>
      have hn := lookup_eq_none_iff_not_mem.1 h
      simp only [ih, List.map_cons, List.nodup_cons, List.mem_cons]
      constructor
      · intro ⟨hd, hc⟩
        refine ⟨⟨fun hm => (hc name hm) (Or.inl rfl), hd⟩, ?_⟩
        intro other ho
        cases ho with
        | inl ho => rw [ho]; exact hn
        | inr ho => exact fun hm => hc other ho (Or.inr hm)
      · intro ⟨⟨hm, hd⟩, hc⟩
        refine ⟨hd, fun other ho => ?_⟩
        intro hor
        cases hor with
        | inl he => exact hm (he ▸ ho)
        | inr hmem => exact hc other (Or.inr ho) hmem

theorem checkScope_claimAll_eq_ok_iff {entries : List (String × Site)} :
    checkScope (claimAll entries) = .ok () ↔ (entries.map (·.1)).Nodup := by
  simp [checkScope, checkScope.go_claimAll_eq_ok_iff]

end Bindings
