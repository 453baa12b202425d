import Bindings.Scope
import Mathlib.Data.List.Nodup

/-!
This module contains where a scope breaks that is not met: at a check of its own that fails, or at
the first name that has been claimed before.
-/

namespace Bindings

/--
The second place of a duplicate is the first among some entries that repeats a name. Its first place
is where this name stood before.
-/
def Duplicate.IsFirstIn (duplicate : Duplicate) (entries : List (String × Site)) : Prop :=
  ∃ before after, entries = before ++ (duplicate.id, duplicate.second) :: after
    ∧ (duplicate.id, duplicate.first) ∈ before ∧ (before.map (·.1)).Nodup

def Obligation.claim? : Obligation → Option (String × Site)
  | passes _ => none
  | claims name site => some (name, site)

theorem mem_of_lookup_eq_some {name : String} {site : Site} {entries : List (String × Site)}
    (h : entries.lookup name = some site) : (name, site) ∈ entries := by
  induction entries with
  | nil => cases h
  | cons entry entries ih =>
    obtain ⟨other, first⟩ := entry
    rw [List.lookup_cons] at h
    split at h
    . next heq =>
      cases h
      rw [eq_of_beq heq]
      exact List.mem_cons_self
    . exact List.mem_cons_of_mem _ (ih h)

theorem flatMap_ite_eq_map_filter (p : α → Bool) (f : α → β) (elements : List α) :
    (elements.flatMap fun element => if p element then [] else [f element])
      = (elements.filter (!p ·)).map f := by
  induction elements with
  | nil => rfl
  | cons element elements ih => cases h : p element <;> simp [h, ih]

theorem lookup_eq_some_of_mem {name : String} {site : Site} {entries : List (String × Site)}
    (hnodup : (entries.map (·.1)).Nodup) (hmem : (name, site) ∈ entries) :
    entries.lookup name = some site := by
  cases hlookup : entries.lookup name with
  | none => exact absurd (List.mem_map_of_mem hmem) (lookup_eq_none_iff_not_mem.1 hlookup)
  | some other =>
    have hother : (name, other) ∈ entries := mem_of_lookup_eq_some hlookup
    have heq : (name, other) = (name, site) := List.inj_on_of_nodup_map hnodup hother hmem rfl
    rw [(Prod.mk.inj heq).2]

theorem checkScope.go_eq_error_cases {claimed : List (String × Site)}
    {obligations : List Obligation} {fault : Fault} (hclaimed : (claimed.map (·.1)).Nodup)
    (h : go claimed obligations = .error fault) :
    .passes (.error fault) ∈ obligations
      ∨ ∃ duplicate, fault = .duplicate duplicate
        ∧ duplicate.IsFirstIn (claimed.reverse ++ obligations.filterMap Obligation.claim?) := by
  induction obligations generalizing claimed with
  | nil => cases h
  | cons obligation obligations ih =>
    cases obligation with
    | passes outcome =>
      cases outcome with
      | error other =>
        cases h
        exact Or.inl List.mem_cons_self
      | ok => exact (ih hclaimed h).imp_left (List.mem_cons_of_mem _)
    | claims name site =>
      rw [go] at h
      cases hlookup : claimed.lookup name with
      | some first =>
        rw [hlookup] at h
        cases h
        refine Or.inr ⟨_, rfl, claimed.reverse, _, rfl, ?_, ?_⟩
        . exact List.mem_reverse.2 (mem_of_lookup_eq_some hlookup)
        . rw [List.map_reverse]
          exact List.nodup_reverse.2 hclaimed
      | none =>
        rw [hlookup] at h
        have hfresh := lookup_eq_none_iff_not_mem.1 hlookup
        have hnodup : (((name, site) :: claimed).map (·.1)).Nodup :=
          List.nodup_cons.2 ⟨hfresh, hclaimed⟩
        have hnext := ih hnodup h
        rw [List.reverse_cons, List.append_assoc, List.singleton_append] at hnext
        exact hnext.imp_left (List.mem_cons_of_mem _)

theorem checkScope_eq_error_cases {obligations : List Obligation} {fault : Fault}
    (h : checkScope obligations = .error fault) :
    .passes (.error fault) ∈ obligations
      ∨ ∃ duplicate, fault = .duplicate duplicate
        ∧ duplicate.IsFirstIn (obligations.filterMap Obligation.claim?) := by
  have hnone : (([] : List (String × Site)).map (·.1)).Nodup := List.nodup_nil
  exact checkScope.go_eq_error_cases hnone h

theorem filterMap_claim?_claimAll (entries : List (String × Site)) :
    (claimAll entries).filterMap Obligation.claim? = entries := by
  induction entries with
  | nil => rfl
  | cons entry entries ih => exact congrArg (entry :: ·) ih

theorem not_mem_claimAll {outcome : Except Fault Unit} {entries : List (String × Site)} :
    .passes outcome ∉ claimAll entries := by
  intro h
  obtain ⟨_, _, heq⟩ := List.mem_map.1 h
  cases heq

theorem checkScope_claimAll_eq_error {entries : List (String × Site)} {fault : Fault}
    (h : checkScope (claimAll entries) = .error fault) :
    ∃ duplicate, fault = .duplicate duplicate ∧ duplicate.IsFirstIn entries := by
  have hcases := (checkScope_eq_error_cases h).resolve_left not_mem_claimAll
  rwa [filterMap_claim?_claimAll] at hcases

theorem checkScope.go_claimAll_append {claimed before : List (String × Site)}
    (after : List (String × Site)) (hnodup : ((before.reverse ++ claimed).map (·.1)).Nodup) :
    go claimed (claimAll (before ++ after)) = go (before.reverse ++ claimed) (claimAll after) := by
  induction before generalizing claimed with
  | nil => rfl
  | cons entry before ih =>
    obtain ⟨name, site⟩ := entry
    rw [List.reverse_cons, List.append_assoc, List.singleton_append] at hnodup ⊢
    have hclaimed : (((name, site) :: claimed).map (·.1)).Nodup := by
      rw [List.map_append] at hnodup
      exact (List.nodup_append.1 hnodup).2.1
    have hfresh : claimed.lookup name = none :=
      lookup_eq_none_iff_not_mem.2 (List.nodup_cons.1 hclaimed).1
    have hstep : go claimed (claimAll ((name, site) :: before ++ after))
        = go ((name, site) :: claimed) (claimAll (before ++ after)) := by
      rw [List.cons_append, claimAll, List.map_cons, go, hfresh]
      rfl
    rw [hstep, ih hnodup]

theorem checkScope_claimAll_of_isFirstIn {duplicate : Duplicate} {entries : List (String × Site)}
    (h : duplicate.IsFirstIn entries) :
    checkScope (claimAll entries) = .error (.duplicate duplicate) := by
  obtain ⟨before, after, rfl, hfirst, hnodup⟩ := h
  have hreverse : (before.reverse.map (·.1)).Nodup := by
    rw [List.map_reverse]
    exact List.nodup_reverse.2 hnodup
  have hlookup : before.reverse.lookup duplicate.id = some duplicate.first :=
    lookup_eq_some_of_mem hreverse (List.mem_reverse.2 hfirst)
  rw [checkScope, checkScope.go_claimAll_append _ (by rwa [List.append_nil]), List.append_nil,
    claimAll, List.map_cons, checkScope.go, hlookup]

end Bindings
