import Bindings.Proofs.Walk.Visits
import Mathlib.Data.List.Nodup

/-!
This module contains what a visit does to a walk: which declarations it enters, that it leaves them
in dependency order up to cycles, and which mention it fails at.
-/

namespace Bindings.Walk

open ReferenceGraph Relation

variable {u : Universe}

/--
Every declaration is either pending or entered, and neither of these lists repeats one.
-/
structure Coherent (walk : Walk u) : Prop where
  mem_pending_iff : ∀ i, i ∈ walk.pending ↔ i ∉ walk.entered
  nodup_pending : walk.pending.Nodup
  nodup_entered : walk.entered.Nodup

theorem coherent_start (u : Universe) : (start u).Coherent where
  mem_pending_iff i := by simp [start, u.mem_ids i]
  nodup_pending := List.nodup_finRange _
  nodup_entered := List.nodup_nil

namespace Coherent

theorem not_mem_entered {walk : Walk u} {id : u.Id} (h : walk.Coherent)
    (hmem : id ∈ walk.pending) : id ∉ walk.entered :=
  (h.mem_pending_iff id).1 hmem

theorem mem_entered {walk : Walk u} {id : u.Id} (h : walk.Coherent) (hmem : id ∉ walk.pending) :
    id ∈ walk.entered := by
  rw [h.mem_pending_iff, not_not] at hmem
  exact hmem

theorem enter {walk : Walk u} {id : u.Id} (h : walk.Coherent) (hmem : id ∈ walk.pending) :
    (walk.enter id).Coherent where
  mem_pending_iff i := by
    simp only [Walk.enter]
    rw [h.nodup_pending.mem_erase_iff, h.mem_pending_iff, List.mem_append, List.mem_singleton]
    constructor
    . rintro ⟨hne, hi⟩ hor
      cases hor with
      | inl hentered => exact hi hentered
      | inr heq => exact hne heq
    . intro hi
      exact ⟨fun heq => hi (Or.inr heq), fun hentered => hi (Or.inl hentered)⟩
  nodup_pending := h.nodup_pending.erase id
  nodup_entered := by
    simp only [Walk.enter]
    rw [List.nodup_append]
    refine ⟨h.nodup_entered, List.nodup_singleton id, ?_⟩
    intro i hi j hj heq
    rw [heq, List.mem_singleton.1 hj] at hi
    exact h.not_mem_entered hmem hi

theorem leave {walk : Walk u} {id : u.Id} (h : walk.Coherent) : (walk.leave id).Coherent where
  mem_pending_iff := h.mem_pending_iff
  nodup_pending := h.nodup_pending
  nodup_entered := h.nodup_entered

theorem visits {walk walk' : Walk u} {tasks : List (Task u)} {outcome : Option Unresolved}
    (h : walk.Coherent) (hvisits : Visits walk tasks walk' outcome) : walk'.Coherent := by
  induction hvisits with
  | done => exact h
  | undeclared => exact h
  | mention _ _ ih => exact ih h
  | seen _ _ ih => exact ih h
  | fails hmem _ ih => exact ih (h.enter hmem)
  | enters hmem _ _ ihinner ihrest => exact ihrest (ihinner (h.enter hmem)).leave

end Coherent

theorem mem_entered_enter {walk : Walk u} {id i : u.Id} :
    i ∈ (walk.enter id).entered ↔ i ∈ walk.entered ∨ i = id := by
  rw [enter, List.mem_append, List.mem_singleton]

theorem mem_or_reaches_of_enter {walk : Walk u} {id i : u.Id} {tasks : List (Task u)}
    (h : i ∈ (walk.enter id).entered ∨ Task.Reaches (Task.ofReferences (u.references id)) i) :
    i ∈ walk.entered ∨ Task.Reaches (.enter id :: tasks) i := by
  cases h with
  | inl hi =>
    cases mem_entered_enter.1 hi with
    | inl hi => exact Or.inl hi
    | inr heq =>
      rw [heq]
      exact Or.inr (.enter .refl)
  | inr hreaches => exact Or.inr (.enter hreaches.of_references)

namespace Visits

theorem entered_subset {walk walk' : Walk u} {tasks : List (Task u)} {outcome : Option Unresolved}
    (h : Visits walk tasks walk' outcome) : walk.entered ⊆ walk'.entered := by
  induction h with
  | done => exact List.Subset.refl _
  | undeclared => exact List.Subset.refl _
  | mention _ _ ih => exact ih
  | seen _ _ ih => exact ih
  | fails _ _ ih =>
    intro i hi
    exact ih (mem_entered_enter.2 (Or.inl hi))
  | enters _ _ _ ihinner ihrest =>
    intro i hi
    exact ihrest (ihinner (mem_entered_enter.2 (Or.inl hi)))

theorem reaches_of_mem_entered {walk walk' : Walk u} {tasks : List (Task u)}
    {outcome : Option Unresolved} (h : Visits walk tasks walk' outcome) :
    ∀ i ∈ walk'.entered, i ∈ walk.entered ∨ Task.Reaches tasks i := by
  induction h with
  | done => exact fun i hi => Or.inl hi
  | undeclared => exact fun i hi => Or.inl hi
  | mention hlookup _ ih =>
    intro i hi
    cases ih i hi with
    | inl hi => exact Or.inl hi
    | inr hreaches => exact Or.inr (hreaches.of_enter hlookup)
  | seen _ _ ih =>
    intro i hi
    cases ih i hi with
    | inl hi => exact Or.inl hi
    | inr hreaches => exact Or.inr hreaches.tail
  | fails _ _ ih =>
    intro i hi
    exact mem_or_reaches_of_enter (ih i hi)
  | enters _ _ _ ihinner ihrest =>
    intro i hi
    cases ihrest i hi with
    | inl hi => exact mem_or_reaches_of_enter (ihinner i hi)
    | inr hreaches => exact Or.inr hreaches.tail

theorem undeclared_of_fails {walk walk' : Walk u} {tasks : List (Task u)} {unresolved : Unresolved}
    (h : Visits walk tasks walk' (some unresolved)) :
    u.lookup unresolved.id = none
      ∧ (.mention unresolved.id unresolved.site ∈ tasks
        ∨ ∃ i ∈ walk'.entered, (unresolved.id, unresolved.site) ∈ mentions (u.references i)) := by
  generalize houtcome : some unresolved = outcome at h
  induction h with
  | done => cases houtcome
  | undeclared hlookup =>
    cases houtcome
    exact ⟨hlookup, Or.inl List.mem_cons_self⟩
  | mention _ _ ih =>
    obtain ⟨hnone, hor⟩ := ih houtcome
    refine ⟨hnone, ?_⟩
    cases hor with
    | inl hmem =>
      rw [List.mem_cons] at hmem
      cases hmem with
      | inl heq => cases heq
      | inr hmem => exact Or.inl (List.mem_cons_of_mem _ hmem)
    | inr hentered => exact Or.inr hentered
  | seen _ _ ih =>
    obtain ⟨hnone, hor⟩ := ih houtcome
    exact ⟨hnone, hor.imp_left (List.mem_cons_of_mem _)⟩
  | fails _ hinner ih =>
    obtain ⟨hnone, hor⟩ := ih houtcome
    refine ⟨hnone, Or.inr ?_⟩
    cases hor with
    | inl hmem =>
      refine ⟨_, hinner.entered_subset (mem_entered_enter.2 (Or.inr rfl)), ?_⟩
      exact Task.mention_mem_ofReferences_iff.1 hmem
    | inr hentered => exact hentered
  | enters _ _ _ _ ih =>
    obtain ⟨hnone, hor⟩ := ih houtcome
    exact ⟨hnone, hor.imp_left (List.mem_cons_of_mem _)⟩

end Visits

/--
What a visit that succeeds adds to a walk: the declarations that it leaves, in order. They are those
that it enters, what they mention has been entered, and a declaration stands behind what it refers
to unless that had been entered before the visit or leads back to it.
-/
structure Covers (walk : Walk u) (tasks : List (Task u)) (walk' : Walk u) (left : List u.Id) :
    Prop where
  order : walk'.order = walk.order ++ left
  mem_entered_iff : ∀ i, i ∈ walk'.entered ↔ i ∈ walk.entered ∨ i ∈ left
  not_mem_entered : ∀ i ∈ left, i ∉ walk.entered
  nodup : left.Nodup
  targets : ∀ task ∈ tasks, ∃ i ∈ walk'.entered, task.target? = some i
  closed : ∀ i ∈ left, ∀ task ∈ Task.ofReferences (u.references i),
    ∃ j ∈ walk'.entered, (task : Task u).target? = some j
  sorted : ∀ i ∈ left, ∀ j, RefersTo u.decls i j →
    j ∈ walk.entered ∨ [j, i].Sublist left ∨ ReflTransGen (RefersTo u.decls) j i

namespace Covers

variable {walk inner walk' : Walk u} {tasks others : List (Task u)} {left right : List u.Id}

theorem nil (walk : Walk u) : walk.Covers [] walk [] where
  order := by rw [List.append_nil]
  mem_entered_iff i := by simp
  not_mem_entered i hi := by cases hi
  nodup := List.nodup_nil
  targets task hmem := by cases hmem
  closed i hi := by cases hi
  sorted i hi := by cases hi

theorem seen {id : u.Id} (h : walk.Covers tasks walk' left) (hmem : id ∈ walk.entered) :
    walk.Covers (.enter id :: tasks) walk' left where
  order := h.order
  mem_entered_iff := h.mem_entered_iff
  not_mem_entered := h.not_mem_entered
  nodup := h.nodup
  targets task htask := by
    cases htask with
    | head => exact ⟨id, (h.mem_entered_iff id).2 (Or.inl hmem), rfl⟩
    | tail _ htask => exact h.targets task htask
  closed := h.closed
  sorted := h.sorted

theorem mention {name : String} {site : Site} {id : u.Id}
    (h : walk.Covers (.enter id :: tasks) walk' left) (hlookup : u.lookup name = some id) :
    walk.Covers (.mention name site :: tasks) walk' left where
  order := h.order
  mem_entered_iff := h.mem_entered_iff
  not_mem_entered := h.not_mem_entered
  nodup := h.nodup
  targets task htask := by
    cases htask with
    | head =>
      obtain ⟨i, hi, htarget⟩ := h.targets (.enter id) List.mem_cons_self
      exact ⟨i, hi, hlookup.trans htarget⟩
    | tail _ htask => exact h.targets task (List.mem_cons_of_mem _ htask)
  closed := h.closed
  sorted := h.sorted

theorem enter {id : u.Id} (hfresh : id ∉ walk.entered)
    (h : (walk.enter id).Covers (Task.ofReferences (u.references id)) inner left)
    (hreaches : ∀ i ∈ left, ReflTransGen (RefersTo u.decls) id i) :
    walk.Covers [.enter id] (inner.leave id) (left ++ [id]) where
  order := by
    simp only [leave, h.order, Walk.enter, List.append_assoc]
  mem_entered_iff i := by
    simp only [leave]
    rw [h.mem_entered_iff, mem_entered_enter, List.mem_append, List.mem_singleton]
    rw [or_assoc, or_comm (a := i = id)]
  not_mem_entered i hi := by
    rw [List.mem_append, List.mem_singleton] at hi
    cases hi with
    | inl hi =>
      intro hentered
      exact h.not_mem_entered i hi (mem_entered_enter.2 (Or.inl hentered))
    | inr heq =>
      rw [heq]
      exact hfresh
  nodup := by
    rw [List.nodup_append]
    refine ⟨h.nodup, List.nodup_singleton id, ?_⟩
    intro i hi j hj heq
    rw [heq, List.mem_singleton.1 hj] at hi
    exact h.not_mem_entered id hi (mem_entered_enter.2 (Or.inr rfl))
  targets task htask := by
    rw [List.mem_singleton] at htask
    subst htask
    exact ⟨id, (h.mem_entered_iff id).2 (Or.inl (mem_entered_enter.2 (Or.inr rfl))), rfl⟩
  closed i hi task htask := by
    rw [List.mem_append, List.mem_singleton] at hi
    cases hi with
    | inl hi => exact h.closed i hi task htask
    | inr heq =>
      rw [heq] at htask
      exact h.targets task htask
  sorted i hi j hij := by
    rw [List.mem_append, List.mem_singleton] at hi
    cases hi with
    | inl hi =>
      rcases h.sorted i hi j hij with hj | hbefore | hcycle
      . cases mem_entered_enter.1 hj with
        | inl hj => exact Or.inl hj
        | inr heq =>
          -- A reference back to the declaration that is being visited closes a cycle.
          rw [heq]
          exact Or.inr (Or.inr (hreaches i hi))
      . exact Or.inr (Or.inl (hbefore.trans (List.sublist_append_left left [id])))
      . exact Or.inr (Or.inr hcycle)
    | inr heq =>
      subst heq
      obtain ⟨task, htask, htarget⟩ := Task.refersTo_iff_target.1 hij
      obtain ⟨k, hk, hktarget⟩ := h.targets task htask
      have hkj : k = j := Option.some.inj (hktarget.symm.trans htarget)
      subst hkj
      cases (h.mem_entered_iff k).1 hk with
      | inl hk =>
        cases mem_entered_enter.1 hk with
        | inl hk => exact Or.inl hk
        | inr heq =>
          rw [heq]
          exact Or.inr (Or.inr .refl)
      | inr hk =>
        have hbefore : ([k] ++ [i]).Sublist (left ++ [i]) :=
          (List.singleton_sublist.2 hk).append (List.Sublist.refl _)
        exact Or.inr (Or.inl hbefore)

theorem reflTransGen_of_visits {id : u.Id} {outcome : Option Unresolved}
    (h : (walk.enter id).Covers (Task.ofReferences (u.references id)) inner left)
    (hvisits : Visits (walk.enter id) (Task.ofReferences (u.references id)) inner outcome) :
    ∀ i ∈ left, ReflTransGen (RefersTo u.decls) id i := by
  intro i hi
  have hentered : i ∈ inner.entered := (h.mem_entered_iff i).2 (Or.inr hi)
  cases hvisits.reaches_of_mem_entered i hentered with
  | inl hbefore => exact absurd hbefore (h.not_mem_entered i hi)
  | inr hreaches => exact hreaches.of_references

theorem append (h : walk.Covers tasks inner left) (h' : inner.Covers others walk' right) :
    walk.Covers (tasks ++ others) walk' (left ++ right) where
  order := by
    rw [h'.order, h.order, List.append_assoc]
  mem_entered_iff i := by
    rw [h'.mem_entered_iff, h.mem_entered_iff, List.mem_append, or_assoc]
  not_mem_entered i hi := by
    rw [List.mem_append] at hi
    cases hi with
    | inl hi => exact h.not_mem_entered i hi
    | inr hi =>
      intro hentered
      exact h'.not_mem_entered i hi ((h.mem_entered_iff i).2 (Or.inl hentered))
  nodup := by
    rw [List.nodup_append]
    refine ⟨h.nodup, h'.nodup, ?_⟩
    intro i hi j hj heq
    rw [← heq] at hj
    exact h'.not_mem_entered i hj ((h.mem_entered_iff i).2 (Or.inr hi))
  targets task htask := by
    rw [List.mem_append] at htask
    cases htask with
    | inl htask =>
      obtain ⟨i, hi, htarget⟩ := h.targets task htask
      exact ⟨i, (h'.mem_entered_iff i).2 (Or.inl hi), htarget⟩
    | inr htask => exact h'.targets task htask
  closed i hi task htask := by
    rw [List.mem_append] at hi
    cases hi with
    | inl hi =>
      obtain ⟨j, hj, htarget⟩ := h.closed i hi task htask
      exact ⟨j, (h'.mem_entered_iff j).2 (Or.inl hj), htarget⟩
    | inr hi => exact h'.closed i hi task htask
  sorted i hi j hij := by
    rw [List.mem_append] at hi
    cases hi with
    | inl hi =>
      rcases h.sorted i hi j hij with hj | hbefore | hcycle
      . exact Or.inl hj
      . exact Or.inr (Or.inl (hbefore.trans (List.sublist_append_left left right)))
      . exact Or.inr (Or.inr hcycle)
    | inr hi =>
      rcases h'.sorted i hi j hij with hj | hbefore | hcycle
      . -- It was entered before the first visit too, or the first visit has left it.
        cases (h.mem_entered_iff j).1 hj with
        | inl hj => exact Or.inl hj
        | inr hj =>
          have hsub : ([j] ++ [i]).Sublist (left ++ right) :=
            (List.singleton_sublist.2 hj).append (List.singleton_sublist.2 hi)
          exact Or.inr (Or.inl hsub)
      . exact Or.inr (Or.inl (hbefore.trans (List.sublist_append_right left right)))
      . exact Or.inr (Or.inr hcycle)

end Covers

theorem Visits.exists_covers {walk walk' : Walk u} {tasks : List (Task u)}
    (h : Visits walk tasks walk' none) (hcoherent : walk.Coherent) :
    ∃ left, walk.Covers tasks walk' left := by
  generalize houtcome : none = outcome at h
  induction h with
  | done => exact ⟨[], .nil _⟩
  | undeclared => cases houtcome
  | mention hlookup _ ih =>
    obtain ⟨left, hcovers⟩ := ih hcoherent houtcome
    exact ⟨left, hcovers.mention hlookup⟩
  | seen hmem _ ih =>
    obtain ⟨left, hcovers⟩ := ih hcoherent houtcome
    exact ⟨left, hcovers.seen (hcoherent.mem_entered hmem)⟩
  | fails => cases houtcome
  | enters hmem hinner _ ihinner ihrest =>
    have henter := hcoherent.enter hmem
    obtain ⟨left, hcovers⟩ := ihinner henter rfl
    obtain ⟨right, hcovers'⟩ := ihrest (henter.visits hinner).leave houtcome
    have hreaches := hcovers.reflTransGen_of_visits hinner
    exact ⟨_, (hcovers.enter (hcoherent.not_mem_entered hmem) hreaches).append hcovers'⟩

section Start

variable {walk : Walk u} {tasks : List (Task u)} {left : List u.Id}
variable (h : (start u).Covers tasks walk left)

include h

theorem Covers.mem_entered_iff_mem_left (i : u.Id) : i ∈ walk.entered ↔ i ∈ left := by
  rw [h.mem_entered_iff]
  constructor
  . intro hor
    cases hor with
    | inl hstart => cases hstart
    | inr hi => exact hi
  . exact Or.inr

theorem Covers.mem_left_iff_reaches {outcome : Option Unresolved}
    (hvisits : (start u).Visits tasks walk outcome) (i : u.Id) :
    i ∈ left ↔ Task.Reaches tasks i := by
  constructor
  . intro hi
    cases hvisits.reaches_of_mem_entered i ((h.mem_entered_iff_mem_left i).2 hi) with
    | inl hstart => cases hstart
    | inr hreaches => exact hreaches
  . rintro ⟨task, hmem, j, htarget, hpath⟩
    induction hpath with
    | refl =>
      obtain ⟨k, hk, hktarget⟩ := h.targets task hmem
      rw [htarget] at hktarget
      cases hktarget
      exact (h.mem_entered_iff_mem_left j).1 hk
    | tail _ hstep ih =>
      obtain ⟨next, hnext, htarget⟩ := Task.refersTo_iff_target.1 hstep
      obtain ⟨k, hk, hktarget⟩ := h.closed _ ih next hnext
      rw [htarget] at hktarget
      cases hktarget
      exact (h.mem_entered_iff_mem_left _).1 hk

end Start

end Bindings.Walk
