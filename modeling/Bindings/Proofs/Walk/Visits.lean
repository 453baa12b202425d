import Bindings.Proofs.ReferenceGraph
import Bindings.Proofs.Universe
import Bindings.Resolution

/-!
This module contains the walk as the recursion that its tasks unroll: a visit of some tasks enters a
declaration, visits everything that it mentions, and only then leaves it. From this follows what the
walk enters, what it leaves, in which order, and where it fails.
-/

namespace Bindings

open ReferenceGraph Relation

variable {u : Universe}

namespace Task

def isVisit : Task u → Bool
  | mention _ _ | enter _ => true
  | leave _ => false

def target? : Task u → Option u.Id
  | mention name _ => u.lookup name
  | enter id => some id
  | leave _ => none

theorem mem_ofReferences_iff {references : List Reference} {task : Task u} :
    task ∈ ofReferences references
      ↔ ∃ name site, (name, site) ∈ mentions references ∧ task = mention name site := by
  unfold ofReferences
  rw [List.mem_map]
  constructor
  . rintro ⟨⟨name, site⟩, hmem, heq⟩
    exact ⟨name, site, hmem, heq.symm⟩
  . rintro ⟨name, site, hmem, heq⟩
    exact ⟨(name, site), hmem, heq.symm⟩

theorem mention_mem_ofReferences_iff {references : List Reference} {name : String} {site : Site} :
    (mention name site : Task u) ∈ ofReferences references
      ↔ (name, site) ∈ mentions references := by
  rw [mem_ofReferences_iff]
  constructor
  . rintro ⟨_, _, hmem, heq⟩
    cases heq
    exact hmem
  . intro hmem
    exact ⟨name, site, hmem, rfl⟩

theorem isVisit_of_mem_ofReferences {references : List Reference} {task : Task u}
    (h : task ∈ ofReferences references) : task.isVisit := by
  obtain ⟨name, site, _, heq⟩ := mem_ofReferences_iff.1 h
  rw [heq]
  rfl

theorem refersTo_iff_target {i j : u.Id} :
    RefersTo u.decls i j
      ↔ ∃ task ∈ ofReferences (u.references i), (task : Task u).target? = some j := by
  constructor
  . rintro ⟨site, h⟩
    refine ⟨mention (u.get j).id site, ?_, u.lookup_id_get j⟩
    exact mention_mem_ofReferences_iff.2 (TypeDecl.mem_mentions_references_iff.2 h)
  . rintro ⟨task, hmem, htarget⟩
    obtain ⟨name, site, hmention, heq⟩ := mem_ofReferences_iff.1 hmem
    subst heq
    have hname : (u.get j).id = name := Universe.lookup_eq_some_iff.1 htarget
    subst hname
    exact ⟨site, TypeDecl.mem_mentions_references_iff.1 hmention⟩

def Reaches (tasks : List (Task u)) (i : u.Id) : Prop :=
  ∃ task ∈ tasks, ∃ j, task.target? = some j ∧ ReflTransGen (RefersTo u.decls) j i

namespace Reaches

theorem enter {id i : u.Id} {tasks : List (Task u)} (h : ReflTransGen (RefersTo u.decls) id i) :
    Reaches (.enter id :: tasks) i :=
  ⟨.enter id, List.mem_cons_self, id, rfl, h⟩

theorem tail {task : Task u} {tasks : List (Task u)} {i : u.Id} (h : Reaches tasks i) :
    Reaches (task :: tasks) i := by
  obtain ⟨task, hmem, hreach⟩ := h
  exact ⟨task, List.mem_cons_of_mem _ hmem, hreach⟩

theorem of_enter {name : String} {site : Site} {id i : u.Id} {tasks : List (Task u)}
    (h : Reaches (.enter id :: tasks) i) (hlookup : u.lookup name = some id) :
    Reaches (.mention name site :: tasks) i := by
  obtain ⟨task, hmem, j, htarget, hpath⟩ := h
  cases hmem with
  | head => exact ⟨_, List.mem_cons_self, j, hlookup.trans htarget, hpath⟩
  | tail _ hmem => exact ⟨task, List.mem_cons_of_mem _ hmem, j, htarget, hpath⟩

theorem of_references {i j : u.Id} (h : Reaches (ofReferences (u.references i)) j) :
    ReflTransGen (RefersTo u.decls) i j := by
  obtain ⟨task, hmem, k, htarget, hpath⟩ := h
  exact .head (refersTo_iff_target.2 ⟨task, hmem, htarget⟩) hpath

end Reaches

end Task

namespace Walk

theorem run_append (walk : Walk u) (tasks others : List (Task u)) :
    walk.run (tasks ++ others) =
      match walk.run tasks with
      | (walk', none) => walk'.run others
      | (walk', some unresolved) => (walk', some unresolved) := by
  fun_induction run walk tasks with
  | case1 walk => rfl
  | case2 walk id tasks ih =>
    rw [List.cons_append, run]
    exact ih
  | case3 walk name site tasks hlookup =>
    rw [List.cons_append, run]
    simp only [hlookup]
  | case4 walk name site tasks id hlookup ih =>
    rw [List.cons_append, run]
    simp only [hlookup]
    exact ih
  | case5 walk id tasks hmem ih =>
    rw [List.cons_append, run, if_pos hmem]
    rw [List.append_assoc] at ih
    exact ih
  | case6 walk id tasks hmem ih =>
    rw [List.cons_append, run, if_neg hmem]
    exact ih

theorem length_pending_run_le (walk : Walk u) (tasks : List (Task u)) :
    (walk.run tasks).1.pending.length ≤ walk.pending.length := by
  fun_induction run walk tasks with
  | case1 => exact Nat.le_refl _
  | case2 walk id tasks ih => exact ih
  | case3 => exact Nat.le_refl _
  | case4 walk name site tasks id hlookup ih => exact ih
  | case5 walk id tasks hmem ih =>
    have := length_pending_enter_lt hmem
    omega
  | case6 walk id tasks hmem ih => exact ih

/--
A visit of tasks turns one walk into another and may fail. It follows the recursion from a
declaration into what it mentions.
-/
inductive Visits : Walk u → List (Task u) → Walk u → Option Unresolved → Prop
  | done {walk : Walk u} : Visits walk [] walk none
  | undeclared {walk : Walk u} (hlookup : u.lookup name = none) :
    Visits walk (.mention name site :: tasks) walk (some ⟨name, site⟩)
  | mention {walk walk' : Walk u} {id : u.Id} (hlookup : u.lookup name = some id)
      (hnext : Visits walk (.enter id :: tasks) walk' outcome) :
    Visits walk (.mention name site :: tasks) walk' outcome
  | seen {walk walk' : Walk u} {id : u.Id} (hmem : id ∉ walk.pending)
      (hrest : Visits walk tasks walk' outcome) :
    Visits walk (.enter id :: tasks) walk' outcome
  | fails {walk walk' : Walk u} {id : u.Id} (hmem : id ∈ walk.pending)
      (hinner : Visits (walk.enter id) (Task.ofReferences (u.references id)) walk'
        (some unresolved)) :
    Visits walk (.enter id :: tasks) walk' (some unresolved)
  | enters {walk inner walk' : Walk u} {id : u.Id} (hmem : id ∈ walk.pending)
      (hinner : Visits (walk.enter id) (Task.ofReferences (u.references id)) inner none)
      (hrest : Visits (inner.leave id) tasks walk' outcome) :
    Visits walk (.enter id :: tasks) walk' outcome

theorem visits_run (walk : Walk u) (tasks : List (Task u)) (h : ∀ task ∈ tasks, task.isVisit) :
    Visits walk tasks (walk.run tasks).1 (walk.run tasks).2 := by
  match tasks with
  | [] =>
    rw [run]
    exact .done
  | .leave id :: tasks =>
    have := h (.leave id) List.mem_cons_self
    cases this
  | .mention name site :: tasks =>
    have htail : ∀ task ∈ tasks, task.isVisit := by
      intro task hmem
      exact h task (List.mem_cons_of_mem _ hmem)
    rw [run]
    split
    . next hlookup => exact .undeclared hlookup
    . next id hlookup =>
      apply Visits.mention hlookup
      apply visits_run
      intro task hmem
      cases hmem with
      | head => rfl
      | tail _ hmem => exact htail task hmem
  | .enter id :: tasks =>
    have htail : ∀ task ∈ tasks, task.isVisit := by
      intro task hmem
      exact h task (List.mem_cons_of_mem _ hmem)
    rw [run]
    split
    . next hmem =>
      -- The run goes on with what it mentions, the leave and the tasks in one list. Cutting this
      -- list behind the mentions gives the inner visit.
      have hlt := length_pending_enter_lt hmem
      have hle := length_pending_run_le (walk.enter id) (Task.ofReferences (u.references id))
      have hinner := visits_run (walk.enter id) (Task.ofReferences (u.references id))
        fun _ => Task.isVisit_of_mem_ofReferences
      rw [run_append]
      split
      . next inner heq =>
        rw [heq] at hinner hle
        have hshorter : (inner.leave id).pending.length < walk.pending.length :=
          Nat.lt_of_le_of_lt hle hlt
        rw [run]
        exact .enters hmem hinner (visits_run (inner.leave id) tasks htail)
      . next inner unresolved heq =>
        rw [heq] at hinner
        exact .fails hmem hinner
    . next hmem => exact .seen hmem (visits_run walk tasks htail)
termination_by (walk.pending.length, Task.totalWeight tasks)
decreasing_by
  -- The tasks get lighter where nothing is entered. Entering leaves fewer declarations pending.
  . simp only [Task.totalWeight, Task.weight]
    apply Prod.Lex.right
    omega
  . simp only [Task.totalWeight, Task.weight]
    apply Prod.Lex.right
    omega
  . apply Prod.Lex.left
    assumption
  . apply Prod.Lex.left
    assumption

end Walk

end Bindings
