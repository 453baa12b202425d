import Bindings.Proofs.Resolution
import Mathlib.Data.Fintype.Card

/-!
This module contains the walk as a recursion that goes from a declaration into the types of its
references and from a type into the declarations that it names. The declarations that are being
visited at one time are counted: the recursion ends, and it is never deeper than the universe is
large. Every declaration is entered at most once, and only if it is reachable.
-/

namespace Bindings

open ReferenceGraph

/--
A part of a walk. It has no outcome where it would be nested deeper than is allowed.
-/
def Descent (u : Universe) :=
  Walk u → Option (Walk u × Option Unresolved)

namespace Descent

variable {u : Universe}

def done : Descent u :=
  fun walk => some (walk, none)

def fail (unresolved : Unresolved) : Descent u :=
  fun walk => some (walk, some unresolved)

def leave (id : u.Id) : Descent u :=
  fun walk => some (walk.leave id, none)

def andThen (first second : Descent u) : Descent u :=
  fun walk =>
    match first walk with
    | none => none
    | some (walk', some unresolved) => some (walk', some unresolved)
    | some (walk', none) => second walk'

def all (parts : List (Descent u)) : Descent u :=
  parts.foldr andThen done

def type (enter : u.Id → Descent u) (site : Site) : TypeRef → Descent u
  | .scalar _ => done
  | .named name =>
    match u.lookup name with
    | none => fail ⟨name, site⟩
    | some id => enter id
  | .vector element => type enter site element
  | .option inner => type enter site inner
  | .tuple elements => go elements
  | .map key value => (type enter site key).andThen (type enter site value)
where
  go : List TypeRef → Descent u
    | [] => done
    | element :: elements => (type enter site element).andThen (go elements)

def references (enter : u.Id → Descent u) (references : List Reference) : Descent u :=
  all (references.map fun (ref, site) => type enter site ref)

theorem type.go_eq_all (enter : u.Id → Descent u) (site : Site) (elements : List TypeRef) :
    type.go enter site elements = all (elements.map (type enter site)) := by
  induction elements with
  | nil => rfl
  | cons element elements ih => rw [type.go, ih]; rfl

/--
The visit of a declaration. One that has been entered before is passed over; another one is entered
if a further level of nesting is left.
-/
def enter : Nat → u.Id → Descent u
  | 0, id, walk => if walk.pending.contains id then none else some (walk, none)
  | depth + 1, id, walk =>
    if walk.pending.contains id then
      ((references (enter depth) (u.references id)).andThen (leave id)) (walk.enter id)
    else
      some (walk, none)

def roots (u : Universe) (functions : List FunctionDecl) (depth : Nat) : Descent u :=
  (references (enter depth) (functions.flatMap FunctionDecl.references)).andThen
    (all ((u.ids.filter fun id => (u.get id).exported).map (enter depth)))

/--
With so many declarations pending at most, a part of a walk does what some tasks ask for.
-/
def Performs (descent : Descent u) (pending : Nat) (tasks : List (Task u)) : Prop :=
  ∀ walk : Walk u, walk.pending.length ≤ pending → descent walk = some (walk.run tasks)

namespace Performs

variable {pending : Nat} {first second : Descent u} {tasks others : List (Task u)}

theorem done : Performs (done : Descent u) pending [] := by
  intro walk _
  rw [Walk.run]
  rfl

theorem leave (id : u.Id) : Performs (leave id) pending [.leave id] := by
  intro walk _
  rw [Walk.run, Walk.run]
  rfl

theorem andThen (hfirst : Performs first pending tasks)
    (hsecond : Performs second pending others) :
    Performs (first.andThen second) pending (tasks ++ others) := by
  intro walk hpending
  have hle := Walk.length_pending_run_le walk tasks
  rw [Descent.andThen, hfirst walk hpending, Walk.run_append]
  generalize walk.run tasks = res at hle
  obtain ⟨walk', _ | unresolved⟩ := res
  . exact hsecond walk' (Nat.le_trans hle hpending)
  . rfl

theorem all {parts : List α} {descent : α → Descent u} {tasks : α → List (Task u)}
    (h : ∀ part ∈ parts, Performs (descent part) pending (tasks part)) :
    Performs (all (parts.map descent)) pending (parts.flatMap tasks) := by
  induction parts with
  | nil => exact done
  | cons part parts ih =>
    rw [List.forall_mem_cons] at h
    exact h.1.andThen (ih h.2)

variable {enter : u.Id → Descent u} (henter : ∀ id, Performs (enter id) pending [.enter id])

include henter

theorem name (site : Site) (name : String) :
    Performs (type enter site (.named name)) pending [.mention name site] := by
  intro walk hpending
  rw [type, Walk.run]
  cases hlookup : u.lookup name with
  | none => rfl
  | some id => exact henter id walk hpending

theorem type (site : Site) :
    (ref : TypeRef) →
      Performs (type enter site ref) pending (ref.names.map fun name => .mention name site)
  | .scalar _ => done
  | .named name => Performs.name henter site name
  | .vector element => Performs.type site element
  | .option inner => Performs.type site inner
  | .tuple elements => by
    rw [Descent.type, type.go_eq_all, TypeRef.names, TypeRef.names.go_eq_flatMap,
      List.map_flatMap]
    exact all fun element _ => Performs.type site element
  | .map key value => by
    rw [Descent.type, TypeRef.names, List.map_append]
    exact (Performs.type site key).andThen (Performs.type site value)

theorem references (references : List Reference) :
    Performs (Descent.references enter references) pending (Task.ofReferences references) := by
  have htasks : (Task.ofReferences references : List (Task u))
      = references.flatMap fun reference =>
        reference.1.names.map fun name => .mention name reference.2 := by
    simp [Task.ofReferences, mentions, List.map_flatMap, Function.comp_def]
  rw [htasks]
  exact all fun reference _ => type henter reference.2 reference.1

end Performs

/--
One level of nesting is left for each declaration that is pending, because the declarations that are
being visited are not.
-/
theorem performs_enter (depth : Nat) (id : u.Id) : Performs (enter depth id) depth [.enter id] := by
  induction depth generalizing id with
  | zero =>
    intro walk hpending
    have hseen : id ∉ walk.pending := by
      rw [List.length_eq_zero_iff.1 (Nat.le_zero.1 hpending)]
      exact List.not_mem_nil
    rw [enter, if_neg (mt List.contains_iff_mem.1 hseen), Walk.run, if_neg hseen, Walk.run]
  | succ depth ih =>
    intro walk hpending
    by_cases hmem : id ∈ walk.pending
    . have hlt := Walk.length_pending_enter_lt hmem
      have hinner := (Performs.references ih (u.references id)).andThen (.leave id)
      rw [enter, if_pos (List.contains_iff_mem.2 hmem), Walk.run, if_pos hmem]
      exact hinner (walk.enter id) (by omega)
    . rw [enter, if_neg (mt List.contains_iff_mem.1 hmem), Walk.run, if_neg hmem, Walk.run]

theorem roots_eq_run (functions : List FunctionDecl) :
    roots u functions u.size (Walk.start u)
      = some ((Walk.start u).run (Resolution.roots u functions)) := by
  have henter : ∀ id : u.Id, Performs (enter u.size id) u.size [.enter id] :=
    performs_enter u.size
  have hreferences :=
    Performs.references henter (functions.flatMap FunctionDecl.references)
  have hexported := Performs.all fun id (_ : id ∈ u.ids.filter fun id => (u.get id).exported) =>
    henter id
  rw [← List.map_eq_flatMap] at hexported
  apply hreferences.andThen hexported
  simp [Walk.start, Universe.ids, Universe.size]

end Descent

def Event.enteredId? : Event → Option String
  | entered id => some id
  | _ => none

namespace Resolution

variable {u : Universe} {functions : List FunctionDecl}

theorem enteredIds_resolve (u : Universe) (functions : List FunctionDecl) :
    (resolve u functions).events.filterMap Event.enteredId?
      = ((Walk.start u).run (roots u functions)).1.entered.map fun id => (u.get id).id := by
  unfold resolve
  generalize (Walk.start u).run (roots u functions) = res
  obtain ⟨walk, _ | unresolved⟩ := res
  . simp [List.filterMap_map, Function.comp_def, Event.enteredId?]
  . simp [List.filterMap_map, Function.comp_def, Event.enteredId?]

theorem perm_order_of_visits {walk : Walk u}
    (h : (Walk.start u).Visits (roots u functions) walk none) :
    walk.entered.Perm walk.order := by
  have hstart := Walk.coherent_start u
  obtain ⟨left, hcovers⟩ := h.exists_covers hstart
  have horder : walk.order = left := hcovers.order
  rw [horder, List.perm_ext_iff_of_nodup (hstart.visits h).nodup_entered hcovers.nodup]
  exact hcovers.mem_entered_iff_mem_left

/--
The walk is a recursion that ends without ever being nested deeper than the universe is large, with
or without a fault. It enters no declaration twice, so no more than there are, and it tells of each
of them as it enters it. All of them are reachable, and after a success they are those in the order.
-/
theorem resolve_descends (u : Universe) (functions : List FunctionDecl) :
    ∃ walk outcome, Descent.roots u functions u.size (Walk.start u) = some (walk, outcome)
      ∧ (resolve u functions).result
        = (match outcome with
          | none => .ok ⟨walk.order, functions⟩
          | some unresolved => .error (.unresolved unresolved))
      ∧ (resolve u functions).events.filterMap Event.enteredId?
        = walk.entered.map (fun id => (u.get id).id)
      ∧ ((resolve u functions).events.filterMap Event.enteredId?).Nodup
      ∧ walk.entered.Nodup ∧ walk.entered.length ≤ u.size
      ∧ (∀ i ∈ walk.entered, Reachable u.decls functions i)
      ∧ (outcome = none → walk.entered.Perm walk.order) := by
  have hvisits := Walk.visits_run (Walk.start u) (roots u functions) fun _ => isVisit_of_mem_roots
  have hnodup := ((Walk.coherent_start u).visits hvisits).nodup_entered
  have hids := enteredIds_resolve u functions
  refine ⟨_, _, Descent.roots_eq_run functions, ?_, hids, ?_, hnodup, ?_, ?_, ?_⟩
  . unfold resolve
    generalize (Walk.start u).run (roots u functions) = res
    obtain ⟨walk, _ | unresolved⟩ := res <;> rfl
  . rw [hids]
    exact hnodup.map fun _ _ => Universe.id_get_injective
  . have := hnodup.length_le_card
    rwa [Fintype.card_fin] at this
  . intro i hi
    cases hvisits.reaches_of_mem_entered i hi with
    | inl hstart => cases hstart
    | inr hreaches => exact reaches_roots_iff.1 hreaches
  . intro hdone
    rw [hdone] at hvisits
    exact perm_order_of_visits hvisits

/--
A cycle of two declarations needs two levels, also where the walk fails later.
-/
theorem resolve_descends_leftRight :
    (∃ walk, Descent.roots leftRight [takeLeft] 2 (Walk.start leftRight) = some (walk, none)
        ∧ walk.order = [(1 : Fin 2), (0 : Fin 2)] ∧ walk.entered.Perm walk.order)
      ∧ Descent.roots leftRight [takeLeft] 1 (Walk.start leftRight) = none
      ∧ ∃ walk, Descent.roots leftRight [takeLeft, makePoint] 2 (Walk.start leftRight)
          = some (walk, some ⟨"Point", .result "make"⟩) ∧ walk.entered.length ≤ 2 := by
  have hok : (resolve leftRight [takeLeft]).result
      = .ok ⟨[(1 : Fin 2), (0 : Fin 2)], [takeLeft]⟩ := by
    cbv
  have herror : (resolve leftRight [takeLeft, makePoint]).result
      = .error (.unresolved ⟨"Point", .result "make"⟩) := by
    cbv
  refine ⟨?_, by rfl, ?_⟩
  . obtain ⟨walk, outcome, hdescent, hresult, -, -, -, -, -, hperm⟩ :=
      resolve_descends leftRight [takeLeft]
    rw [hok] at hresult
    cases outcome with
    | none =>
      injection hresult with hresult
      injection hresult with horder
      exact ⟨walk, hdescent, horder.symm, hperm rfl⟩
    | some unresolved => cases hresult
  . obtain ⟨walk, outcome, hdescent, hresult, -, -, -, hlength, -⟩ :=
      resolve_descends leftRight [takeLeft, makePoint]
    rw [herror] at hresult
    cases outcome with
    | none => cases hresult
    | some unresolved =>
      cases hresult
      exact ⟨walk, hdescent, hlength⟩

end Resolution

end Bindings
