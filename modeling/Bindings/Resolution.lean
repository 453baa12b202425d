import Bindings.Trace
import Bindings.Universe

/-!
This module contains the walk from functions and exported types along references and the closed,
ordered set of declarations that it finds. A declaration is entered on first sight and stands in the
order when everything that it references has been entered, so dependencies come first and cycles are
harmless.
-/

namespace Bindings

inductive Task (u : Universe)
  | mention (name : String) (site : Site)
  | enter (id : u.Id)
  | leave (id : u.Id)

namespace Task

/--
A mention is followed by the entrance into what it names.
-/
def weight : Task u → Nat
  | mention _ _ => 2
  | enter _ => 1
  | leave _ => 1

def totalWeight : List (Task u) → Nat
  | [] => 0
  | task :: tasks => task.weight + totalWeight tasks

def ofReferences (references : List Reference) : List (Task u) :=
  (mentions references).map fun (name, site) => mention name site

end Task

structure Walk (u : Universe) where
  /-- The declarations that have not been entered. -/
  pending : List u.Id
  /-- The declarations that have been entered, in order. -/
  entered : List u.Id
  /-- The declarations that have been left, in order. -/
  order : List u.Id

namespace Walk

def start (u : Universe) : Walk u :=
  ⟨u.ids, [], []⟩

def enter (walk : Walk u) (id : u.Id) : Walk u :=
  { walk with pending := walk.pending.erase id, entered := walk.entered ++ [id] }

def leave (walk : Walk u) (id : u.Id) : Walk u :=
  { walk with order := walk.order ++ [id] }

theorem length_pending_enter_lt {walk : Walk u} {id : u.Id} (h : id ∈ walk.pending) :
    (walk.enter id).pending.length < walk.pending.length := by
  have := List.length_pos_of_mem h
  simp only [enter, List.length_erase_of_mem h]
  omega

def run (walk : Walk u) : List (Task u) → Walk u × Option Unresolved
  | [] => (walk, none)
  | .leave id :: tasks => (walk.leave id).run tasks
  | .mention name site :: tasks =>
    match u.lookup name with
    | none => (walk, some ⟨name, site⟩)
    | some id => walk.run (.enter id :: tasks)
  | .enter id :: tasks =>
    if id ∈ walk.pending then
      (walk.enter id).run (Task.ofReferences (u.references id) ++ .leave id :: tasks)
    else
      walk.run tasks
termination_by tasks => (walk.pending.length, Task.totalWeight tasks)
decreasing_by
  · simp only [leave, Task.totalWeight, Task.weight]
    apply Prod.Lex.right
    omega
  · simp only [Task.totalWeight, Task.weight]
    apply Prod.Lex.right
    omega
  · apply Prod.Lex.left
    apply length_pending_enter_lt
    assumption
  · simp only [Task.totalWeight, Task.weight]
    apply Prod.Lex.right
    omega

end Walk

structure Resolution (u : Universe) where
  order : List u.Id
  functions : List FunctionDecl

namespace Resolution

def roots (u : Universe) (functions : List FunctionDecl) : List (Task u) :=
  Task.ofReferences (functions.flatMap FunctionDecl.references)
    ++ (u.ids.filter fun id => (u.get id).exported).map .enter

/--
Resolves functions against a universe. The first mention of an undeclared type is a fault.
-/
def resolve (u : Universe) (functions : List FunctionDecl) : Traced (Resolution u) :=
  let (walk, failure) := (Walk.start u).run (roots u functions)
  let entered := walk.entered.map fun id => .entered (u.get id).id
  match failure with
  | some unresolved => ⟨entered, .error (.unresolved unresolved)⟩
  | none =>
    ⟨entered ++ [.resolved walk.order.length u.size functions.length],
      .ok ⟨walk.order, functions⟩⟩

def decls (r : Resolution u) : List TypeDecl :=
  r.order.map u.get

def contains (r : Resolution u) (name : String) : Bool :=
  match u.lookup name with
  | none => false
  | some id => r.order.contains id

def nameClaims (r : Resolution u) : List (String × Site) :=
  r.order.map (fun id => ((u.get id).declaredName, u.site id))
    ++ r.functions.mapIdx fun position function => (function.name, function.site position)

def references (r : Resolution u) : List Reference :=
  r.order.flatMap u.references ++ r.functions.flatMap FunctionDecl.references

def check (r : Resolution u) : Except Fault Unit := do
  checkScope (claimAll r.nameClaims)
  match (mentions r.references).find? fun (name, _) => !r.contains name with
  | some (name, site) => .error (.unresolved ⟨name, site⟩)
  | none => .ok ()

end Resolution

end Bindings
