import Bindings.Proofs.Resolution
import Mathlib.Data.List.Forall2

/-!
This module contains universes that hold the declarations of another universe under other
identifiers, in any order and among others. Walks from corresponding tasks enter and leave
corresponding declarations, and they fail together.
-/

namespace Bindings

open ReferenceGraph

def Mention.Follows (s : String → String) (agree : Site → Site → Prop) (mention other : Mention) :
    Prop :=
  other.1 = s mention.1 ∧ agree mention.2 other.2

theorem ReferenceGraph.reachable_of_mentionedAt {decls : List TypeDecl}
    {functions : List FunctionDecl} {i : Fin decls.length} {site : Site}
    (h : MentionedAt decls functions (decls.get i).id site) : Reachable decls functions i := by
  cases h with
  | inl hfunction =>
    obtain ⟨function, hmem, hmention⟩ := hfunction
    exact ⟨i, Or.inr ⟨function, hmem, site, hmention⟩, .refl⟩
  | inr hdecl =>
    obtain ⟨j, ⟨root, hroot, hpath⟩, hmention⟩ := hdecl
    exact ⟨root, hroot, hpath.tail ⟨site, hmention⟩⟩

namespace Universe

/--
The declarations of a universe stand in another one under other identifiers. What is mentioned on
the way from corresponding functions and undeclared here is undeclared there.
-/
structure Embedding (s : String → String) (agree : Site → Site → Prop)
    (functions others : List FunctionDecl) (u v : Universe) where
  index : u.Id → v.Id
  injective : Function.Injective index
  id_get : ∀ i, (v.get (index i)).id = s (u.get i).id
  references : ∀ i, List.Forall₂ (Mention.Follows s agree) (mentions (u.references i))
    (mentions (v.references (index i)))
  roots : List.Forall₂ (Mention.Follows s agree)
    (mentions (functions.flatMap FunctionDecl.references))
    (mentions (others.flatMap FunctionDecl.references))
  exported : (v.ids.filter fun i => (v.get i).exported)
    = (u.ids.filter fun i => (u.get i).exported).map index
  undeclared : ∀ name site, MentionedAt u.decls functions name site → u.lookup name = none →
    v.lookup (s name) = none

end Universe

section Embedding

variable {s : String → String} {agree : Site → Site → Prop} {functions others : List FunctionDecl}
variable {u v : Universe} (e : u.Embedding s agree functions others v)

namespace Task

inductive Follows : Task u → Task v → Prop
  | mention {site site' : Site} (hsite : agree site site') :
    Follows (.mention name site) (.mention (s name) site')
  | enter (id : u.Id) : Follows (.enter id) (.enter (e.index id))
  | leave (id : u.Id) : Follows (.leave id) (.leave (e.index id))

def Live (functions : List FunctionDecl) : Task u → Prop
  | mention name site => MentionedAt u.decls functions name site
  | enter id => Reachable u.decls functions id
  | leave _ => True

theorem follows_ofReferences {references more : List Reference}
    (h : List.Forall₂ (Mention.Follows s agree) (mentions references) (mentions more)) :
    List.Forall₂ (Follows e) (ofReferences references) (ofReferences more) := by
  unfold ofReferences
  rw [List.forall₂_map_left_iff, List.forall₂_map_right_iff]
  apply h.imp
  rintro ⟨name, site⟩ ⟨name', site'⟩ ⟨hname, hsite⟩
  dsimp only at hname hsite
  rw [hname]
  exact .mention hsite

theorem live_of_mem_ofReferences {id : u.Id} {task : Task u}
    (h : Reachable u.decls functions id) (hmem : task ∈ ofReferences (u.references id)) :
    task.Live functions := by
  obtain ⟨name, site, hmention, heq⟩ := mem_ofReferences_iff.1 hmem
  rw [heq]
  exact Or.inr ⟨id, h, TypeDecl.mem_mentions_references_iff.1 hmention⟩

end Task

namespace Walk

structure Follows (walk : Walk u) (other : Walk v) : Prop where
  mem_pending_iff : ∀ i, e.index i ∈ other.pending ↔ i ∈ walk.pending
  nodup : walk.pending.Nodup
  nodup' : other.pending.Nodup
  order : other.order = walk.order.map e.index

theorem follows_start : Follows e (start u) (start v) where
  mem_pending_iff i := by simp [start, u.mem_ids, v.mem_ids]
  nodup := List.nodup_finRange _
  nodup' := List.nodup_finRange _
  order := rfl

variable {e}

theorem Follows.enter {walk : Walk u} {other : Walk v} (h : Follows e walk other) (id : u.Id) :
    Follows e (walk.enter id) (other.enter (e.index id)) where
  mem_pending_iff i := by
    simp only [Walk.enter]
    rw [h.nodup.mem_erase_iff, h.nodup'.mem_erase_iff, h.mem_pending_iff, e.injective.ne_iff]
  nodup := h.nodup.erase id
  nodup' := h.nodup'.erase _
  order := h.order

theorem Follows.leave {walk : Walk u} {other : Walk v} (h : Follows e walk other) (id : u.Id) :
    Follows e (walk.leave id) (other.leave (e.index id)) where
  mem_pending_iff := h.mem_pending_iff
  nodup := h.nodup
  nodup' := h.nodup'
  order := by simp only [Walk.leave, h.order, List.map_append, List.map_singleton]

structure EndAlike (e : u.Embedding s agree functions others v)
    (run : Walk u × Option Unresolved) (other : Walk v × Option Unresolved) : Prop where
  walk : Follows e run.1 other.1
  outcome : Option.Rel (fun a b => b.id = s a.id ∧ agree a.site b.site) run.2 other.2

theorem endAlike_run {walk : Walk u} {other : Walk v} {tasks : List (Task u)}
    {tasks' : List (Task v)} (hwalk : Follows e walk other)
    (htasks : List.Forall₂ (Task.Follows e) tasks tasks')
    (hlive : ∀ task ∈ tasks, task.Live functions) :
    EndAlike e (walk.run tasks) (other.run tasks') := by
  fun_induction run walk tasks generalizing other tasks' with
  | case1 walk =>
    cases htasks
    rw [run]
    exact ⟨hwalk, .none⟩
  | case2 walk id tasks ih =>
    rw [List.forall_mem_cons] at hlive
    cases htasks with
    | cons hhead htail =>
      cases hhead
      rw [run]
      exact ih (hwalk.leave id) htail hlive.2
  | case3 walk name site tasks hlookup =>
    rw [List.forall_mem_cons] at hlive
    cases htasks with
    | cons hhead htail =>
      cases hhead with
      | mention hsite =>
        rw [run, e.undeclared name site hlive.1 hlookup]
        exact ⟨hwalk, .some ⟨rfl, hsite⟩⟩
  | case4 walk name site tasks id hlookup ih =>
    rw [List.forall_mem_cons] at hlive
    have hid := Universe.lookup_eq_some_iff.1 hlookup
    subst hid
    cases htasks with
    | cons hhead htail =>
      cases hhead with
      | mention hsite =>
        rw [run, Universe.lookup_eq_some_iff.2 (e.id_get id)]
        apply ih hwalk (.cons (.enter id) htail)
        rw [List.forall_mem_cons]
        exact ⟨reachable_of_mentionedAt hlive.1, hlive.2⟩
  | case5 walk id tasks hmem ih =>
    rw [List.forall_mem_cons] at hlive
    cases htasks with
    | cons hhead htail =>
      cases hhead
      rw [run, if_pos ((hwalk.mem_pending_iff id).2 hmem)]
      apply ih (hwalk.enter id)
      . apply List.rel_append
        . exact Task.follows_ofReferences e (e.references id)
        . exact .cons (.leave id) htail
      . intro task htask
        rw [List.mem_append, List.mem_cons] at htask
        rcases htask with hreference | hleave | htask
        . exact Task.live_of_mem_ofReferences hlive.1 hreference
        . rw [hleave]
          trivial
        . exact hlive.2 task htask
  | case6 walk id tasks hmem ih =>
    rw [List.forall_mem_cons] at hlive
    cases htasks with
    | cons hhead htail =>
      cases hhead
      rw [run, if_neg fun hother => hmem ((hwalk.mem_pending_iff id).1 hother)]
      exact ih hwalk htail hlive.2

end Walk

namespace Resolution

theorem follows_roots :
    List.Forall₂ (Task.Follows e) (roots u functions) (roots v others) := by
  apply List.rel_append
  . exact Task.follows_ofReferences e e.roots
  . rw [e.exported, List.map_map, List.forall₂_map_left_iff, List.forall₂_map_right_iff,
      List.forall₂_same]
    intro id _
    exact .enter id

theorem live_of_mem_roots {task : Task u} (h : task ∈ roots u functions) :
    task.Live functions := by
  rcases mem_roots_iff.1 h with ⟨name, site, hfunction, heq⟩ | ⟨i, hexported, heq⟩
  . rw [heq]
    exact Or.inl hfunction
  . rw [heq]
    exact ⟨i, Or.inl hexported, .refl⟩

theorem resolve_embedding_cases :
    (∃ r, (resolve u functions).result = .ok r
        ∧ (resolve v others).result = .ok ⟨r.order.map e.index, others⟩)
      ∨ ∃ unresolved unresolved', (resolve u functions).result = .error (.unresolved unresolved)
        ∧ (resolve v others).result = .error (.unresolved unresolved')
        ∧ unresolved'.id = s unresolved.id ∧ agree unresolved.site unresolved'.site := by
  have halike := Walk.endAlike_run (Walk.follows_start e) (follows_roots e)
    fun _ => live_of_mem_roots
  unfold resolve
  generalize (Walk.start u).run (roots u functions) = run at halike
  generalize (Walk.start v).run (roots v others) = other at halike
  obtain ⟨walk, outcome⟩ := run
  obtain ⟨walk', outcome'⟩ := other
  obtain ⟨hwalk, houtcome⟩ := halike
  cases houtcome with
  | none =>
    refine Or.inl ⟨_, rfl, ?_⟩
    show Except.ok (⟨walk'.order, others⟩ : Resolution v) = _
    rw [hwalk.order]
  | some h => exact Or.inr ⟨_, _, rfl, rfl, h.1, h.2⟩

end Resolution

end Embedding

end Bindings
