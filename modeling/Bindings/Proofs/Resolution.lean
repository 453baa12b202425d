import Bindings.Proofs.Walk.Coverage

/-!
This module contains what resolving means: it succeeds exactly on a closed reference graph, it
yields the reachable declarations without repetition, dependencies first, and it fails at a mention
of an undeclared identifier.
-/

namespace Bindings.Resolution

open ReferenceGraph Relation

variable {u : Universe} {functions : List FunctionDecl}

theorem mem_roots_iff {task : Task u} :
    task ∈ roots u functions
      ↔ (∃ name site, (∃ function ∈ functions, function.MentionsAt name site)
          ∧ task = .mention name site)
        ∨ ∃ i, (u.get i).exported = true ∧ task = .enter i := by
  rw [roots, List.mem_append, Task.mem_ofReferences_iff, List.mem_map]
  simp only [FunctionDecl.mem_mentions_references_iff, List.mem_filter, u.mem_ids, true_and]
  constructor
  . intro h
    cases h with
    | inl h => exact Or.inl h
    | inr h =>
      obtain ⟨i, hexported, heq⟩ := h
      exact Or.inr ⟨i, hexported, heq.symm⟩
  . intro h
    cases h with
    | inl h => exact Or.inl h
    | inr h =>
      obtain ⟨i, hexported, heq⟩ := h
      exact Or.inr ⟨i, hexported, heq.symm⟩

theorem isVisit_of_mem_roots {task : Task u} (h : task ∈ roots u functions) : task.isVisit := by
  rcases mem_roots_iff.1 h with ⟨_, _, _, heq⟩ | ⟨_, _, heq⟩
  . rw [heq]
    rfl
  . rw [heq]
    rfl

theorem mention_mem_roots_iff {name : String} {site : Site} :
    .mention name site ∈ roots u functions
      ↔ ∃ function ∈ functions, function.MentionsAt name site := by
  rw [mem_roots_iff]
  constructor
  . intro h
    rcases h with ⟨_, _, hfunction, heq⟩ | ⟨_, _, heq⟩
    . cases heq
      exact hfunction
    . cases heq
  . intro h
    exact Or.inl ⟨name, site, h, rfl⟩

theorem isRoot_iff_target {i : u.Id} :
    IsRoot u.decls functions i ↔ ∃ task ∈ roots u functions, task.target? = some i := by
  constructor
  . intro h
    cases h with
    | inl hexported => exact ⟨.enter i, mem_roots_iff.2 (Or.inr ⟨i, hexported, rfl⟩), rfl⟩
    | inr hfunction =>
      obtain ⟨function, hmem, site, hmention⟩ := hfunction
      refine ⟨.mention (u.get i).id site, ?_, u.lookup_id_get i⟩
      exact mention_mem_roots_iff.2 ⟨function, hmem, hmention⟩
  . rintro ⟨task, hmem, htarget⟩
    rcases mem_roots_iff.1 hmem with ⟨name, site, hfunction, heq⟩ | ⟨j, hexported, heq⟩
    . subst heq
      have hname : (u.get i).id = name := Universe.lookup_eq_some_iff.1 htarget
      subst hname
      obtain ⟨function, hmem, hmention⟩ := hfunction
      exact Or.inr ⟨function, hmem, site, hmention⟩
    . subst heq
      cases htarget
      exact Or.inl hexported

theorem reaches_roots_iff {i : u.Id} :
    Task.Reaches (roots u functions) i ↔ Reachable u.decls functions i := by
  constructor
  . rintro ⟨task, hmem, j, htarget, hpath⟩
    exact ⟨j, isRoot_iff_target.2 ⟨task, hmem, htarget⟩, hpath⟩
  . rintro ⟨j, hroot, hpath⟩
    obtain ⟨task, hmem, htarget⟩ := isRoot_iff_target.1 hroot
    exact ⟨task, hmem, j, htarget, hpath⟩

theorem resolve_cases (u : Universe) (functions : List FunctionDecl) :
    (∃ walk, (Walk.start u).Visits (roots u functions) walk none
        ∧ (resolve u functions).result = .ok ⟨walk.order, functions⟩)
      ∨ ∃ walk unresolved, (Walk.start u).Visits (roots u functions) walk (some unresolved)
        ∧ (resolve u functions).result = .error (.unresolved unresolved) := by
  have hvisits := Walk.visits_run (Walk.start u) (roots u functions) fun _ => isVisit_of_mem_roots
  unfold resolve
  generalize (Walk.start u).run (roots u functions) = res at hvisits
  rcases res with ⟨walk, _ | unresolved⟩
  . exact Or.inl ⟨walk, hvisits, rfl⟩
  . exact Or.inr ⟨walk, unresolved, hvisits, rfl⟩

theorem covers_of_resolve {r : Resolution u} (h : (resolve u functions).result = .ok r) :
    r.functions = functions
      ∧ ∃ walk, (Walk.start u).Visits (roots u functions) walk none
        ∧ (Walk.start u).Covers (roots u functions) walk r.order
        ∧ ∀ i, i ∈ walk.entered ↔ i ∈ r.order := by
  rcases resolve_cases u functions with ⟨walk, hvisits, hok⟩ | ⟨_, _, _, herror⟩
  . rw [h] at hok
    cases hok
    obtain ⟨left, hcovers⟩ := hvisits.exists_covers (Walk.coherent_start u)
    have horder : walk.order = left := hcovers.order
    rw [horder]
    exact ⟨rfl, walk, hvisits, hcovers, hcovers.mem_entered_iff_mem_left⟩
  . rw [h] at herror
    cases herror

theorem functions_of_resolve {r : Resolution u} (h : (resolve u functions).result = .ok r) :
    r.functions = functions :=
  (covers_of_resolve h).1

theorem nodup_order_of_resolve {r : Resolution u} (h : (resolve u functions).result = .ok r) :
    r.order.Nodup := by
  obtain ⟨_, walk, _, hcovers, _⟩ := covers_of_resolve h
  exact hcovers.nodup

theorem mem_order_of_mentionedAt {r : Resolution u} {name : String} {site : Site}
    (h : (resolve u functions).result = .ok r)
    (hmention : (∃ function ∈ functions, function.MentionsAt name site)
      ∨ ∃ i ∈ r.order, (u.get i).MentionsAt i name site) :
    ∃ i ∈ r.order, (u.get i).id = name := by
  obtain ⟨_, walk, _, hcovers, hentered⟩ := covers_of_resolve h
  cases hmention with
  | inl hfunction =>
    obtain ⟨i, hi, htarget⟩ := hcovers.targets _ (mention_mem_roots_iff.2 hfunction)
    exact ⟨i, (hentered i).1 hi, Universe.lookup_eq_some_iff.1 htarget⟩
  | inr hdecl =>
    obtain ⟨i, hi, hmention⟩ := hdecl
    have htask : (.mention name site : Task u) ∈ Task.ofReferences (u.references i) :=
      Task.mention_mem_ofReferences_iff.2 (TypeDecl.mem_mentions_references_iff.2 hmention)
    obtain ⟨j, hj, htarget⟩ := hcovers.closed i hi _ htask
    exact ⟨j, (hentered j).1 hj, Universe.lookup_eq_some_iff.1 htarget⟩

theorem mem_order_iff {r : Resolution u} (h : (resolve u functions).result = .ok r) (i : u.Id) :
    i ∈ r.order ↔ Reachable u.decls functions i := by
  obtain ⟨_, walk, hvisits, hcovers, _⟩ := covers_of_resolve h
  rw [hcovers.mem_left_iff_reaches hvisits, reaches_roots_iff]

theorem closed_of_resolve {r : Resolution u} (h : (resolve u functions).result = .ok r) :
    Closed u.decls functions := by
  intro name site hmention
  have hresolved : (∃ function ∈ functions, function.MentionsAt name site)
      ∨ ∃ i ∈ r.order, (u.get i).MentionsAt i name site := by
    apply hmention.imp_right
    rintro ⟨i, hreachable, hmention⟩
    exact ⟨i, (mem_order_iff h i).2 hreachable, hmention⟩
  obtain ⟨i, _, hid⟩ := mem_order_of_mentionedAt h hresolved
  exact ⟨i, hid⟩

theorem mentionedAt_of_resolve_error {fault : Fault}
    (h : (resolve u functions).result = .error fault) :
    ∃ unresolved, fault = .unresolved unresolved ∧ ¬ Declared u.decls unresolved.id
      ∧ MentionedAt u.decls functions unresolved.id unresolved.site := by
  rcases resolve_cases u functions with ⟨_, _, hok⟩ | ⟨walk, unresolved, hvisits, herror⟩
  . rw [h] at hok
    cases hok
  . rw [h] at herror
    cases herror
    obtain ⟨hlookup, hmention⟩ := hvisits.undeclared_of_fails
    refine ⟨unresolved, rfl, ?_, ?_⟩
    . rintro ⟨i, hid⟩
      exact Universe.lookup_eq_none_iff.1 hlookup i hid
    . cases hmention with
      | inl hroot => exact Or.inl (mention_mem_roots_iff.1 hroot)
      | inr hdecl =>
        obtain ⟨i, hentered, hmention⟩ := hdecl
        cases hvisits.reaches_of_mem_entered i hentered with
        | inl hstart => cases hstart
        | inr hreaches =>
          refine Or.inr ⟨i, reaches_roots_iff.1 hreaches, ?_⟩
          exact TypeDecl.mem_mentions_references_iff.1 hmention

theorem exists_resolve_eq_ok_iff :
    (∃ r, (resolve u functions).result = .ok r) ↔ Closed u.decls functions := by
  constructor
  . rintro ⟨r, h⟩
    exact closed_of_resolve h
  . intro hclosed
    cases h : (resolve u functions).result with
    | ok r => exact ⟨r, rfl⟩
    | error fault =>
      obtain ⟨unresolved, _, hundeclared, hmention⟩ := mentionedAt_of_resolve_error h
      exact absurd (hclosed _ _ hmention) hundeclared

theorem sublist_or_cycle_of_resolve {r : Resolution u} {i j : u.Id}
    (h : (resolve u functions).result = .ok r) (hi : i ∈ r.order) (hij : RefersTo u.decls i j) :
    [j, i].Sublist r.order ∨ ReflTransGen (RefersTo u.decls) j i := by
  obtain ⟨_, walk, _, hcovers, _⟩ := covers_of_resolve h
  rcases hcovers.sorted i hi j hij with hstart | hbefore | hcycle
  . cases hstart
  . exact Or.inl hbefore
  . exact Or.inr hcycle

theorem idxOf_lt_of_sublist {order : List u.Id} {i j : u.Id} (hnodup : order.Nodup)
    (h : [j, i].Sublist order) : order.idxOf j < order.idxOf i := by
  induction order with
  | nil => cases h
  | cons k order ih =>
    rw [List.nodup_cons] at hnodup
    cases h with
    | cons _ h =>
      have hj : k ≠ j := fun heq => hnodup.1 (heq ▸ h.subset List.mem_cons_self)
      have hmem : i ∈ order := h.subset (List.mem_cons_of_mem _ List.mem_cons_self)
      have hi : k ≠ i := fun heq => hnodup.1 (heq ▸ hmem)
      rw [List.idxOf_cons_ne _ hj, List.idxOf_cons_ne _ hi]
      exact Nat.succ_lt_succ (ih hnodup.2 h)
    | cons_cons _ h =>
      have hi : j ≠ i := fun heq => hnodup.1 (heq ▸ List.singleton_sublist.1 h)
      rw [List.idxOf_cons_self, List.idxOf_cons_ne _ hi]
      exact Nat.succ_pos _

/--
Resolving succeeds exactly when the reference graph is closed. It then yields the reachable
declarations, each once. Otherwise its fault is a mention of an undeclared identifier, at a site of
a function or of a reachable declaration that makes it.
-/
theorem resolve_result_spec (u : Universe) (functions : List FunctionDecl) :
    ((∃ r, (resolve u functions).result = .ok r) ↔ Closed u.decls functions)
      ∧ (∀ r, (resolve u functions).result = .ok r →
          r.functions = functions ∧ r.order.Nodup
            ∧ ∀ i, i ∈ r.order ↔ Reachable u.decls functions i)
      ∧ ∀ fault, (resolve u functions).result = .error fault →
          ∃ unresolved, fault = .unresolved unresolved
            ∧ ¬ Declared u.decls unresolved.id
            ∧ MentionedAt u.decls functions unresolved.id unresolved.site := by
  refine ⟨exists_resolve_eq_ok_iff, ?_, ?_⟩
  . intro r h
    exact ⟨functions_of_resolve h, nodup_order_of_resolve h, mem_order_iff h⟩
  . intro fault h
    exact mentionedAt_of_resolve_error h

def leftRight : Universe where
  decls :=
    [{ id := "Left", body := .struct [{ name := "right", type := .option (.named "Right") }] },
      { id := "Right", body := .struct [{ name := "left", type := .vector (.named "Left") }] }]
  nodup_ids := by decide

def takeLeft : FunctionDecl where
  name := "walk"
  params := [{ name := "left", type := .named "Left" }]

def makePoint : FunctionDecl where
  name := "make"
  result := some (.named "Point")

theorem resolve_leftRight :
    (∀ i, i ∈ [(1 : Fin 2), 0] ↔ Reachable leftRight.decls [takeLeft] i)
      ∧ ¬ Closed leftRight.decls [takeLeft, makePoint]
      ∧ MentionedAt leftRight.decls [takeLeft, makePoint] "Point" (.result "make") := by
  have hok : (resolve leftRight [takeLeft]).result
      = .ok ⟨[(1 : Fin 2), (0 : Fin 2)], [takeLeft]⟩ := by
    cbv
  have herror : (resolve leftRight [takeLeft, makePoint]).result
      = .error (.unresolved ⟨"Point", .result "make"⟩) := by
    cbv
  have hspec := resolve_result_spec leftRight [takeLeft, makePoint]
  refine ⟨((resolve_result_spec leftRight [takeLeft]).2.1 _ hok).2.2, ?_, ?_⟩
  . intro hclosed
    obtain ⟨r, hr⟩ := hspec.1.2 hclosed
    rw [herror] at hr
    cases hr
  . obtain ⟨unresolved, heq, _, hmention⟩ := hspec.2.2 _ herror
    cases heq
    exact hmention

/--
A declaration stands behind every declaration that it refers to, unless that one leads back to it.
Without cycles the order is topological.
-/
theorem order_dependencies_first {r : Resolution u} (h : (resolve u functions).result = .ok r) :
    (∀ i ∈ r.order, ∀ j ∈ r.order, RefersTo u.decls i j →
        r.order.idxOf j < r.order.idxOf i ∨ ReflTransGen (RefersTo u.decls) j i)
      ∧ ((∀ i ∈ r.order, ¬ TransGen (RefersTo u.decls) i i) →
          ∀ i ∈ r.order, ∀ j ∈ r.order, RefersTo u.decls i j →
            r.order.idxOf j < r.order.idxOf i) := by
  have hsorted : ∀ i ∈ r.order, ∀ j ∈ r.order, RefersTo u.decls i j →
      r.order.idxOf j < r.order.idxOf i ∨ ReflTransGen (RefersTo u.decls) j i := by
    intro i hi j _ hij
    cases sublist_or_cycle_of_resolve h hi hij with
    | inl hbefore => exact Or.inl (idxOf_lt_of_sublist (nodup_order_of_resolve h) hbefore)
    | inr hcycle => exact Or.inr hcycle
  refine ⟨hsorted, ?_⟩
  intro hacyclic i hi j hj hij
  cases hsorted i hi j hj hij with
  | inl hlt => exact hlt
  | inr hcycle => exact absurd (TransGen.head' hij hcycle) (hacyclic i hi)

def segment : Universe where
  decls :=
    [{ id := "Segment"
       body := .struct
        [{ name := "names", type := .map (.scalar .string) (.named "Label") },
          { name := "ends", type := .tuple [.named "Point", .named "Point"] }]
       exported := true },
      { id := "Point", body := .struct [{ name := "label", type := .option (.named "Label") }] },
      { id := "Label", body := .typeAlias (.scalar .string) }]
  nodup_ids := by decide

theorem order_segment :
    (∀ i ∈ [(2 : Fin 3), 1, 0], ∀ j ∈ [(2 : Fin 3), 1, 0], RefersTo segment.decls i j →
        [(2 : Fin 3), 1, 0].idxOf j < [(2 : Fin 3), 1, 0].idxOf i)
      ∧ ReflTransGen (RefersTo leftRight.decls) (0 : Fin 2) (1 : Fin 2) := by
  have hsegment : (resolve segment []).result
      = .ok ⟨[(2 : Fin 3), (1 : Fin 3), (0 : Fin 3)], []⟩ := by
    cbv
  have hleft : (resolve leftRight [takeLeft]).result
      = .ok ⟨[(1 : Fin 2), (0 : Fin 2)], [takeLeft]⟩ := by
    cbv
  constructor
  . have hlt : ∀ i j : Fin segment.decls.length, RefersTo segment.decls i j → i < j := by decide
    have hpath : ∀ i j : Fin segment.decls.length,
        TransGen (RefersTo segment.decls) i j → i < j := by
      intro i j hpath
      induction hpath with
      | single hij => exact hlt _ _ hij
      | tail _ hjk ih => exact Nat.lt_trans ih (hlt _ _ hjk)
    apply (order_dependencies_first hsegment).2
    intro i _ hcycle
    exact Nat.lt_irrefl _ (hpath i i hcycle)
  . have hrefers : RefersTo leftRight.decls (1 : Fin 2) (0 : Fin 2) :=
      (refersTo_iff leftRight.decls).2 (by decide)
    have hbefore := (order_dependencies_first hleft).1 (1 : Fin 2) List.mem_cons_self (0 : Fin 2)
      (List.mem_cons_of_mem _ List.mem_cons_self) hrefers
    exact hbefore.resolve_left (by decide)

end Bindings.Resolution
