import Bindings.Proofs.Resolution

/-!
This module contains the order of a resolution root by root: wherever the list of roots is cut, what
the roots before the cut reach stands before everything else.
-/

namespace Bindings

open ReferenceGraph Relation

inductive Root (u : Universe)
  | reference (made : Reference)
  | exported (id : u.Id)

namespace Root

variable {u : Universe} {functions : List FunctionDecl}

def all (u : Universe) (functions : List FunctionDecl) : List (Root u) :=
  (functions.flatMap FunctionDecl.references).map .reference
    ++ (u.ids.filter fun id => (u.get id).exported).map .exported

def tasks : Root u → List (Task u)
  | reference made => Task.ofReferences [made]
  | exported id => [.enter id]

def Names (root : Root u) (i : u.Id) : Prop :=
  match root with
  | reference (type, _) => type.Mentions (u.get i).id
  | exported id => id = i

def Reach (roots : List (Root u)) (i : u.Id) : Prop :=
  ∃ root ∈ roots, ∃ j, root.Names j ∧ ReflTransGen (RefersTo u.decls) j i

theorem flatMap_tasks_all : (all u functions).flatMap tasks = Resolution.roots u functions := by
  have hreferences : ∀ references : List Reference,
      references.flatMap (fun made => tasks (.reference made : Root u))
        = Task.ofReferences references := by
    intro references
    induction references with
    | nil => rfl
    | cons made references ih =>
      rw [List.flatMap_cons, ih]
      simp [tasks, Task.ofReferences, mentions]
  have hexported : ∀ ids : List u.Id,
      ids.flatMap (fun id => tasks (.exported id : Root u)) = ids.map .enter := by
    intro ids
    rw [List.map_eq_flatMap]
    rfl
  unfold all Resolution.roots
  rw [List.flatMap_append, List.flatMap_map, List.flatMap_map, hreferences, hexported]

theorem names_iff_target {root : Root u} {i : u.Id} :
    root.Names i ↔ ∃ task ∈ root.tasks, task.target? = some i := by
  cases root with
  | reference made =>
    obtain ⟨type, site⟩ := made
    constructor
    . intro hmention
      refine ⟨.mention (u.get i).id site, ?_, u.lookup_id_get i⟩
      exact Task.mention_mem_ofReferences_iff.2
        (mem_mentions_iff.2 ⟨type, List.mem_cons_self, hmention⟩)
    . rintro ⟨task, hmem, htarget⟩
      obtain ⟨name, _, hmention, heq⟩ := Task.mem_ofReferences_iff.1 hmem
      subst heq
      obtain ⟨other, hother, hname⟩ := mem_mentions_iff.1 hmention
      cases List.mem_singleton.1 hother
      have hid : (u.get i).id = name := Universe.lookup_eq_some_iff.1 htarget
      rw [← hid] at hname
      exact hname
  | exported id => simp [Names, tasks, Task.target?]

theorem reach_iff {roots : List (Root u)} {i : u.Id} :
    Reach roots i ↔ Task.Reaches (roots.flatMap tasks) i := by
  constructor
  . rintro ⟨root, hroot, j, hnames, hpath⟩
    obtain ⟨task, hmem, htarget⟩ := names_iff_target.1 hnames
    exact ⟨task, List.mem_flatMap.2 ⟨root, hroot, hmem⟩, j, htarget, hpath⟩
  . rintro ⟨task, hmem, j, htarget, hpath⟩
    obtain ⟨root, hroot, htask⟩ := List.mem_flatMap.1 hmem
    exact ⟨root, hroot, j, names_iff_target.2 ⟨task, htask, htarget⟩, hpath⟩

end Root

namespace Resolution

variable {u : Universe} {functions : List FunctionDecl}

theorem exists_visits_of_resolve {r : Resolution u} {tasks others : List (Task u)}
    (h : (resolve u functions).result = .ok r) (hroots : roots u functions = tasks ++ others) :
    ∃ inner walk, (Walk.start u).Visits tasks inner none ∧ inner.Visits others walk none
      ∧ walk.order = r.order := by
  have hvisit : ∀ task ∈ tasks ++ others, task.isVisit := by
    rw [← hroots]
    exact fun _ => isVisit_of_mem_roots
  have hfirst := Walk.visits_run (Walk.start u) tasks fun task hmem =>
    hvisit task (List.mem_append_left _ hmem)
  unfold resolve at h
  rw [hroots, Walk.run_append] at h
  generalize (Walk.start u).run tasks = first at h hfirst
  obtain ⟨inner, failure⟩ := first
  cases failure with
  | some unresolved => cases h
  | none =>
    have hsecond := Walk.visits_run inner others fun task hmem =>
      hvisit task (List.mem_append_right _ hmem)
    dsimp only at h
    generalize inner.run others = second at h hsecond
    obtain ⟨walk, failure⟩ := second
    cases failure with
    | some unresolved => cases h
    | none =>
      cases h
      exact ⟨inner, walk, hfirst, hsecond, rfl⟩

theorem exists_prefix_of_resolve {r : Resolution u} {done rest : List (Root u)}
    (h : (resolve u functions).result = .ok r) (hroots : Root.all u functions = done ++ rest) :
    ∃ left, left <+: r.order ∧ ∀ i, i ∈ left ↔ Root.Reach done i := by
  have htasks : roots u functions = done.flatMap Root.tasks ++ rest.flatMap Root.tasks := by
    rw [← Root.flatMap_tasks_all, hroots, List.flatMap_append]
  obtain ⟨inner, walk, hfirst, hsecond, horder⟩ := exists_visits_of_resolve h htasks
  have hstart := Walk.coherent_start u
  obtain ⟨left, hcovers⟩ := hfirst.exists_covers hstart
  obtain ⟨right, hcovers'⟩ := hsecond.exists_covers (hstart.visits hfirst)
  refine ⟨left, ⟨right, ?_⟩, ?_⟩
  . rw [← horder, hcovers'.order, hcovers.order]
    rfl
  . intro i
    rw [Root.reach_iff, hcovers.mem_left_iff_reaches hfirst]

theorem idxOf_lt_of_prefix {order left : List u.Id} {i j : u.Id} (h : left <+: order)
    (hi : i ∈ left) (hj : j ∉ left) : order.idxOf i < order.idxOf j := by
  obtain ⟨right, rfl⟩ := h
  rw [List.idxOf_append_of_mem hi, List.idxOf_append_of_notMem hj]
  exact Nat.lt_of_lt_of_le (List.idxOf_lt_length_of_mem hi) (Nat.le_add_right _ _)

/--
What the first roots reach is a prefix of the order, however many roots these are. So it stands
before everything that they do not reach.
-/
theorem order_by_roots {r : Resolution u} (h : (resolve u functions).result = .ok r) (k : Nat) :
    (∃ left, left <+: r.order
        ∧ ∀ i, i ∈ left ↔ Root.Reach ((Root.all u functions).take k) i)
      ∧ ∀ i ∈ r.order, ∀ j ∈ r.order, Root.Reach ((Root.all u functions).take k) i →
          ¬ Root.Reach ((Root.all u functions).take k) j → r.order.idxOf i < r.order.idxOf j := by
  have hroots : Root.all u functions
      = (Root.all u functions).take k ++ (Root.all u functions).drop k := by
    rw [List.take_append_drop]
  obtain ⟨left, hprefix, hmem⟩ := exists_prefix_of_resolve h hroots
  refine ⟨⟨left, hprefix, hmem⟩, ?_⟩
  intro i _ j _ hi hj
  exact idxOf_lt_of_prefix hprefix ((hmem i).2 hi) fun hleft => hj ((hmem j).1 hleft)

def chart : Universe where
  decls :=
    [{ id := "Node", body := .struct [{ name := "next", type := .option (.named "Edge") }] },
      { id := "Edge"
        body := .struct
          [{ name := "to", type := .named "Node" }, { name := "label", type := .named "Label" }] },
      { id := "Label", body := .typeAlias (.scalar .string) },
      { id := "Chart"
        body := .struct
          [{ name := "title", type := .named "Title" },
            { name := "nodes", type := .vector (.named "Node") }]
        exported := true },
      { id := "Title", body := .typeAlias (.named "Label") }]
  nodup_ids := by decide

def follow : FunctionDecl where
  name := "follow"
  params := [{ name := "node", type := .named "Node" }]
  result := some (.map (.scalar .string) (.named "Title"))

theorem order_by_roots_chart :
    (resolve chart [follow]).result
        = .ok ⟨[(2 : Fin 5), (1 : Fin 5), (0 : Fin 5), (4 : Fin 5), (3 : Fin 5)], [follow]⟩
      ∧ Root.Reach ((Root.all chart [follow]).take 1) (0 : Fin 5)
      ∧ ¬ Root.Reach ((Root.all chart [follow]).take 1) (4 : Fin 5)
      ∧ [(2 : Fin 5), 1, 0, 4, 3].idxOf 0 < [(2 : Fin 5), 1, 0, 4, 3].idxOf 4 := by
  have hok : (resolve chart [follow]).result
      = .ok ⟨[(2 : Fin 5), (1 : Fin 5), (0 : Fin 5), (4 : Fin 5), (3 : Fin 5)], [follow]⟩ := by
    cbv
  have hfirst : (Root.all chart [follow]).take 1
      = [.reference (.named "Node", .param "follow" "node" 0)] := rfl
  have hnode : Root.Reach ((Root.all chart [follow]).take 1) (0 : Fin 5) := by
    rw [hfirst]
    exact ⟨_, List.mem_cons_self, (0 : Fin 5), TypeRef.Mentions.named, .refl⟩
  -- The cycle of nodes and edges leads to labels, but not to titles.
  have htitle : ¬ Root.Reach ((Root.all chart [follow]).take 1) (4 : Fin 5) := by
    have hstart : ∀ i : Fin chart.decls.length,
        (chart.get i).id ∈ (TypeRef.named "Node").names → i.val < 3 := by decide
    have hstep : ∀ i j : Fin chart.decls.length,
        RefersTo chart.decls i j → i.val < 3 → j.val < 3 := by decide
    have hpath : ∀ i j : Fin chart.decls.length,
        ReflTransGen (RefersTo chart.decls) i j → i.val < 3 → j.val < 3 := by
      intro i j hpath hi
      induction hpath with
      | refl => exact hi
      | tail _ hjk ih => exact hstep _ _ hjk ih
    rw [hfirst]
    rintro ⟨root, hroot, i, hnames, hreach⟩
    rw [List.mem_singleton] at hroot
    subst hroot
    have hend := hpath _ _ hreach (hstart i ((TypeRef.mem_names_iff _).2 hnames))
    exact absurd hend (by decide)
  have hmem : (0 : Fin 5) ∈ [(2 : Fin 5), 1, 0, 4, 3]
      ∧ (4 : Fin 5) ∈ [(2 : Fin 5), 1, 0, 4, 3] := by
    decide
  exact ⟨hok, hnode, htitle, (order_by_roots hok 1).2 _ hmem.1 _ hmem.2 hnode htitle⟩

end Resolution

end Bindings
