import Bindings.Proofs.Artifact.ObjectTypes

/-!
This module contains what the text of a type tells about the type. Its brackets are read back one
constructor at a time: types that are printed alike are built alike and have the same texts at their
leaves.
-/

namespace Bindings

/--
The constructors of a type in their places, with the text that is printed at each leaf.
-/
inductive Shape
  | leaf (text : String)
  | vector (element : Shape)
  | option (inner : Shape)
  | tuple (elements : List Shape)
  | map (key value : Shape)

inductive Form
  | leaf
  | vector
  | option
  | tuple
  | map

namespace TypeRef

def shape (nameOf : String → String) (o : Options) : TypeRef → Shape
  | scalar kind => .leaf (kind.text o.largeIntegers)
  | named id => .leaf (nameOf id)
  | vector element => .vector (element.shape nameOf o)
  | option inner => .option (inner.shape nameOf o)
  | tuple elements => .tuple (go elements)
  | map key value => .map (key.shape nameOf o) (value.shape nameOf o)
where
  go : List TypeRef → List Shape
    | [] => []
    | element :: elements => element.shape nameOf o :: go elements

def form : TypeRef → Form
  | scalar _ => .leaf
  | named _ => .leaf
  | vector _ => .vector
  | option _ => .option
  | tuple _ => .tuple
  | map _ _ => .map

theorem shape.go_eq_map (nameOf : String → String) (o : Options) (elements : List TypeRef) :
    shape.go nameOf o elements = elements.map (shape nameOf o) := by
  induction elements with
  | nil => rfl
  | cons element elements ih => rw [go, ih, List.map_cons]

end TypeRef

namespace Text

def commas : List (List Tree) → List Tree
  | [] => []
  | [part] => part
  | part :: parts => part ++ .sign ',' :: .sign ' ' :: commas parts

theorem spelled_injective {text other : String} (h : spelled text = spelled other) :
    text = other := by
  have hsigns : Function.Injective Tree.sign := fun c d heq => by injection heq
  exact String.toList_injective (List.map_injective_iff.2 hsigns h)

theorem append_cons_inj {before before' after after' : List α} {a : α} (hbefore : a ∉ before)
    (hbefore' : a ∉ before') (h : before ++ a :: after = before' ++ a :: after') :
    before = before' ∧ after = after' := by
  induction before generalizing before' with
  | nil =>
    cases before' with
    | nil => simpa using h
    | cons b before' =>
      injection h with hhead
      exact absurd List.mem_cons_self (hhead ▸ hbefore')
  | cons b before ih =>
    cases before' with
    | nil =>
      injection h with hhead
      exact absurd List.mem_cons_self (hhead ▸ hbefore)
    | cons c before' =>
      injection h with hhead htail
      rw [List.mem_cons, not_or] at hbefore hbefore'
      obtain ⟨heq, hafter⟩ := ih hbefore.2 hbefore'.2 htail
      exact ⟨by rw [hhead, heq], hafter⟩

theorem commas_singleton (part : List Tree) : commas [part] = part := rfl

theorem commas_cons_cons (part next : List Tree) (parts : List (List Tree)) :
    commas (part :: next :: parts) = part ++ .sign ',' :: .sign ' ' :: commas (next :: parts) := rfl

theorem comma_mem_commas (part next : List Tree) (parts : List (List Tree)) :
    .sign ',' ∈ commas (part :: next :: parts) := by
  rw [commas_cons_cons]
  exact List.mem_append_right _ List.mem_cons_self

theorem commas_ne_nil {part : List Tree} (h : part ≠ []) (parts : List (List Tree)) :
    commas (part :: parts) ≠ [] := by
  cases parts with
  | nil => exact h
  | cons next parts => exact List.ne_nil_of_mem (comma_mem_commas part next parts)

theorem commas_inj {parts others : List (List Tree)}
    (hparts : ∀ part ∈ parts, part ≠ [] ∧ .sign ',' ∉ part)
    (hothers : ∀ part ∈ others, part ≠ [] ∧ .sign ',' ∉ part) (h : commas parts = commas others) :
    parts = others := by
  induction parts generalizing others with
  | nil =>
    cases others with
    | nil => rfl
    | cons other others => exact absurd h.symm (commas_ne_nil (hothers _ List.mem_cons_self).1 _)
  | cons part parts ih =>
    rw [List.forall_mem_cons] at hparts
    cases others with
    | nil => exact absurd h (commas_ne_nil hparts.1.1 parts)
    | cons other others =>
      rw [List.forall_mem_cons] at hothers
      -- A single part has no comma outside of all groups, several parts have one.
      cases parts with
      | nil =>
        cases others with
        | nil => exact congrArg (fun part => [part]) h
        | cons next others =>
          have hcomma := comma_mem_commas other next others
          rw [← h, commas_singleton] at hcomma
          exact absurd hcomma hparts.1.2
      | cons next parts =>
        cases others with
        | nil =>
          have hcomma := comma_mem_commas part next parts
          rw [h, commas_singleton] at hcomma
          exact absurd hcomma hothers.1.2
        | cons next' others =>
          rw [commas_cons_cons, commas_cons_cons] at h
          obtain ⟨hpart, hrest⟩ := append_cons_inj hparts.1.2 hothers.1.2 h
          injection hrest with _ hrest
          rw [hpart, ih hparts.2 hothers.2 hrest]

theorem Reads.commas {text : α → String} {trees : α → List Tree} {elements : List α}
    (h : ∀ element ∈ elements, Reads (text element) (trees element)) :
    Reads (joinWith ", " (elements.map text)) (commas (elements.map trees)) := by
  induction elements with
  | nil => exact Reads.signs rfl
  | cons element elements ih =>
    rw [List.forall_mem_cons] at h
    cases elements with
    | nil => exact h.1
    | cons next elements =>
      have hcomma : Reads ", " [.sign ',', .sign ' '] := Reads.signs rfl
      have hall := (h.1.append hcomma).append (ih h.2)
      rwa [List.append_assoc] at hall

def formOf (trees : List Tree) : Option Form :=
  match trees.getLast? with
  | some (.sign _) => some (if trees.any (Tree.isMark ['|']) then .option else .leaf)
  | some (.group '[' _) => some (if trees.length = 1 then .tuple else .vector)
  | some (.group '<' _) => some .map
  | _ => none

end Text

namespace Artifact

open Text

variable {nameOf : String → String} {o : Options}

def typeTrees (nameOf : String → String) (o : Options) : TypeRef → List Tree
  | .scalar kind => spelled (kind.text o.largeIntegers)
  | .named id => spelled (nameOf id)
  | .vector element =>
    (if element.isOption then [.group '(' (typeTrees nameOf o element)]
      else typeTrees nameOf o element) ++ [.group '[' []]
  | .option inner => typeTrees nameOf o inner ++ spelled " | " ++ spelled o.absence.keyword
  | .tuple elements => [.group '[' (commas (go elements))]
  | .map key value =>
    spelled o.mapType.keyword
      ++ [.group '<' (typeTrees nameOf o key ++ .sign ',' :: .sign ' ' :: typeTrees nameOf o value)]
where
  go : List TypeRef → List (List Tree)
    | [] => []
    | element :: elements => typeTrees nameOf o element :: go elements

theorem typeTrees.go_eq_map (nameOf : String → String) (o : Options) (elements : List TypeRef) :
    typeTrees.go nameOf o elements = elements.map (typeTrees nameOf o) := by
  induction elements with
  | nil => rfl
  | cons element elements ih => rw [go, ih, List.map_cons]

theorem reads_identifier {name : String} (h : Identifier.isIdentifier name = true) :
    Reads name (spelled name) :=
  Reads.signs (isInert_of_isIdentifier h)

theorem reads_typeText : (type : TypeRef) → type.NamedBy nameOf →
    Reads (typeText nameOf o type) (typeTrees nameOf o type)
  | .scalar kind, _ => by
    rw [typeText, typeTrees]
    exact reads_identifier (isIdentifier_scalar o.largeIntegers kind)
  | .named id, hnamed => by
    rw [typeText, typeTrees]
    exact reads_identifier (hnamed id .named)
  | .vector element, hnamed => by
    have hone := reads_typeText element fun id hmention => hnamed id (.vector hmention)
    have hempty : Reads "[]" [.group '[' []] := (Reads.signs rfl : Reads "" []).square
    rw [typeText_vector, typeTrees]
    split
    . exact hone.round.append hempty
    . exact hone.append hempty
  | .option inner, hnamed => by
    have hinner := reads_typeText inner fun id hmention => hnamed id (.option hmention)
    rw [typeText, typeTrees]
    exact (hinner.append (Reads.signs rfl)).append
      (reads_identifier (isIdentifier_absence o.absence))
  | .tuple elements, hnamed => by
    rw [typeText, typeText.go_eq_map, typeTrees, typeTrees.go_eq_map]
    apply Reads.square
    apply Reads.commas
    intro element hmem
    exact reads_typeText element fun id hmention => hnamed id (.tuple hmem hmention)
  | .map key value, hnamed => by
    have hkey := reads_typeText key fun id hmention => hnamed id (.mapKey hmention)
    have hvalue := reads_typeText value fun id hmention => hnamed id (.mapValue hmention)
    have hcomma : Reads ", " [.sign ',', .sign ' '] := Reads.signs rfl
    have hpair := (hkey.append hcomma).append hvalue
    rw [List.append_assoc] at hpair
    rw [typeText_map, typeTrees]
    exact (reads_identifier (isIdentifier_mapType o.mapType)).append hpair.angle

theorem marked_typeTrees {type : TypeRef} (hnamed : type.NamedBy nameOf) :
    Marked (typeMarks type) (typeTrees nameOf o type) := by
  obtain ⟨trees, hreads, hmarked, _⟩ := outlined_typeText (o := o) type hnamed
  rwa [hreads.unique (reads_typeText type hnamed)] at hmarked

theorem getLast?_append_spelled {name : String} (h : Identifier.isIdentifier name = true)
    (trees : List Tree) : ∃ c, (trees ++ spelled name).getLast? = some (.sign c) := by
  have hnonempty : name.toList ≠ [] := by
    intro hnil
    simp [Identifier.isIdentifier, hnil] at h
  refine ⟨name.toList.getLast hnonempty, ?_⟩
  rw [List.getLast?_append, spelled, List.getLast?_map,
    List.getLast?_eq_getLast_of_ne_nil hnonempty]
  rfl

theorem formOf_of_sign {trees : List Tree} {c : Char} (h : trees.getLast? = some (.sign c)) :
    formOf trees = some (if trees.any (Tree.isMark ['|']) then .option else .leaf) := by
  rw [formOf, h]

theorem formOf_spelled {name : String} (h : Identifier.isIdentifier name = true) :
    formOf (spelled name) = some .leaf := by
  obtain ⟨c, hc⟩ := getLast?_append_spelled h []
  have hnone : (spelled name).any (Tree.isMark ['|']) = false := by
    rw [List.any_eq_false]
    intro tree hmem
    obtain ⟨c, hc, rfl⟩ := List.mem_map.1 hmem
    have hbar : c ∉ ['|'] := Identifier.not_mem_of_mem h rfl c hc
    rwa [Tree.isMark, List.contains_eq_mem, decide_eq_true_iff]
  rw [List.nil_append] at hc
  rw [formOf_of_sign hc, hnone, if_neg Bool.false_ne_true]

theorem ne_nil_of_formOf {trees : List Tree} {form : Form} (h : formOf trees = some form) :
    trees ≠ [] := by
  intro hnil
  rw [hnil] at h
  cases h

theorem formOf_append_square {trees : List Tree} (h : trees ≠ []) (inner : List Tree) :
    formOf (trees ++ [.group '[' inner]) = some .vector := by
  -- What stands before the brackets keeps them from being a tuple of their own.
  have hlength : (trees ++ [Tree.group '[' inner]).length ≠ 1 := by
    simpa using h
  rw [formOf, List.getLast?_concat]
  exact congrArg some (if_neg hlength)

theorem formOf_typeTrees (o : Options) : (type : TypeRef) → type.NamedBy nameOf →
    formOf (typeTrees nameOf o type) = some type.form
  | .scalar kind, _ => formOf_spelled (isIdentifier_scalar o.largeIntegers kind)
  | .named id, hnamed => formOf_spelled (hnamed id .named)
  | .vector element, hnamed => by
    have hone := formOf_typeTrees o element fun id hmention => hnamed id (.vector hmention)
    rw [typeTrees]
    apply formOf_append_square
    split
    . exact List.cons_ne_nil _ _
    . exact ne_nil_of_formOf hone
  | .option inner, _ => by
    obtain ⟨c, hc⟩ := getLast?_append_spelled (isIdentifier_absence o.absence)
      (typeTrees nameOf o inner ++ spelled " | ")
    rw [typeTrees, formOf_of_sign hc, if_pos]
    . rfl
    . simp [spelled, Tree.isMark]
  | .tuple elements, _ => rfl
  | .map key value, _ => by
    rw [typeTrees, formOf, List.getLast?_concat]
    rfl

theorem form_eq_of_typeTrees_eq {s t : TypeRef} (hs : s.NamedBy nameOf) (ht : t.NamedBy nameOf)
    (h : typeTrees nameOf o s = typeTrees nameOf o t) : s.form = t.form := by
  have hform := formOf_typeTrees o s hs
  rw [h, formOf_typeTrees o t ht] at hform
  exact (Option.some.inj hform).symm

theorem comma_notMem_typeTrees {type : TypeRef} (hnamed : type.NamedBy nameOf) :
    .sign ',' ∉ typeTrees nameOf o type := by
  intro hmem
  have hcomma := typeMarks_subset type (marked_typeTrees hnamed ',' (by decide) hmem)
  revert hcomma
  decide

theorem map_eq_map_of_imp {f : α → β} {g : α → γ} {xs ys : List α}
    (himp : ∀ x ∈ xs, ∀ y ∈ ys, f x = f y → g x = g y) (h : xs.map f = ys.map f) :
    xs.map g = ys.map g := by
  induction xs generalizing ys with
  | nil =>
    rw [List.map_nil, eq_comm, List.map_eq_nil_iff] at h
    rw [h]
  | cons x xs ih =>
    cases ys with
    | nil => cases h
    | cons y ys =>
      rw [List.map_cons, List.map_cons] at h ⊢
      injection h with hhead htail
      have himp' : ∀ x ∈ xs, ∀ y ∈ ys, f x = f y → g x = g y := fun x hx y hy =>
        himp x (List.mem_cons_of_mem _ hx) y (List.mem_cons_of_mem _ hy)
      rw [himp x List.mem_cons_self y List.mem_cons_self hhead, ih himp' htail]

/--
No type is a group between parentheses, so these are there exactly for a type that can be absent.
-/
theorem typeTrees_inj_of_vector {element other : TypeRef} (helement : element.NamedBy nameOf)
    (hother : other.NamedBy nameOf)
    (h : typeTrees nameOf o (.vector element) = typeTrees nameOf o (.vector other)) :
    typeTrees nameOf o element = typeTrees nameOf o other := by
  have hround : ∀ (type : TypeRef) (inner : List Tree), type.NamedBy nameOf →
      typeTrees nameOf o type ≠ [.group '(' inner] := by
    intro type inner hnamed heq
    have hform := formOf_typeTrees o type hnamed
    rw [heq] at hform
    cases hform
  rw [typeTrees, typeTrees] at h
  have hboxed := List.append_cancel_right h
  split at hboxed
  . split at hboxed
    . injection hboxed with hgroup
      injection hgroup
    . exact absurd hboxed.symm (hround other _ hother)
  . split at hboxed
    . exact absurd hboxed (hround element _ helement)
    . exact hboxed

theorem shape_eq_of_typeTrees_eq : (s t : TypeRef) → s.NamedBy nameOf → t.NamedBy nameOf →
    typeTrees nameOf o s = typeTrees nameOf o t → s.shape nameOf o = t.shape nameOf o
  | .scalar kind, t, hs, ht, h => by
    -- In every case the form of the other type is known before it is taken apart.
    have hform := form_eq_of_typeTrees_eq hs ht h
    cases t with
    | scalar _ => exact congrArg Shape.leaf (spelled_injective h)
    | named _ => exact congrArg Shape.leaf (spelled_injective h)
    | _ => cases hform
  | .named id, t, hs, ht, h => by
    have hform := form_eq_of_typeTrees_eq hs ht h
    cases t with
    | scalar _ => exact congrArg Shape.leaf (spelled_injective h)
    | named _ => exact congrArg Shape.leaf (spelled_injective h)
    | _ => cases hform
  | .vector element, t, hs, ht, h => by
    have hform := form_eq_of_typeTrees_eq hs ht h
    cases t with
    | vector other =>
      have helement : element.NamedBy nameOf := fun id hmention => hs id (.vector hmention)
      have hother : other.NamedBy nameOf := fun id hmention => ht id (.vector hmention)
      rw [TypeRef.shape, TypeRef.shape, shape_eq_of_typeTrees_eq element other helement hother
        (typeTrees_inj_of_vector helement hother h)]
    | _ => cases hform
  | .option inner, t, hs, ht, h => by
    have hform := form_eq_of_typeTrees_eq hs ht h
    cases t with
    | option other =>
      have hinner : inner.NamedBy nameOf := fun id hmention => hs id (.option hmention)
      have hother : other.NamedBy nameOf := fun id hmention => ht id (.option hmention)
      rw [typeTrees, typeTrees] at h
      rw [TypeRef.shape, TypeRef.shape, shape_eq_of_typeTrees_eq inner other hinner hother
        (List.append_cancel_right (List.append_cancel_right h))]
    | _ => cases hform
  | .tuple elements, t, hs, ht, h => by
    have hform := form_eq_of_typeTrees_eq hs ht h
    cases t with
    | tuple others =>
      have helements : ∀ element ∈ elements, element.NamedBy nameOf :=
        fun element hmem id hmention => hs id (.tuple hmem hmention)
      have hothers : ∀ other ∈ others, other.NamedBy nameOf :=
        fun other hmem id hmention => ht id (.tuple hmem hmention)
      have hparts : ∀ types : List TypeRef, (∀ type ∈ types, type.NamedBy nameOf) →
          ∀ part ∈ types.map (typeTrees nameOf o), part ≠ [] ∧ .sign ',' ∉ part := by
        intro types htypes part hmem
        obtain ⟨type, htype, rfl⟩ := List.mem_map.1 hmem
        exact ⟨ne_nil_of_formOf (formOf_typeTrees o type (htypes type htype)),
          comma_notMem_typeTrees (htypes type htype)⟩
      rw [typeTrees, typeTrees, typeTrees.go_eq_map, typeTrees.go_eq_map] at h
      injection h with hgroup
      injection hgroup with _ hcommas
      have hmap := commas_inj (hparts elements helements) (hparts others hothers) hcommas
      rw [TypeRef.shape, TypeRef.shape, TypeRef.shape.go_eq_map, TypeRef.shape.go_eq_map,
        map_eq_map_of_imp _ hmap]
      intro element helement other hother
      exact shape_eq_of_typeTrees_eq element other (helements element helement)
        (hothers other hother)
    | _ => cases hform
  | .map key value, t, hs, ht, h => by
    have hform := form_eq_of_typeTrees_eq hs ht h
    cases t with
    | map key' value' =>
      have hkey : key.NamedBy nameOf := fun id hmention => hs id (.mapKey hmention)
      have hkey' : key'.NamedBy nameOf := fun id hmention => ht id (.mapKey hmention)
      have hvalue : value.NamedBy nameOf := fun id hmention => hs id (.mapValue hmention)
      have hvalue' : value'.NamedBy nameOf := fun id hmention => ht id (.mapValue hmention)
      rw [typeTrees, typeTrees] at h
      injection List.append_cancel_left h with hgroup
      injection hgroup with _ hpair
      obtain ⟨hkeys, hrest⟩ := append_cons_inj (comma_notMem_typeTrees hkey)
        (comma_notMem_typeTrees hkey') hpair
      injection hrest with _ hvalues
      rw [TypeRef.shape, TypeRef.shape, shape_eq_of_typeTrees_eq key key' hkey hkey' hkeys,
        shape_eq_of_typeTrees_eq value value' hvalue hvalue' hvalues]
    | _ => cases hform

theorem namedBy_of_declared {u : Universe}
    (hnames : ∀ i, Identifier.Declarable (u.get i).declaredName) {type : TypeRef}
    (h : ∀ id, type.Mentions id → ∃ i, (u.get i).id = id) :
    type.NamedBy u.nameOf := by
  intro id hmention
  obtain ⟨i, rfl⟩ := h id hmention
  rw [Universe.nameOf_id_get]
  exact (hnames i).isIdentifier

/--
The text of a type is not ambiguous: types that are printed alike have the same constructors in the
same places and the same texts at their leaves.
-/
theorem shape_eq_of_typeText_eq {u : Universe}
    (hnames : ∀ i, Identifier.Declarable (u.get i).declaredName) (o : Options) {s t : TypeRef}
    (hs : ∀ id, s.Mentions id → ∃ i, (u.get i).id = id)
    (ht : ∀ id, t.Mentions id → ∃ i, (u.get i).id = id)
    (h : typeText u.nameOf o s = typeText u.nameOf o t) :
    s.shape u.nameOf o = t.shape u.nameOf o := by
  have hnamed := namedBy_of_declared hnames hs
  have hnamed' := namedBy_of_declared hnames ht
  have hreads := reads_typeText s hnamed (o := o)
  rw [h] at hreads
  exact shape_eq_of_typeTrees_eq s t hnamed hnamed'
    (hreads.unique (reads_typeText t hnamed'))

theorem shape_eq_notes :
    let s := TypeRef.vector (.option (.tuple [.scalar .u8, .named "Label"]))
    let t := TypeRef.vector (.option (.tuple [.scalar .i32, .named "Label"]))
    typeText notes.nameOf flush s = "([number, Tag] | null)[]"
      ∧ typeText notes.nameOf flush t = "([number, Tag] | null)[]"
      ∧ s.shape notes.nameOf flush = t.shape notes.nameOf flush := by
  intro s t
  have hs : typeText notes.nameOf flush s = "([number, Tag] | null)[]" := by decide
  have ht : typeText notes.nameOf flush t = "([number, Tag] | null)[]" := by decide
  have hnames : ∀ i : notes.Id, Identifier.Declarable (notes.get i).declaredName := by decide
  have hdeclared : ∀ type : TypeRef, type.names = ["Label"] → ∀ id, type.Mentions id →
      ∃ i, (notes.get i).id = id := by
    intro type htype id hmention
    rw [← TypeRef.mem_names_iff, htype, List.mem_singleton] at hmention
    exact ⟨(1 : Fin 2), hmention.symm⟩
  exact ⟨hs, ht, shape_eq_of_typeText_eq hnames flush (hdeclared s rfl) (hdeclared t rfl)
    (hs.trans ht.symm)⟩

end Artifact

end Bindings
