import Bindings.Native.Collection

/-!
This module contains which items stand somewhere in a file, at any depth of modules, and that a file
is collected as these items one behind another are.
-/

namespace Bindings.Native

/--
Items and, in their order, those that stand among them or in a module among them. A module itself
does not count; one whose items stand in another file has none.
-/
inductive Item.Standing : List Item → List Item → Prop
  | nil : Standing [] []
  | item {item : Item} {items standing : List Item} (hitem : ∀ inner, item ≠ .module inner)
    (hrest : Standing items standing) : Standing (item :: items) (item :: standing)
  | outside {items standing : List Item} (hrest : Standing items standing) :
    Standing (.module none :: items) standing
  | module {inner items before after : List Item} (hinner : Standing inner before)
    (hrest : Standing items after) : Standing (.module (some inner) :: items) (before ++ after)

namespace Item.Standing

variable {items standing standing' : List Item}

theorem exists_standing (items : List Item) : ∃ standing, Standing items standing := by
  match items with
  | [] => exact ⟨[], .nil⟩
  | .module none :: items =>
    obtain ⟨standing, h⟩ := exists_standing items
    exact ⟨standing, .outside h⟩
  | .module (some inner) :: items =>
    obtain ⟨before, hinner⟩ := exists_standing inner
    obtain ⟨after, hrest⟩ := exists_standing items
    exact ⟨before ++ after, .module hinner hrest⟩
  | .function _ :: items | .struct _ _ :: items | .enum _ _ :: items | .typeAlias _ _ :: items
  | .other :: items =>
    obtain ⟨standing, h⟩ := exists_standing items
    exact ⟨_, .item nofun h⟩

theorem unique (h : Standing items standing) (h' : Standing items standing') :
    standing = standing' := by
  induction h generalizing standing' with
  | nil =>
    cases h'
    rfl
  | item hitem _ ih =>
    cases h' with
    | item _ hrest => rw [ih hrest]
    | outside => exact absurd rfl (hitem _)
    | module => exact absurd rfl (hitem _)
  | outside _ ih =>
    cases h' with
    | item hitem => exact absurd rfl (hitem _)
    | outside hrest => exact ih hrest
  | module _ _ ihinner ihrest =>
    cases h' with
    | item hitem => exact absurd rfl (hitem _)
    | module hinner hrest => rw [ihinner hinner, ihrest hrest]

end Item.Standing

namespace Collection

theorem addAll_append (c : Collection) (items items' : List Item) :
    c.addAll (items ++ items') = c.addAll items >>= fun next => next.addAll items' := by
  induction items generalizing c with
  | nil => rw [List.nil_append, addAll, pure_bind]
  | cons item items ih =>
    rw [List.cons_append, addAll, addAll, bind_assoc]
    simp only [ih]

theorem addAll_outside (c : Collection) (items : List Item) :
    c.addAll (.module none :: items) = c.addAll items := by
  rw [addAll, add, pure_bind]

theorem addAll_module (c : Collection) (inner items : List Item) :
    c.addAll (.module (some inner) :: items) = c.addAll (inner ++ items) := by
  rw [addAll, add, addAll_append]

theorem addAll_standing {items standing : List Item} (h : Item.Standing items standing)
    (c : Collection) : c.addAll items = c.addAll standing := by
  induction h generalizing c with
  | nil => rfl
  | item _ _ ih =>
    rw [addAll, addAll]
    simp only [ih]
  | outside _ ih => rw [addAll_outside, ih]
  | module _ _ ihinner ihrest =>
    rw [addAll_module, addAll_append, addAll_append, ihinner]
    simp only [ihrest]

end Collection

end Bindings.Native
