import Bindings.Proofs.Native.Carrying.Items

/-!
This module contains that the rules of the grammar read a row in the same way in every place and to
every depth that suffices for the row.
-/

namespace Bindings.Native.Grammar

namespace Rules.Alike

variable {n N M : Nat}

theorem zero (h : Alike 1 (rules N) (rules N)) : Alike 0 (rules N) (rules M) where
  type _ plus := (h.type _ plus).zero
  bound _ capture const? := (h.bound _ capture const?).zero
  expression _ literals := (h.expression _ literals).zero
  operand _ literals p := (h.operand _ literals p).zero
  unary _ literals := (h.unary _ literals).zero
  boundary := h.boundary.zero
  pattern _ := (h.pattern _).zero
  statements := h.statements.zero
  fields := h.fields.zero
  importTree root := (h.importTree root).zero
  item := h.item.zero

theorem succ (h : Alike n (rules N) (rules M)) :
    Alike (n + 1) (rules (N + 1)) (rules (M + 1)) where
  type _ plus := .silently (.type h plus)
  bound _ capture const? := .bound h capture const?
  expression _ literals := .expression h literals
  operand _ literals p := .operand h literals p
  unary _ literals := .unary h literals
  boundary := .boundary h
  pattern _ := .pattern h
  statements := .statements h
  fields := .namedFields h
  importTree root := .importTree h root
  item := .item h

theorem none : Alike n Rules.none Rules.none where
  type _ _ := .lacks _ _
  bound _ _ _ := .lacks _ _
  expression _ _ := .lacks _ _
  operand _ _ _ := .lacks _ _
  unary _ _ := .lacks _ _
  boundary := .lacks _ _
  pattern _ := .lacks _ _
  statements := .lacks _ _
  fields := .lacks _ _
  importTree _ := .lacks _ _
  item := .lacks _ _

end Rules.Alike

theorem rules_alike_zero (N : Nat) (M : Nat) : Rules.Alike 0 (rules N) (rules M) := by
  induction N generalizing M with
  | zero => exact .zero .none
  | succ N ih => exact .zero (ih N).succ

theorem rules_alike {n N M : Nat} (hN : n ≤ N) (hM : n ≤ M) :
    Rules.Alike n (rules N) (rules M) := by
  induction n generalizing N M with
  | zero => exact rules_alike_zero N M
  | succ n ih =>
    obtain ⟨N, rfl⟩ := Nat.exists_eq_add_of_lt hN
    obtain ⟨M, rfl⟩ := Nat.exists_eq_add_of_lt hM
    exact (ih (Nat.le_add_right n N) (Nat.le_add_right n M)).succ

end Bindings.Native.Grammar
