import Bindings.Proofs.Native.Clause.Arguments

/-!
This module contains that a row spells arguments in one way only.
-/

namespace Bindings.Native.Directive

open Grammar

namespace Clause

variable {n : Nat} {row row' tail tail' rest rest' last last' : List TokenTree}
variable {clause clause' : Clause} {clauses clauses' : List Clause}

theorem IsExpression.rest_unique (h : IsExpression row) (h' : IsExpression row')
    (hrest : Boundary rest) (hrest' : Boundary rest') (heq : row ++ rest = row' ++ rest') :
    rest = rest' := by
  have hsize : TokenTree.sizeAll row < TokenTree.sizeAll row + TokenTree.sizeAll row' + 1 := by
    omega
  obtain ⟨expression, hreads⟩ := h.reads hsize hrest
  obtain ⟨expression', hreads'⟩ := h'.reads
    (show _ < TokenTree.sizeAll row + TokenTree.sizeAll row' + 1 by omega) hrest'
  exact (hreads.unique (heq ▸ hreads')).2

def UniqueBelow (n : Nat) : Prop :=
  ∀ {clauses clauses' : List Clause} {row row' last last' : List TokenTree},
    Separated Row clauses row → Separated Row clauses' row' → Trailing last → Trailing last' →
    row ++ last = row' ++ last' → TokenTree.sizeAll row < n → clauses = clauses'

theorem Tail.unique (hbelow : UniqueBelow n) (h : Tail clause tail) (h' : Tail clause' tail')
    (hkey : clause.key = clause'.key) (hrest : Boundary rest) (hrest' : Boundary rest')
    (heq : tail ++ rest = tail' ++ rest') (hsize : TokenTree.sizeAll tail ≤ n) :
    clause = clause' ∧ rest = rest' := by
  cases h with
  | bare key =>
    cases h' with
    | bare key' => exact ⟨congrArg _ hkey, heq⟩
    | value | list => cases hrest <;> simp at heq
  | value key joint position h =>
    cases h' with
    | bare => cases hrest' <;> simp at heq
    | value key' joint' position' h' =>
      have heq := (List.cons.inj heq).2
      obtain rfl := h.rest_unique h' hrest hrest' heq
      obtain rfl := List.append_cancel_right heq
      exact ⟨congrArg (Clause.value · _) hkey, rfl⟩
    | list => simp at heq
  | list key opened closed h hlast =>
    cases h' with
    | bare => cases hrest' <;> simp at heq
    | value => simp at heq
    | list key' opened' closed' h' hlast' =>
      obtain ⟨hgroup, heq⟩ := List.cons.inj heq
      obtain ⟨-, hbody, -, -⟩ := TokenTree.group.inj hgroup
      rw [sizeAll_group, TokenTree.sizeAll_append] at hsize
      obtain rfl := hbelow h h' hlast hlast' hbody (by omega)
      exact ⟨congrArg (Clause.list · _) hkey, heq⟩

theorem Row.unique (hbelow : UniqueBelow n) (h : Row clause row) (h' : Row clause' row')
    (hrest : Boundary rest) (hrest' : Boundary rest') (heq : row ++ rest = row' ++ rest')
    (hsize : TokenTree.sizeAll row ≤ n) : clause = clause' ∧ rest = rest' := by
  obtain ⟨hpath, htail⟩ := h
  obtain ⟨hpath', htail'⟩ := h'
  rw [List.append_assoc, List.append_assoc] at heq
  have hreads := (hpath.takes (htail.startsSign_eq_false hrest)).reads
  have hreads' := (hpath'.takes (htail'.startsSign_eq_false hrest')).reads
  obtain ⟨hkey, heq⟩ := hreads.unique (heq ▸ hreads')
  rw [TokenTree.sizeAll_append] at hsize
  exact htail.unique hbelow htail' hkey hrest hrest' heq (by omega)

theorem Separated.append_ne_nil (h : Separated Row clauses row) (last : List TokenTree) :
    row ++ last ≠ [] :=
  List.append_ne_nil_of_left_ne_nil h.ne_nil last

theorem Trailing.ne_cons (h : Trailing last) (hrow : row ≠ []) (joint : Bool)
    (position : Position) : last ≠ .punct ',' joint position :: row := by
  rintro rfl
  cases h
  exact hrow rfl

theorem uniqueBelow (n : Nat) : UniqueBelow n := by
  -- On the size for the lists in brackets, and along the rows for what stands between commas.
  induction n with
  | zero => exact fun _ _ _ _ _ hsize => absurd hsize (Nat.not_lt_zero _)
  | succ n ihn =>
    intro clauses clauses' row row' last last' h h' hlast hlast' heq hsize
    induction h generalizing clauses' row' with
    | single h =>
      cases h' with
      | single h' =>
        rw [(h.unique ihn h' hlast.boundary hlast'.boundary heq (by omega)).1]
      | cons h' joint position hs =>
        rw [List.append_assoc] at heq
        have := (h.unique ihn h' hlast.boundary (.comma joint position _) heq (by omega)).2
        exact absurd this (hlast.ne_cons (hs.append_ne_nil last') joint position)
    | cons h joint position hs ih =>
      rw [TokenTree.sizeAll_append, TokenTree.sizeAll_cons] at hsize
      rw [List.append_assoc] at heq
      cases h' with
      | single h' =>
        have := (h.unique ihn h' (.comma joint position _) hlast'.boundary heq (by omega)).2
        exact absurd this.symm (hlast'.ne_cons (hs.append_ne_nil last) joint position)
      | cons h' joint' position' hs' =>
        rw [List.append_assoc] at heq
        obtain ⟨rfl, hrows⟩ := h.unique ihn h' (.comma joint position _)
          (.comma joint' position' _) heq (by omega)
        rw [ih hs' (List.cons.inj hrows).2 (by omega)]

theorem Separated.unique (h : Separated Row clauses row) (h' : Separated Row clauses' row')
    (hlast : Trailing last) (hlast' : Trailing last') (heq : row ++ last = row' ++ last') :
    clauses = clauses' :=
  uniqueBelow _ h h' hlast hlast' heq (Nat.lt_succ_self _)

end Clause

end Bindings.Native.Directive
