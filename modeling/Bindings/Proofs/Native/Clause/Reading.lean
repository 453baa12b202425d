import Bindings.Proofs.Native.Clause.Basic
import Bindings.Proofs.Native.Reader

/-!
This module contains that the arguments of attributes are read from the rows that spell them, and
from no others.
-/

namespace Bindings.Native.Grammar

structure Reader.Ready (r : Reader) (row : List TokenTree) : Prop where
  trees : r.trees = row
  width : row.length ≤ r.width
  leftover : r.leftover = none

def Reads (p : Parser α) (row : List TokenTree) (a : α) (rest : List TokenTree) : Prop :=
  ∀ r : Reader, r.Ready row → ∃ s, p r = .ok (a, s) ∧ s.Ready rest

variable {α β σ : Type} {p : Parser α} {a b : α} {row middle rest rest' : List TokenTree}
variable {r s : Reader}

theorem Takes.reads (h : Takes p row a rest) : Reads p row a rest := by
  intro r hr
  obtain ⟨written, hp⟩ := h.run r hr.trees hr.width
  exact ⟨_, hp, rfl, Nat.le_trans h.length_le hr.width, hr.leftover⟩

theorem ready_row (row : List TokenTree) : Reader.Ready { trees := row } row :=
  ⟨rfl, Nat.le_refl _, rfl⟩

namespace Reads

theorem unique (h : Reads p row a rest) (h' : Reads p row b rest') : a = b ∧ rest = rest' := by
  obtain ⟨s, hs, hready⟩ := h _ (ready_row row)
  obtain ⟨s', hs', hready'⟩ := h' _ (ready_row row)
  obtain ⟨rfl, rfl⟩ := Prod.mk.inj (Except.ok.inj (hs.symm.trans hs'))
  exact ⟨rfl, hready.trees.symm.trans hready'.trees⟩

theorem bind {k : α → Parser β} {b : β} (h : Reads p row a middle)
    (hk : Reads (k a) middle b rest) : Reads (p >>= k) row b rest := by
  intro r hr
  obtain ⟨s, hs, hready⟩ := h r hr
  obtain ⟨t, ht, hready'⟩ := hk s hready
  exact ⟨t, (Carries.bind_of_eq_ok hs).trans ht, hready'⟩

theorem pure (a : α) (rest : List TokenTree) : Reads (Pure.pure a) rest a rest :=
  (Takes.pure a rest).reads

theorem ahead (test : List TokenTree → Bool) (rest : List TokenTree) :
    Reads (Grammar.ahead test) rest (test rest) rest :=
  (Takes.ahead test rest).reads

theorem map {g : α → β} (h : Reads p row a rest) : Reads (g <$> p) row (g a) rest := by
  show Reads (p >>= fun a => Pure.pure (g a)) row (g a) rest
  exact h.bind (pure _ rest)

theorem group {delimiter : Delimiter} {body : List TokenTree} (h : Reads p body a [])
    (opened closed : Position) (rest : List TokenTree) :
    Reads (Grammar.group delimiter p) (.group delimiter body opened closed :: rest) a rest := by
  intro r hr
  obtain ⟨inner, hinner, hready⟩ := h
    { trees := body, closed, delimiter := some delimiter, leftover := r.leftover }
    ⟨rfl, Nat.le_refl _, hr.leftover⟩
  refine ⟨_, Carries.group_of_eq_ok hr.trees hinner, rfl, ?_, ?_⟩
  . exact Nat.le_trans (Nat.le_succ _) hr.width
  . exact Carries.complaint?_eq_none.mpr ⟨hready.leftover, hready.trees⟩

def Loops (step : σ → Parser (σ ⊕ α)) (state : σ) (row : List TokenTree) (a : α)
    (rest : List TokenTree) : Prop :=
  ∀ n, row.length < n → Reads (repeating.go step n state) row a rest

theorem Loops.done {step : σ → Parser (σ ⊕ α)} {state : σ}
    (h : Reads (step state) row (.inr a) rest) : Loops step state row a rest := by
  intro n hn
  cases n with
  | zero => cases hn
  | succ n => exact h.bind (pure a rest)

theorem Loops.next {step : σ → Parser (σ ⊕ α)} {state state' : σ}
    (h : Reads (step state) row (.inl state') middle) (hlength : middle.length < row.length)
    (hnext : Loops step state' middle a rest) : Loops step state row a rest := by
  intro n hn
  cases n with
  | zero => cases hn
  | succ n => exact h.bind (hnext n (by omega))

theorem Loops.reads {step : σ → Parser (σ ⊕ α)} {state : σ} (h : Loops step state row a rest) :
    Reads (repeating step state) row a rest := by
  intro r hr
  have hwidth := hr.width
  exact h (r.width + 1) (by omega) r hr

end Reads

theorem parse_eq_ok_iff : p.parse r = .ok a ↔ ∃ s, p r = .ok (a, s) ∧ s.complaint? = none := by
  unfold Parser.parse
  constructor
  . intro h
    obtain ⟨⟨b, s⟩, hp, h⟩ := exists_of_bind_eq_ok h
    dsimp only at h
    split at h
    . next hnone =>
      cases h
      exact ⟨s, hp, hnone⟩
    . cases h
  . rintro ⟨s, hp, hnone⟩
    simp only [hp, Bind.bind, Except.bind, hnone]
    rfl

theorem Carries.steady {n : Nat} {eats : α → Bool} (h : Carries .whole n eats p p)
    (hp : p r = .ok (a, s)) (hwidth : r.trees.length ≤ r.width)
    (hsize : TokenTree.sizeAll r.trees < n) : s.trees <:+ r.trees ∧ s.trees.length ≤ s.width := by
  have sees : Frame.whole.Sees r.trees r.written r r :=
    { trees := (List.append_nil _).symm, trees' := (List.append_nil _).symm,
      written := (List.append_nil _).symm, written' := (List.append_nil _).symm,
      leftover := Iff.rfl, width' := hwidth }
  obtain ⟨row, tokens, s', hp', sees', hsuffix⟩ := h.run sees hsize hp (Nat.zero_le _)
  obtain ⟨-, rfl⟩ := Prod.mk.inj (Except.ok.inj (hp.symm.trans hp'))
  refine ⟨?_, sees'.width'⟩
  rw [sees'.trees]
  exact (List.append_nil row).symm ▸ hsuffix

end Bindings.Native.Grammar

namespace Bindings.Native.Directive

open Grammar

namespace Clause

variable {row rest : List TokenTree} {r s : Reader} {N : Nat}

/-! Expressions -/

theorem IsExpression.reads (h : IsExpression row) (hsize : TokenTree.sizeAll row < N)
    (hrest : Boundary rest) :
    ∃ expression, Reads ((rules N).expression true) (row ++ rest) expression rest := by
  obtain ⟨expression, h⟩ := h
  obtain ⟨s, hs, hnone⟩ := parse_eq_ok_iff.mp h
  obtain ⟨hleftover, hend⟩ := Carries.complaint?_eq_none.mp hnone
  refine ⟨expression, fun r hr => ?_⟩
  -- The row by itself and the row in front of the rest are two places in which it is read alike.
  let f : Frame := ⟨[], rest, [], r.written, 0, .nil, hrest⟩
  have sees : f.Sees row [] { trees := row } r :=
    { trees := (List.append_nil row).symm, trees' := hr.trees, written := rfl, written' := rfl,
      leftover := iff_of_true rfl hr.leftover
      width' := by
        rw [hr.trees]
        exact hr.width }
  have hcarries := (rules_alike (Nat.le_refl (TokenTree.sizeAll row + 1)) hsize).expression f true
  obtain ⟨row', tokens', s', hs', sees', -⟩ :=
    hcarries.run sees (Nat.lt_succ_self _) hs (Nat.zero_le _)
  obtain rfl : row' = [] := by
    have := sees'.trees.symm.trans hend
    exact (List.append_eq_nil_iff.mp this).1
  refine ⟨s', hs', sees'.trees', ?_, sees'.leftover.mp hleftover⟩
  have := sees'.width'
  rw [sees'.trees'] at this
  exact this

theorem isExpression_of_eq_ok {expression : Expression}
    (h : (rules N).expression true r = .ok (expression, s)) (hwidth : r.trees.length ≤ r.width)
    (hsize : TokenTree.sizeAll r.trees < N) (hrest : Boundary s.trees) (hnone : s.leftover = none) :
    ∃ row, r.trees = row ++ s.trees ∧ IsExpression row := by
  have hwhole := (rules_alike (Nat.le_refl N) (Nat.le_refl N)).expression .whole true
  -- What is left is a part of the row. So the trees before it can be read without what is behind.
  obtain ⟨row, hrow⟩ := (hwhole.steady h hwidth hsize).1
  refine ⟨row, hrow.symm, expression, ?_⟩
  let f : Frame := ⟨s.trees, [], r.written, [], 0, hrest, .nil⟩
  have sees : f.Sees row [] r { trees := row } :=
    { trees := hrow.symm, trees' := (List.append_nil row).symm, written := rfl, written' := rfl,
      leftover := iff_of_true (hwhole.settled h hnone) rfl
      width' := Nat.le_refl _ }
  have hsize' : TokenTree.sizeAll row < N := by
    rw [← hrow, TokenTree.sizeAll_append] at hsize
    omega
  have hcarries := (rules_alike hsize' (Nat.le_refl (TokenTree.sizeAll row + 1))).expression f true
  obtain ⟨row', tokens', s', hs', sees', -⟩ :=
    hcarries.run sees (Nat.lt_succ_self _) h (Nat.le_refl _)
  obtain rfl : row' = [] := by
    have := congrArg List.length sees'.trees
    rw [List.length_append] at this
    exact List.eq_nil_of_length_eq_zero (by simpa [f] using this)
  exact parse_eq_ok_iff.mpr ⟨s', hs', Carries.complaint?_eq_none.mpr
    ⟨sees'.leftover.mp hnone, sees'.trees'⟩⟩

end Clause

end Bindings.Native.Directive
