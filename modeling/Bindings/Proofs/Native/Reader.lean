import Bindings.Native.Grammar.Basic

/-!
This module contains what parsers take from a row of trees, whatever has been read before, and how
this goes through the ways in which parsers are put together. What a parser writes down is left
open.
-/

namespace Bindings.Native.Grammar

theorem Reader.complaint?_eq_leftover {r : Reader} (h : r.trees = []) :
    r.complaint? = r.leftover := by
  unfold complaint?
  rw [h]
  exact Option.or_none

/--
In front of a row a parser yields a value and leaves the rest of the row.
-/
structure Takes (p : Parser α) (trees : List TokenTree) (a : α) (rest : List TokenTree) : Prop where
  length_le : rest.length ≤ trees.length
  run : ∀ r : Reader, r.trees = trees → trees.length ≤ r.width →
    ∃ written, p r = .ok (a, { r with trees := rest, written })

namespace Takes

variable {α β σ : Type} {p : Parser α} {f : α → Parser β} {a : α} {b : β}
variable {before middle rest : List TokenTree}

theorem pure (a : α) (rest : List TokenTree) : Takes (Pure.pure a) rest a rest where
  length_le := Nat.le_refl _
  run r htrees _ := ⟨r.written, by rw [← htrees]; rfl⟩

theorem bind (h : Takes p before a middle) (hf : Takes (f a) middle b rest) :
    Takes (p >>= f) before b rest where
  length_le := Nat.le_trans hf.length_le h.length_le
  run r htrees hwidth := by
    obtain ⟨written, hp⟩ := h.run r htrees hwidth
    obtain ⟨written', hnext⟩ := hf.run { r with trees := middle, written } rfl
      (Nat.le_trans h.length_le hwidth)
    refine ⟨written', ?_⟩
    show (p r).bind (fun result => f result.1 result.2) = _
    rw [hp]
    exact hnext

theorem trees (rest : List TokenTree) : Takes Grammar.trees rest rest rest where
  length_le := Nat.le_refl _
  run r htrees _ := ⟨r.written, by rw [← htrees]; rfl⟩

theorem ahead (test : List TokenTree → Bool) (rest : List TokenTree) :
    Takes (Grammar.ahead test) rest (test rest) rest where
  length_le := Nat.le_refl _
  run r htrees _ := ⟨r.written, by rw [← htrees]; rfl⟩

theorem silently (h : Takes p before a rest) : Takes (Grammar.silently p) before a rest where
  length_le := h.length_le
  run r htrees hwidth := by
    obtain ⟨written, hp⟩ := h.run r htrees hwidth
    refine ⟨r.written, ?_⟩
    show (p r).bind (fun result =>
      .ok (result.1, { result.2 with written := r.written })) = _
    rw [hp]
    rfl

theorem sign {text : String} (hlength : rest.length ≤ before.length)
    (h : afterSign? text before = some rest) : Takes (Grammar.sign text) before () rest where
  length_le := hlength
  run r htrees _ := by
    refine ⟨(Written.sign text).reverse ++ r.written, ?_⟩
    unfold Grammar.sign
    rw [htrees, h]

theorem skipSign_false {text : String} (h : startsSign text rest = false) :
    Takes (skipSign text) rest false rest := by
  refine (ahead _ rest).bind ?_
  rw [h]
  exact pure false rest

theorem skipSign_true {text : String} (hlength : rest.length ≤ before.length)
    (h : afterSign? text before = some rest) : Takes (skipSign text) before true rest := by
  refine (ahead _ before).bind ?_
  rw [startsSign, h]
  exact (sign hlength h).bind (pure true rest)

theorem step (written : Reader → List TokenTree) (hlength : rest.length ≤ before.length) :
    Takes (modify fun r => { r with trees := rest, written := written r }) before () rest where
  length_le := hlength
  run r _ _ := ⟨written r, rfl⟩

theorem anyWord (name : String) (position : Position) (rest : List TokenTree) :
    Takes Grammar.anyWord (.word name position :: rest) name rest := by
  refine (trees _).bind ?_
  exact (step (fun r => .word name position :: r.written) (Nat.le_succ _)).bind (pure name rest)

theorem identifier {name : String} (h : isKeyword name = false) (position : Position)
    (rest : List TokenTree) : Takes Grammar.identifier (.word name position :: rest) name rest := by
  refine (trees _).bind ?_
  dsimp only
  rw [h]
  exact anyWord name position rest

theorem group {delimiter : Delimiter} {body : List TokenTree} (h : Takes p body a [])
    (opened closed : Position) (rest : List TokenTree) :
    Takes (Grammar.group delimiter p) (.group delimiter body opened closed :: rest) a rest where
  length_le := Nat.le_succ _
  run r htrees _ := by
    obtain ⟨written, hp⟩ := h.run
      { trees := body, closed, delimiter := some delimiter, leftover := r.leftover } rfl
      (Nat.le_refl _)
    refine ⟨.group delimiter written.reverse opened closed :: r.written, ?_⟩
    unfold Grammar.group
    rw [htrees]
    simp only [if_true, hp]
    simp only [Bind.bind, Except.bind, Pure.pure, Except.pure, Reader.complaint?_eq_leftover]

def Loops (step : σ → Parser (σ ⊕ α)) (s : σ) (before : List TokenTree) (a : α)
    (rest : List TokenTree) : Prop :=
  ∀ n, before.length < n → Takes (repeating.go step n s) before a rest

theorem Loops.done {step : σ → Parser (σ ⊕ α)} {s : σ} (h : Takes (step s) before (.inr a) rest) :
    Loops step s before a rest := by
  intro n hn
  cases n with
  | zero => cases hn
  | succ n => exact h.bind (pure a rest)

theorem Loops.next {step : σ → Parser (σ ⊕ α)} {s s' : σ}
    (h : Takes (step s) before (.inl s') middle) (hlength : middle.length < before.length)
    (hnext : Loops step s' middle a rest) : Loops step s before a rest := by
  intro n hn
  cases n with
  | zero => cases hn
  | succ n => exact h.bind (hnext n (by omega))

theorem Loops.takes {step : σ → Parser (σ ⊕ α)} {s : σ} (h : Loops step s before a rest) :
    Takes (repeating step s) before a rest where
  length_le := (h (before.length + 1) (Nat.lt_succ_self _)).length_le
  run r htrees hwidth := (h (r.width + 1) (by omega)).run r htrees hwidth

theorem parse_eq_ok (h : Takes p before a []) : p.parse { trees := before } = .ok a := by
  obtain ⟨written, hp⟩ := h.run { trees := before } rfl (Nat.le_refl _)
  unfold Parser.parse
  rw [hp]
  rfl

end Takes

end Bindings.Native.Grammar
