import Bindings.Proofs.Native.Clause.Path
import Mathlib.Data.List.Forall2

/-!
This module contains that arguments in a row are read one after the other, whatever they are read
by, and that those that are not looked into are taken as a whole.
-/

namespace Bindings.Native.Directive

open Grammar

namespace Clause

variable {α : Type} {n N : Nat} {k : Option String} {row rows tail rest last : List TokenTree}
variable {clause : Clause} {clauses : List Clause} {r s : Reader}

theorem Trailing.boundary (h : Trailing last) : Boundary last := by
  cases h with
  | none => exact .nil
  | comma joint position => exact .comma joint position []

theorem Path.ne_nil (h : Path k row) : row ≠ [] := by
  cases h with
  | name | long => exact List.cons_ne_nil _ _
  | global h hnames =>
    cases h with
    | nil => exact absurd rfl hnames
    | cons => exact List.cons_ne_nil _ _

theorem Row.ne_nil (h : Row clause row) : row ≠ [] := by
  cases h with
  | intro hpath => exact List.append_ne_nil_of_left_ne_nil hpath.ne_nil _

theorem Separated.ne_nil (h : Separated Row clauses row) : row ≠ [] := by
  cases h with
  | single h => exact h.ne_nil
  | cons h => exact List.append_ne_nil_of_left_ne_nil h.ne_nil _

theorem Tail.startsSign_eq_false (h : Tail clause tail) (hrest : Boundary rest) :
    startsSign "::" (tail ++ rest) = false := by
  cases h with
  | bare => cases hrest <;> rfl
  | value | list => rfl

/--
A parser reads what stands behind the path of an argument in front of a comma or at the end. What
it yields is right for the argument.
-/
structure Meets (n : Nat) (k : Option String) (p : Parser α) (right : Clause → α → Prop) :
    Prop where
  carries : Carries .whole n never p p
  reads : ∀ {clause tail rest a}, clause.key = k → Tail clause tail → right clause a →
    TokenTree.sizeAll tail < n → Boundary rest →
    ∃ b, right clause b ∧ Reads p (tail ++ rest) b rest
  found : ∀ {r a s}, p r = .ok (a, s) → r.trees.length ≤ r.width →
    TokenTree.sizeAll r.trees < n → Boundary s.trees → s.leftover = none →
    ∃ clause tail, clause.key = k ∧ Tail clause tail ∧ right clause a ∧ r.trees = tail ++ s.trees

section Sequence

variable {read : Option String → Parser α} {right : Clause → α → Prop}
variable (hread : ∀ k, Meets n k (read k) right)

include hread

theorem argument_reads (h : Row clause row) {a : α} (ha : right clause a)
    (hsize : TokenTree.sizeAll row < n) (hrest : Boundary rest) :
    ∃ b, right clause b ∧ Reads (do read (← Directive.key)) (row ++ rest) b rest := by
  cases h with
  | @intro _ path tail hpath htail =>
    rw [TokenTree.sizeAll_append] at hsize
    obtain ⟨b, hb, hreads⟩ := (hread clause.key).reads rfl htail ha (by omega) hrest
    refine ⟨b, hb, ?_⟩
    rw [List.append_assoc]
    exact (hpath.takes (htail.startsSign_eq_false hrest)).reads.bind hreads

theorem argument_of_eq_ok {a : α} (h : (do read (← Directive.key) : Parser α) r = .ok (a, s))
    (hwidth : r.trees.length ≤ r.width) (hsize : TokenTree.sizeAll r.trees < n)
    (hrest : Boundary s.trees) (hnone : s.leftover = none) :
    ∃ clause row, Row clause row ∧ right clause a ∧ r.trees = row ++ s.trees := by
  obtain ⟨k, r₁, hkey, hread₁⟩ := Carries.bind_eq_ok h
  obtain ⟨path, hpath, hrow⟩ := path_of_eq_ok hkey
  have hwidth₁ := (key_carries.steady hkey hwidth hsize).2
  rw [hrow, TokenTree.sizeAll_append] at hsize
  obtain ⟨clause, tail, rfl, htail, ha, hrow₁⟩ :=
    (hread k).found hread₁ hwidth₁ (by omega) hrest hnone
  refine ⟨clause, path ++ tail, .intro hpath htail, ha, ?_⟩
  rw [hrow, hrow₁, List.append_assoc]

theorem argument_carries :
    Carries .whole n never (do read (← Directive.key)) (do read (← Directive.key)) :=
  key_carries.bind fun k => (hread k).carries

omit hread in
theorem arguments_step_eq (earlier : List α) : arguments.step read earlier = (do
    let a ← (do read (← Directive.key))
    if ← atEnd then return .inr (a :: earlier).reverse
    sign ","
    if ← atEnd then return .inr (a :: earlier).reverse
    return .inl (a :: earlier)) := by
  unfold arguments.step
  rw [bind_assoc]

omit hread in
theorem arguments_step_eq_ok {earlier : List α} {result : List α ⊕ List α}
    (h : arguments.step read earlier r = .ok (result, s)) :
    ∃ a r₁, (do read (← Directive.key) : Parser α) r = .ok (a, r₁) ∧
      ((r₁ = s ∧ s.trees = [] ∧ result = .inr (a :: earlier).reverse) ∨
        ∃ joint position, r₁.trees = .punct ',' joint position :: s.trees ∧
          s.leftover = r₁.leftover ∧ s.width = r₁.width ∧
          result = if s.trees.isEmpty then .inr (a :: earlier).reverse else .inl (a :: earlier)) :=
    by
  rw [arguments_step_eq] at h
  obtain ⟨a, r₁, ha, h⟩ := Carries.bind_eq_ok h
  refine ⟨a, r₁, ha, ?_⟩
  have h : (if r₁.trees.isEmpty then Pure.pure (.inr (a :: earlier).reverse)
    else sign "," >>= fun _ => atEnd >>= fun ended =>
      if ended then Pure.pure (.inr (a :: earlier).reverse) else Pure.pure (.inl (a :: earlier)) :
      Parser (List α ⊕ List α)) r₁ = .ok (result, s) := h
  split at h
  . next hend =>
    cases h
    exact .inl ⟨rfl, List.isEmpty_iff.mp hend, rfl⟩
  . obtain ⟨u, r₂, hsign, h⟩ := Carries.bind_eq_ok h
    obtain ⟨joint, position, hcomma, hleftover, hwidth⟩ := single_of_sign_eq_ok rfl hsign
    have h : (if r₂.trees.isEmpty then Pure.pure (.inr (a :: earlier).reverse)
      else Pure.pure (.inl (a :: earlier)) : Parser (List α ⊕ List α)) r₂ = .ok (result, s) := h
    right
    split at h
    . next hend =>
      cases h
      exact ⟨joint, position, hcomma, hleftover, hwidth, (if_pos hend).symm⟩
    . next hend =>
      cases h
      exact ⟨joint, position, hcomma, hleftover, hwidth, (if_neg hend).symm⟩

theorem arguments_step_carries (earlier : List α) :
    Carries .whole n Sum.isLeft (arguments.step read earlier) (arguments.step read earlier) := by
  rw [arguments_step_eq]
  have hsign : Carries .whole n always (Grammar.sign ",") (Grammar.sign ",") :=
    .sign "," (by decide)
  refine (argument_carries hread).bind fun a => (Carries.aheadWhole _).bind fun _ =>
    .ite (.pure _ rfl) (hsign.bindAt fun _ => ?_)
  exact (Carries.aheadWhole _).bind fun _ => .ite (.pure _ rfl) (.pure _ rfl)

theorem arguments_carries : Carries .whole n never (arguments read) (arguments read) :=
  .repeating (arguments_step_carries hread) []

theorem arguments_loops {as : List α} (h : Separated Row clauses row) (hlast : Trailing last)
    (has : List.Forall₂ right clauses as) (hsize : TokenTree.sizeAll row < n) (earlier : List α) :
    ∃ bs, List.Forall₂ right clauses bs ∧
      Reads.Loops (arguments.step read) earlier (row ++ last) (earlier.reverse ++ bs) [] := by
  induction h generalizing as earlier with
  | single h =>
    obtain - | ⟨ha, has⟩ := has
    cases has
    obtain ⟨b, hb, hreads⟩ := argument_reads hread h ha hsize hlast.boundary
    refine ⟨[b], .cons hb .nil, .done ?_⟩
    rw [arguments_step_eq, ← List.reverse_cons]
    refine hreads.bind ((Reads.ahead _ _).bind ?_)
    cases hlast with
    | none => exact .pure _ _
    | comma joint position =>
      have hcomma : Reads (Grammar.sign ",") [.punct ',' joint position] () [] :=
        (Takes.sign (Nat.zero_le _) rfl).reads
      exact hcomma.bind ((Reads.ahead _ _).bind (.pure _ _))
  | @cons clause clauses row rows h joint position hs ih =>
    obtain - | ⟨ha, has⟩ := has
    rw [TokenTree.sizeAll_append, TokenTree.sizeAll_cons] at hsize
    obtain ⟨b, hb, hreads⟩ := argument_reads hread h ha (by omega)
      (.comma joint position (rows ++ last))
    obtain ⟨bs, hbs, hloops⟩ := ih has (by omega) (b :: earlier)
    refine ⟨b :: bs, .cons hb hbs, ?_⟩
    have hstep : Reads (arguments.step read earlier)
        (row ++ .punct ',' joint position :: (rows ++ last)) (.inl (b :: earlier))
        (rows ++ last) := by
      rw [arguments_step_eq]
      have hcomma : Reads (Grammar.sign ",") (.punct ',' joint position :: (rows ++ last)) ()
          (rows ++ last) := (Takes.sign (Nat.le_succ _) rfl).reads
      refine hreads.bind ((Reads.ahead _ _).bind (hcomma.bind ((Reads.ahead _ _).bind ?_)))
      have hmore : (rows ++ last).isEmpty = false := by
        rw [List.isEmpty_eq_false_iff]
        exact List.append_ne_nil_of_left_ne_nil hs.ne_nil _
      rw [hmore]
      exact .pure _ _
    rw [List.append_assoc, List.cons_append]
    refine .next hstep ?_ ?_
    . simp only [List.length_append, List.length_cons]
      omega
    . rwa [List.reverse_cons, List.append_assoc] at hloops

theorem arguments_reads {as : List α} (h : Separated Row clauses row) (hlast : Trailing last)
    (has : List.Forall₂ right clauses as) (hsize : TokenTree.sizeAll row < n) :
    ∃ bs, List.Forall₂ right clauses bs ∧ Reads (arguments read) (row ++ last) bs [] := by
  obtain ⟨bs, hbs, hloops⟩ := arguments_loops hread h hlast has hsize []
  exact ⟨bs, hbs, hloops.reads⟩

theorem separated_of_go_eq_ok {count : Nat} {earlier as : List α}
    (h : repeating.go (arguments.step read) count earlier r = .ok (as, s))
    (hwidth : r.trees.length ≤ r.width) (hsize : TokenTree.sizeAll r.trees < n)
    (hend : s.trees = []) (hnone : s.leftover = none) :
    ∃ clauses row last bs, Separated Row clauses row ∧ Trailing last ∧ r.trees = row ++ last ∧
      List.Forall₂ right clauses bs ∧ as = earlier.reverse ++ bs := by
  -- Every step but the last one reads an argument and a comma with something behind it.
  induction count generalizing earlier r with
  | zero => cases h
  | succ count ih =>
    obtain ⟨next, r₁, hnext, h⟩ | h := Carries.go_eq_ok h
    . have hloop : ∀ earlier, Carries .whole n (fun result => result.isLeft || false)
          (arguments.step read earlier) (arguments.step read earlier) := fun earlier =>
        (arguments_step_carries hread earlier).weaken fun _ => by simp
      have hnone₁ := Carries.go_settled hloop count next h hnone
      obtain ⟨hsuffix, hwidth₁⟩ :=
        (arguments_step_carries hread earlier).steady hnext hwidth hsize
      have hsize₁ := Nat.lt_of_le_of_lt (sizeAll_le_of_suffix hsuffix) hsize
      obtain ⟨clauses, rows, last, bs, hseparated, hlast, hrows, hbs, rfl⟩ := ih h hwidth₁ hsize₁
      obtain ⟨a, r₂, ha, hcases⟩ := arguments_step_eq_ok hnext
      obtain ⟨-, -, heq⟩ | ⟨joint, position, hcomma, hleftover, -, heq⟩ := hcases
      . cases heq
      . split at heq
        . cases heq
        . cases heq
          obtain ⟨clause, row, hrow, hright, htrees⟩ := argument_of_eq_ok hread ha hwidth hsize
            (hcomma ▸ .comma joint position r₁.trees) (hleftover ▸ hnone₁)
          refine ⟨clause :: clauses, _, last, a :: bs, .cons hrow joint position hseparated, hlast,
            ?_, .cons hright hbs, ?_⟩
          . rw [htrees, hcomma, hrows, List.append_assoc]
            rfl
          . rw [List.reverse_cons, List.append_assoc]
            rfl
    . obtain ⟨a, r₂, ha, hcases⟩ := arguments_step_eq_ok h
      obtain ⟨rfl, -, heq⟩ | ⟨joint, position, hcomma, hleftover, -, heq⟩ := hcases
      . cases heq
        obtain ⟨clause, row, hrow, hright, htrees⟩ := argument_of_eq_ok hread ha hwidth hsize
          (hend ▸ .nil) hnone
        refine ⟨[clause], row, [], [a], .single hrow, .none, ?_, .cons hright .nil,
          List.reverse_cons⟩
        rw [htrees, hend]
      . split at heq
        . cases heq
          obtain ⟨clause, row, hrow, hright, htrees⟩ := argument_of_eq_ok hread ha hwidth hsize
            (hcomma ▸ .comma joint position s.trees) (hleftover ▸ hnone)
          refine ⟨[clause], row, _, [a], .single hrow, .comma joint position, ?_,
            .cons hright .nil, List.reverse_cons⟩
          rw [htrees, hcomma, hend]
        . cases heq

theorem separated_of_eq_ok {as : List α} (h : arguments read r = .ok (as, s))
    (hwidth : r.trees.length ≤ r.width) (hsize : TokenTree.sizeAll r.trees < n)
    (hend : s.trees = []) (hnone : s.leftover = none) :
    ∃ clauses row last, Separated Row clauses row ∧ Trailing last ∧ r.trees = row ++ last ∧
      List.Forall₂ right clauses as := by
  obtain ⟨clauses, row, last, bs, hseparated, hlast, hrow, hbs, rfl⟩ :=
    separated_of_go_eq_ok hread h hwidth hsize hend hnone
  exact ⟨clauses, row, last, hseparated, hlast, hrow, hbs⟩

end Sequence

end Clause

end Bindings.Native.Directive
