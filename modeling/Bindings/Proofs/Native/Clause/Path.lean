import Bindings.Proofs.Native.Clause.Reading

/-!
This module contains that the path of an argument is read from the rows that are one, and from no
others.
-/

namespace Bindings.Native.Grammar

variable {r s : Reader} {trees rest : List TokenTree} {text name : String} {c d : Char}

theorem afterPunct_single (h : afterPunct [c] trees = some rest) :
    ∃ joint position, trees = .punct c joint position :: rest := by
  match trees, h with
  | .punct other joint position :: trees, hafter =>
    unfold afterPunct at hafter
    split at hafter
    . next hother =>
      obtain rfl := eq_of_beq hother
      cases hafter
      exact ⟨joint, position, rfl⟩
    . cases hafter

theorem afterPunct_pair (h : afterPunct [c, d] trees = some rest) :
    ∃ position joint position',
      trees = .punct c true position :: .punct d joint position' :: rest := by
  match trees, h with
  | .punct other joint position :: trees, hafter =>
    unfold afterPunct at hafter
    split at hafter
    . next hboth =>
      obtain ⟨hother, rfl⟩ := Bool.and_eq_true_iff.mp hboth
      obtain rfl := eq_of_beq hother
      obtain ⟨joint, position', rfl⟩ := afterPunct_single hafter
      exact ⟨position, joint, position', rfl⟩
    . cases hafter

theorem single_of_sign_eq_ok {u : Unit} (htext : text.toList = [c]) (h : sign text r = .ok (u, s)) :
    ∃ joint position, r.trees = .punct c joint position :: s.trees ∧ s.leftover = r.leftover ∧
      s.width = r.width := by
  obtain ⟨rest, hrest, rfl⟩ := Carries.sign_eq_ok h
  rw [afterSign?, htext] at hrest
  obtain ⟨joint, position, htrees⟩ := afterPunct_single hrest
  exact ⟨joint, position, htrees, rfl, rfl⟩

theorem colons_of_sign_eq_ok {u : Unit} (h : sign "::" r = .ok (u, s)) :
    ∃ position joint position',
      r.trees = .punct ':' true position :: .punct ':' joint position' :: s.trees := by
  obtain ⟨rest, hrest, rfl⟩ := Carries.sign_eq_ok h
  exact afterPunct_pair (c := ':') (d := ':') hrest

theorem skipSign_eq_ok {b : Bool} (h : skipSign text r = .ok (b, s)) :
    (b = true ∧ sign text r = .ok ((), s)) ∨
      (b = false ∧ s = r ∧ startsSign text r.trees = false) := by
  have h : (if startsSign text r.trees then sign text >>= fun _ => Pure.pure true
    else Pure.pure false : Parser Bool) r = .ok (b, s) := h
  split at h
  . obtain ⟨u, s', hsign, h⟩ := Carries.bind_eq_ok h
    cases h
    exact .inl ⟨rfl, hsign⟩
  . next hstarts =>
    cases h
    exact .inr ⟨rfl, rfl, Bool.eq_false_iff.mpr hstarts⟩

end Bindings.Native.Grammar

namespace Bindings.Native.Directive

open Grammar

namespace Clause

variable {k : Option String} {path row rest : List TokenTree} {names : List String} {r s : Reader}

def laterName : Parser String := do
  sign "::"
  anyWord

def laterNames : Parser (List String) :=
  whileAhead (startsSign "::") laterName

theorem key_eq : Directive.key = (do
    let global ← skipSign "::"
    let name ← key.first
    let others ← laterNames
    return if global || !others.isEmpty then none else some name) :=
  rfl

theorem Behind.loops (h : Behind names row) (hrest : startsSign "::" rest = false)
    (earlier : List String) :
    Takes.Loops (whileAhead.step (startsSign "::") laterName) earlier (row ++ rest)
      (earlier.reverse ++ names) rest := by
  induction h generalizing earlier with
  | nil =>
    refine .done ((Takes.ahead _ rest).bind ?_)
    rw [hrest, List.append_nil]
    exact .pure _ rest
  | @cons _ row joint position position' place name h ih =>
    have hname : Takes laterName
        (.punct ':' true position :: .punct ':' joint position' :: .word name place :: row ++ rest)
        name (row ++ rest) :=
      (Takes.sign (by simp) rfl).bind (.anyWord name place _)
    refine .next ((Takes.ahead _ _).bind (hname.bind (.pure (Sum.inl (name :: earlier)) _))) ?_ ?_
    . simp only [List.cons_append, List.length_cons]
      omega
    . have := ih (name :: earlier)
      rwa [List.reverse_cons, List.append_assoc] at this

theorem first_takes (name : String) (position : Position) (rest : List TokenTree) :
    Takes key.first (.word name position :: rest) name rest :=
  (Takes.trees _).bind (.anyWord name position rest)

theorem Path.takes (h : Path k path) (hrest : startsSign "::" rest = false) :
    Takes Directive.key (path ++ rest) k rest := by
  rw [key_eq]
  cases h with
  | name name position =>
    have hnone : Takes laterNames rest [] rest := (Behind.nil.loops hrest []).takes
    exact (Takes.skipSign_false rfl).bind <| (first_takes name position rest).bind <|
      hnone.bind (.pure _ rest)
  | long name position h hnames =>
    have hothers : Takes laterNames (_ ++ rest) _ rest := (h.loops hrest []).takes
    refine (Takes.skipSign_false rfl).bind <| (first_takes name position _).bind <|
      hothers.bind ?_
    cases h with
    | nil => exact absurd rfl hnames
    | cons => exact .pure _ rest
  | global h hnames =>
    cases h with
    | nil => exact absurd rfl hnames
    | cons joint position position' place name h =>
      have hothers : Takes laterNames (_ ++ rest) _ rest := (h.loops hrest []).takes
      exact (Takes.skipSign_true (by simp) rfl).bind <| (first_takes name place _).bind <|
        hothers.bind (.pure _ rest)

theorem first_eq_ok {name : String} (h : key.first r = .ok (name, s)) :
    ∃ position, r.trees = .word name position :: s.trees := by
  have h : (if startsSomeWord r.trees then anyWord
    else if r.trees.isEmpty then lacks [.nestedAttribute]
    else if startsLiteral r.trees then complain .literalAsArgument
    else complain .tokenAsArgument : Parser String) r = .ok (name, s) := h
  split at h
  . obtain ⟨position, rest, htrees, rfl⟩ := Carries.anyWord_eq_ok h
    exact ⟨position, htrees⟩
  . split at h
    . cases h
    . split at h <;> cases h

theorem behind_of_go_eq_ok {count : Nat} {earlier others : List String}
    (h : repeating.go (whileAhead.step (startsSign "::") laterName) count earlier r
      = .ok (others, s)) :
    ∃ names row, Behind names row ∧ r.trees = row ++ s.trees ∧
      others = earlier.reverse ++ names := by
  induction count generalizing earlier r with
  | zero => cases h
  | succ count ih =>
    have hstep : ∀ {result s}, whileAhead.step (startsSign "::") laterName earlier r
        = .ok (result, s) →
        (∃ name, laterName r = .ok (name, s) ∧ result = .inl (name :: earlier)) ∨
          (s = r ∧ result = .inr earlier.reverse) := by
      intro result s h
      have h : (if startsSign "::" r.trees then
          laterName >>= fun name => Pure.pure (.inl (name :: earlier))
        else Pure.pure (.inr earlier.reverse) : Parser _) r = .ok (result, s) := h
      split at h
      . obtain ⟨name, s', hname, h⟩ := Carries.bind_eq_ok h
        cases h
        exact .inl ⟨name, hname, rfl⟩
      . cases h
        exact .inr ⟨rfl, rfl⟩
    obtain ⟨next, r₁, hnext, h⟩ | h := Carries.go_eq_ok h
    . obtain ⟨name, hname, heq⟩ | ⟨-, heq⟩ := hstep hnext
      . cases heq
        obtain ⟨u, r₂, hsign, hword⟩ := Carries.bind_eq_ok hname
        obtain ⟨position, joint, position', hcolons⟩ := colons_of_sign_eq_ok hsign
        obtain ⟨place, rest, hplace, rfl⟩ := Carries.anyWord_eq_ok hword
        obtain ⟨names, row, hbehind, hrow, rfl⟩ := ih h
        refine ⟨name :: names, _, hbehind.cons joint position position' place name, ?_, ?_⟩
        . rw [hcolons, hplace, show rest = row ++ s.trees from hrow]
          rfl
        . rw [List.reverse_cons, List.append_assoc]
          rfl
      . cases heq
    . obtain ⟨name, -, heq⟩ | ⟨rfl, heq⟩ := hstep h
      . cases heq
      . cases heq
        exact ⟨[], [], .nil, rfl, (List.append_nil _).symm⟩

theorem path_of_eq_ok (h : Directive.key r = .ok (k, s)) :
    ∃ path, Path k path ∧ r.trees = path ++ s.trees := by
  rw [key_eq] at h
  obtain ⟨global, r₁, hglobal, h⟩ := Carries.bind_eq_ok h
  obtain ⟨name, r₂, hname, h⟩ := Carries.bind_eq_ok h
  obtain ⟨others, r₃, hothers, h⟩ := Carries.bind_eq_ok h
  cases h
  obtain ⟨position, hposition⟩ := first_eq_ok hname
  obtain ⟨names, row, hbehind, hrow, rfl⟩ := behind_of_go_eq_ok hothers
  obtain ⟨rfl, hsign⟩ | ⟨rfl, rfl, -⟩ := skipSign_eq_ok hglobal
  . obtain ⟨place, joint, place', hcolons⟩ := colons_of_sign_eq_ok hsign
    refine ⟨_, .global (hbehind.cons joint place place' position name) (List.cons_ne_nil _ _), ?_⟩
    rw [hcolons, hposition, hrow]
    rfl
  . cases others with
    | nil =>
      cases hbehind
      exact ⟨_, .name name position, hposition.trans (congrArg _ hrow)⟩
    | cons other others =>
      refine ⟨_, .long name position hbehind (List.cons_ne_nil _ _), ?_⟩
      rw [hposition, hrow]
      rfl

theorem key_carries {n : Nat} : Carries .whole n never Directive.key Directive.key := by
  have hlater : Carries .whole n always laterName laterName := by
    have hword : Carries .whole n always Grammar.anyWord Grammar.anyWord := .anyWord
    exact (Carries.sign "::" (by decide)).bind fun _ => hword
  refine (Carries.skipSignWhole "::" (by decide)).weak.bind fun global => ?_
  refine Carries.bind (Carries.treesWhole fun trees => ?_) fun name => ?_
  . exact .ite .anyWord (.ite (.lacks _ _) (.ite (.complain _ _) (.complain _ _)))
  . exact (Carries.whileAhead (Frame.blind_whole _) hlater).bind fun others => .pure _ rfl

end Clause

end Bindings.Native.Directive
