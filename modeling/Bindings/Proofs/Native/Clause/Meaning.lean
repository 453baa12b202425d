import Bindings.Proofs.Native.Clause.Basic
import Mathlib.Data.List.Forall2
import Mathlib.Data.List.Induction

/-!
This module contains what the arguments of `serde` attributes ask for together, which of them count,
and that nothing else depends on them.
-/

namespace Bindings.Native.Directive

namespace Clause

def modelled : List String :=
  ["rename", "rename_all", "skip", "skip_serializing", "tag", "content", "untagged", "flatten"]

def isNamed (clause : Clause) (name : String) : Bool :=
  clause.key == some name

def core : Clause → Clause
  | .list key clauses => .list key (clauses.filter (·.isNamed "serialize"))
  | clause => clause

/--
What counts of arguments: those with a modelled name, and of their own arguments the names for
serialization.
-/
def relevant (clauses : List Clause) : List Clause :=
  (clauses.filter fun clause => modelled.any clause.isNamed).map core

def text? : Clause → Option String
  | .value _ text => text
  | _ => none

/--
The name for serialization that an argument supplies: its value or the value that its own argument
`serialize` has last.
-/
def supplied? : Clause → Option String
  | .list _ clauses => ((clauses.filter (·.isNamed "serialize")).filterMap text?).getLast?
  | clause => clause.text?

def lastSupplied? (name : String) (clauses : List Clause) : Option String :=
  ((clauses.filter (·.isNamed name)).filterMap supplied?).getLast?

def directives (clauses : List Clause) : Directives where
  rename := lastSupplied? "rename" clauses
  renameAll := (lastSupplied? "rename_all" clauses).bind RenameRule.ofName?
  skip := clauses.any fun clause => clause.isNamed "skip" || clause.isNamed "skip_serializing"
  tag := lastSupplied? "tag" clauses
  content := lastSupplied? "content" clauses
  untagged := clauses.any (·.isNamed "untagged")
  flatten := clauses.any (·.isNamed "flatten")

/-! What is right for single arguments -/

def isBare : Clause → Bool
  | .bare _ => true
  | _ => false

def supplies : Clause → Bool
  | .bare _ => false
  | .value _ text => text.isSome
  | .list _ clauses => (clauses.filter (·.isNamed "serialize")).all (·.text?.isSome)

def ofRule? : Option String → Option Directive
  | some name => (RenameRule.ofName? name).map .renameAll
  | none => some .inert

def directive? (clause : Clause) : Option Directive :=
  match clause.key with
  | some "rename" =>
    if clause.supplies then some ((clause.supplied?.map .rename).getD .inert) else none
  | some "rename_all" => if clause.supplies then ofRule? clause.supplied? else none
  | some "skip" | some "skip_serializing" => if clause.isBare then some .skip else none
  | some "tag" => clause.text?.map .tag
  | some "content" => clause.text?.map .content
  | some "untagged" => if clause.isBare then some .untagged else none
  | some "flatten" => if clause.isBare then some .flatten else none
  | _ => some .inert

variable {clause : Clause} {clauses clauses' : List Clause} {name text : String}

theorem supplied?_of_text? (h : clause.text? = some text) : clause.supplied? = some text := by
  cases clause with
  | bare | list => cases h
  | value => exact h

theorem supplies_of_text? (h : clause.text? = some text) : clause.supplies := by
  cases clause with
  | bare | list => cases h
  | value => exact Option.isSome_of_mem h

def Accepted (clauses : List Clause) : Prop :=
  ∀ clause ∈ clauses, clause.directive?.isSome

theorem accepted_append : Accepted (clauses ++ clauses') ↔ Accepted clauses ∧ Accepted clauses' :=
  List.forall_mem_append

theorem forall₂_directive?_iff {directives : List Directive} :
    List.Forall₂ (fun clause directive => clause.directive? = some directive) clauses directives ↔
      Accepted clauses ∧ clauses.filterMap directive? = directives := by
  induction clauses generalizing directives with
  | nil =>
    constructor
    . rintro ⟨⟩
      exact ⟨nofun, rfl⟩
    . rintro ⟨-, rfl⟩
      exact .nil
  | cons clause clauses ih =>
    constructor
    . rintro ⟨⟩
      next directive directives h hs =>
      obtain ⟨haccepted, rfl⟩ := ih.mp hs
      exact ⟨List.forall_mem_cons.mpr ⟨Option.isSome_of_mem h, haccepted⟩,
        List.filterMap_cons_some h⟩
    . rintro ⟨haccepted, rfl⟩
      obtain ⟨hsome, haccepted⟩ := List.forall_mem_cons.mp haccepted
      obtain ⟨directive, h⟩ := Option.isSome_iff_exists.mp hsome
      rw [List.filterMap_cons_some h]
      exact .cons h (ih.mpr ⟨haccepted, rfl⟩)

/-! What counts -/

@[simp]
theorem key_core (clause : Clause) : clause.core.key = clause.key := by
  cases clause <;> rfl

@[simp]
theorem isNamed_core (clause : Clause) (name : String) :
    clause.core.isNamed name = clause.isNamed name := by
  rw [isNamed, key_core, isNamed]

@[simp]
theorem text?_core (clause : Clause) : clause.core.text? = clause.text? := by
  cases clause <;> rfl

@[simp]
theorem isBare_core (clause : Clause) : clause.core.isBare = clause.isBare := by
  cases clause <;> rfl

@[simp]
theorem supplied?_core (clause : Clause) : clause.core.supplied? = clause.supplied? := by
  cases clause <;> simp [core, supplied?, text?]

@[simp]
theorem supplies_core (clause : Clause) : clause.core.supplies = clause.supplies := by
  cases clause <;> simp [core, supplies]

@[simp]
theorem directive?_core (clause : Clause) : clause.core.directive? = clause.directive? := by
  simp [directive?]

theorem directive?_of_not_modelled (h : modelled.any clause.isNamed = false) :
    clause.directive? = some .inert := by
  unfold directive?
  split <;> simp_all [modelled, isNamed]

theorem modelled_and_isNamed (h : name ∈ modelled) (clause : Clause) :
    (modelled.any clause.isNamed && clause.isNamed name) = clause.isNamed name := by
  cases hname : clause.isNamed name with
  | false => exact Bool.and_false _
  | true => exact (Bool.and_true _).trans (List.any_eq_true.mpr ⟨name, h, hname⟩)

theorem relevant_insert (h : modelled.any clause.isNamed = false) (clauses clauses' : List Clause) :
    relevant (clauses ++ clause :: clauses') = relevant (clauses ++ clauses') := by
  simp only [relevant, List.filter_append, List.filter_cons, h, Bool.false_eq_true, if_false]

theorem filter_isNamed_relevant (h : name ∈ modelled) (clauses : List Clause) :
    (relevant clauses).filter (·.isNamed name) = (clauses.filter (·.isNamed name)).map core := by
  simp only [relevant, List.filter_map, List.filter_filter, Function.comp_def, isNamed_core,
    Bool.and_comm (Clause.isNamed _ name), modelled_and_isNamed h]

theorem lastSupplied?_relevant (h : name ∈ modelled) (clauses : List Clause) :
    lastSupplied? name (relevant clauses) = lastSupplied? name clauses := by
  rw [lastSupplied?, filter_isNamed_relevant h, List.filterMap_map]
  simp only [Function.comp_def, supplied?_core, lastSupplied?]

theorem any_isNamed_relevant (h : name ∈ modelled) (clauses : List Clause) :
    (relevant clauses).any (·.isNamed name) = clauses.any (·.isNamed name) := by
  simp only [relevant, List.any_map, List.any_filter, Function.comp_def, isNamed_core,
    modelled_and_isNamed h]

theorem directives_relevant (clauses : List Clause) :
    directives (relevant clauses) = directives clauses := by
  have hskip : ∀ clauses : List Clause,
      clauses.any (fun clause => clause.isNamed "skip" || clause.isNamed "skip_serializing")
        = (clauses.any (·.isNamed "skip") || clauses.any (·.isNamed "skip_serializing")) := by
    intro clauses
    induction clauses with
    | nil => rfl
    | cons clause clauses ih => simp only [List.any_cons, ih]; ac_rfl
  unfold directives
  rw [hskip, hskip]
  simp (disch := decide) only [lastSupplied?_relevant, any_isNamed_relevant]

theorem accepted_relevant_iff : Accepted (relevant clauses) ↔ Accepted clauses := by
  simp only [Accepted, relevant, List.mem_map, List.mem_filter]
  constructor
  . intro h clause hclause
    cases hmodelled : modelled.any clause.isNamed with
    | false => rw [directive?_of_not_modelled hmodelled, Option.isSome_some]
    | true =>
      rw [← directive?_core]
      exact h _ ⟨clause, ⟨hclause, hmodelled⟩, rfl⟩
  . rintro h _ ⟨clause, ⟨hclause, -⟩, rfl⟩
    rw [directive?_core]
    exact h clause hclause

/-! The last one counts -/

theorem lastSupplied?_concat (name : String) (clauses : List Clause) (clause : Clause) :
    lastSupplied? name (clauses ++ [clause]) =
      if clause.isNamed name then clause.supplied?.or (lastSupplied? name clauses)
      else lastSupplied? name clauses := by
  cases hname : clause.isNamed name with
  | false => simp [lastSupplied?, hname]
  | true => cases hsupplied : clause.supplied? <;> simp [lastSupplied?, hname, hsupplied]

theorem directives_concat {directive : Directive} (clauses : List Clause)
    (h : clause.directive? = some directive) :
    directives (clauses ++ [clause]) = (directives clauses).add directive := by
  simp only [directives, lastSupplied?_concat, List.any_append, List.any_cons, List.any_nil,
    Bool.or_false]
  -- One case for each modelled name, and one for all others.
  unfold directive? at h
  split at h
  . next hkey =>
    split at h
    . cases h
      cases hsupplied : clause.supplied? <;> simp [isNamed, hkey, Directives.add]
    . cases h
  . next hkey =>
    split at h
    . cases hsupplied : clause.supplied? with
      | none =>
        rw [hsupplied] at h
        cases h
        simp [isNamed, hkey, Directives.add]
      | some text =>
        rw [hsupplied] at h
        obtain ⟨rule, hrule, rfl⟩ := Option.map_eq_some_iff.mp h
        simp [isNamed, hkey, hrule, Directives.add]
    . cases h
  . next hkey =>
    split at h <;> cases h
    simp [isNamed, hkey, Directives.add]
  . next hkey =>
    split at h <;> cases h
    simp [isNamed, hkey, Directives.add]
  . next hkey =>
    obtain ⟨text, htext, rfl⟩ := Option.map_eq_some_iff.mp h
    simp [isNamed, hkey, supplied?_of_text? htext, Directives.add]
  . next hkey =>
    obtain ⟨text, htext, rfl⟩ := Option.map_eq_some_iff.mp h
    simp [isNamed, hkey, supplied?_of_text? htext, Directives.add]
  . next hkey =>
    split at h <;> cases h
    simp [isNamed, hkey, Directives.add]
  . next hkey =>
    split at h <;> cases h
    simp [isNamed, hkey, Directives.add]
  . cases h
    simp_all [isNamed, Directives.add]

theorem ofList_filterMap_directive? (h : Accepted clauses) :
    Directives.ofList (clauses.filterMap directive?) = directives clauses := by
  induction clauses using List.reverseRecOn with
  | nil => rfl
  | append_singleton clauses clause ih =>
    obtain ⟨directive, hdirective⟩ := Option.isSome_iff_exists.mp (h clause (by simp))
    rw [directives_concat clauses hdirective, ← ih (accepted_append.mp h).1]
    simp [Directives.ofList, hdirective]

end Clause

end Bindings.Native.Directive
