import Bindings.Options
import Bindings.Proofs.Text.OneLine

/-!
This module contains how names are read off the lines of an artifact: a line that begins with the
declarator gives the name behind its keyword. It also contains which lines give a name and which
ones do not.
-/

namespace Bindings.Artifact

open Text

def keywords : List String :=
  ["interface ", "type ", "function "]

def declaredName? (o : Options) (line : List Char) : Option String :=
  let rest := line.drop o.declarator.toList.length
  (keywords.find? (·.toList.isPrefixOf rest)).map fun keyword =>
    String.ofList ((rest.drop keyword.toList.length).takeWhile Identifier.isContinue)

def declaredNames (o : Options) (lines : List (List Char)) : List (Option String) :=
  (lines.filter (o.declarator.toList.isPrefixOf ·)).map (declaredName? o)

theorem declaredNames_append (o : Options) (lines others : List (List Char)) :
    declaredNames o (lines ++ others) = declaredNames o lines ++ declaredNames o others := by
  unfold declaredNames
  rw [List.filter_append, List.map_append]

def BeginsWith (c : Char) (text : String) : Prop :=
  ∃ cs, text.toList = c :: cs

theorem BeginsWith.append {c : Char} {text : String} (h : BeginsWith c text) (other : String) :
    BeginsWith c (text ++ other) := by
  obtain ⟨cs, heq⟩ := h
  refine ⟨cs ++ other.toList, ?_⟩
  rw [String.toList_append, heq, List.cons_append]

theorem declaredName?_eq_some {o : Options} {keyword name rest : String} {c : Char}
    (hkeyword : keyword ∈ keywords) (hname : Identifier.isIdentifier name = true)
    (hrest : BeginsWith c rest) (hc : Identifier.isContinue c = false) :
    declaredName? o (o.declarator ++ keyword ++ name ++ rest).toList = some name := by
  obtain ⟨cs, heq⟩ := hrest
  have hdrop : (o.declarator ++ keyword ++ name ++ rest).toList.drop o.declarator.toList.length
      = keyword.toList ++ (name.toList ++ rest.toList) := by
    simp only [String.toList_append, List.append_assoc, List.drop_left]
  have hfind : ∀ cs : List Char,
      keywords.find? (·.toList.isPrefixOf (keyword.toList ++ cs)) = some keyword := by
    intro cs
    simp only [keywords, List.mem_cons, List.not_mem_nil, or_false] at hkeyword
    rcases hkeyword with rfl | rfl | rfl
    . rfl
    . rfl
    . rfl
  have htake : (name.toList ++ rest.toList).takeWhile Identifier.isContinue = name.toList := by
    rw [List.takeWhile_append_of_pos (Identifier.isContinue_of_mem hname), heq]
    simp only [List.takeWhile_cons, hc, Bool.false_eq_true, if_false, List.append_nil]
  unfold declaredName?
  rw [hdrop]
  simp only [hfind, Option.map_some, List.drop_left, htake, String.ofList_toList]

theorem declarator_toList (o : Options) : ∃ first word, o.declarator.toList = first :: word ++ [' ']
    ∧ ∀ c ∈ first :: word, Identifier.isContinue c = true := by
  unfold Options.declarator
  split
  . exact ⟨'e', ['x', 'p', 'o', 'r', 't'], rfl, List.all_eq_true.1 rfl⟩
  . exact ⟨'d', ['e', 'c', 'l', 'a', 'r', 'e'], rfl, List.all_eq_true.1 rfl⟩

def Plain (o : Options) (line : String) : Prop :=
  ¬ o.declarator.toList <+: line.toList

theorem BeginsWith.plain {o : Options} {c : Char} {line : String} (h : BeginsWith c line)
    (hc : Identifier.isContinue c = false) : Plain o line := by
  obtain ⟨cs, heq⟩ := h
  obtain ⟨first, word, hdeclarator, hword⟩ := declarator_toList o
  intro hprefix
  rw [heq, hdeclarator, List.cons_append, List.cons_prefix_cons] at hprefix
  rw [← hprefix.1, hword first List.mem_cons_self] at hc
  cases hc

theorem plain_empty (o : Options) : Plain o "" := by
  obtain ⟨first, word, hdeclarator, _⟩ := declarator_toList o
  intro hprefix
  rw [hdeclarator] at hprefix
  cases List.prefix_nil.1 hprefix

theorem plain_of_identifier {o : Options} {name rest : String} {c : Char}
    (hname : Identifier.isIdentifier name = true) (hrest : BeginsWith c rest)
    (hc : Identifier.isContinue c = false) (hspace : c ≠ ' ') : Plain o (name ++ rest) := by
  obtain ⟨cs, hlist⟩ := hrest
  obtain ⟨first, word, hdeclarator, hword⟩ := declarator_toList o
  rintro ⟨suffix, heq⟩
  -- The name may be the word of the declarator. What follows the longest name tells them apart.
  rw [hdeclarator, String.toList_append, hlist, List.append_assoc] at heq
  have hdrop := congrArg (List.dropWhile Identifier.isContinue) heq
  rw [List.dropWhile_append_of_pos hword,
    List.dropWhile_append_of_pos (Identifier.isContinue_of_mem hname)] at hdrop
  simp only [List.cons_append, List.nil_append, List.dropWhile_cons, hc, Bool.false_eq_true,
    if_false] at hdrop
  have hfalse : Identifier.isContinue ' ' = false := by decide
  rw [hfalse] at hdrop
  simp only [Bool.false_eq_true, if_false, List.cons.injEq] at hdrop
  exact hspace hdrop.1.symm

structure Inert (o : Options) (line : String) : Prop where
  oneLine : OneLine line
  plain : Plain o line

def Blank (margin : String) : Prop :=
  ∀ c ∈ margin.toList, c = ' '

theorem blank_empty : Blank "" := by
  intro c hmem
  cases hmem

theorem blank_margin (o : Options) : Blank o.margin := by
  intro c hmem
  unfold Options.margin at hmem
  rw [String.toList_ofList] at hmem
  exact List.eq_of_mem_replicate hmem

theorem Inert.indent {o : Options} {margin line : String} (hmargin : Blank margin)
    (h : Inert o line) : Inert o (margin ++ line) := by
  constructor
  . rw [oneLine_append]
    refine ⟨?_, h.oneLine⟩
    intro hfeed
    have hspace := hmargin _ hfeed
    revert hspace
    decide
  . cases hlist : margin.toList with
    | nil =>
      unfold Plain
      rw [String.toList_append, hlist]
      exact h.plain
    | cons c cs =>
      have hspace : c = ' ' := by
        apply hmargin
        rw [hlist]
        exact List.mem_cons_self
      rw [hspace] at hlist
      have hmargin : BeginsWith ' ' margin := ⟨cs, hlist⟩
      exact (hmargin.append line).plain (by decide)

structure Declares (o : Options) (lines names : List String) : Prop where
  oneLine : ∀ line ∈ lines, OneLine line
  declared : declaredNames o (lines.map String.toList) = names.map some

namespace Declares

theorem append {o : Options} {lines others names more : List String} (h : Declares o lines names)
    (hothers : Declares o others more) : Declares o (lines ++ others) (names ++ more) := by
  constructor
  . intro line hmem
    cases List.mem_append.1 hmem with
    | inl hmem => exact h.oneLine line hmem
    | inr hmem => exact hothers.oneLine line hmem
  . rw [List.map_append, declaredNames_append, h.declared, hothers.declared, List.map_append]

theorem of_inert {o : Options} {lines : List String} (h : ∀ line ∈ lines, Inert o line) :
    Declares o lines [] := by
  constructor
  . intro line hmem
    exact (h line hmem).oneLine
  . have hnone : (lines.map String.toList).filter (o.declarator.toList.isPrefixOf ·) = [] := by
      rw [List.filter_eq_nil_iff]
      intro cs hmem hprefix
      obtain ⟨line, hline, heq⟩ := List.mem_map.1 hmem
      subst heq
      exact (h line hline).plain (List.isPrefixOf_iff_prefix.1 hprefix)
    unfold declaredNames
    rw [hnone]
    rfl

theorem empty (o : Options) : Declares o [""] [] := by
  apply of_inert
  rw [List.forall_mem_singleton]
  exact ⟨by decide, plain_empty o⟩

theorem head {o : Options} {keyword name rest : String} {c : Char} (hkeyword : keyword ∈ keywords)
    (hname : Identifier.isIdentifier name = true) (hrest : BeginsWith c rest)
    (hc : Identifier.isContinue c = false) (honeLine : OneLine rest) :
    Declares o [o.declarator ++ keyword ++ name ++ rest] [name] := by
  have hdeclarator : OneLine o.declarator := by
    unfold Options.declarator
    split
    . decide
    . decide
  have hall : ∀ keyword ∈ keywords, OneLine keyword := by decide
  constructor
  . rw [List.forall_mem_singleton]
    simp only [oneLine_append]
    exact ⟨⟨⟨hdeclarator, hall keyword hkeyword⟩, Identifier.oneLine hname⟩, honeLine⟩
  . have hprefix : o.declarator.toList.isPrefixOf
        (o.declarator ++ keyword ++ name ++ rest).toList = true := by
      rw [List.isPrefixOf_iff_prefix]
      simp only [String.toList_append, List.append_assoc]
      exact List.prefix_append _ _
    unfold declaredNames
    rw [List.map_singleton, List.filter_cons_of_pos hprefix, List.filter_nil, List.map_singleton,
      declaredName?_eq_some hkeyword hname hrest hc]
    rfl

theorem flatMap {o : Options} {elements : List α} {lines : α → List String} {name : α → String}
    (h : ∀ element ∈ elements, Declares o (lines element) [name element]) :
    Declares o (elements.flatMap lines) (elements.map name) := by
  induction elements with
  | nil => exact of_inert (List.forall_mem_nil _)
  | cons element elements ih =>
    rw [List.forall_mem_cons] at h
    exact h.1.append (ih h.2)

end Declares

end Bindings.Artifact
