import Bindings.Proofs.Text.Tree
import Bindings.Proofs.Text.Word

/-!
This module contains the assignments of a text and the names that their values expose: those that
stand outside of all groups, or in no group but parentheses.
-/

namespace Bindings.Text

inductive Piece
  | sign (c : Char)
  | other (names : List String)

namespace Piece

def sign? : Piece → Option Char
  | sign c => some c
  | other _ => none

def isOperator : Piece → Bool
  | sign c => ['&', '|'].contains c
  | other _ => false

end Piece

/--
The names that an operand exposes. It is a name itself, or what it is made of exposes names if
nothing follows it.
-/
def operandNames (operand : List Piece) : List String :=
  if operand.all (·.sign?.isSome) then
    finished (operand.filterMap Piece.sign?)
  else
    match operand with
    | [.other names] => names
    | _ => []

def pieceNames (pieces : List Piece) : List String :=
  (pieces.splitOnP Piece.isOperator).flatMap operandNames

mutual

def pieces : List Tree → List Piece
  | [] => []
  | tree :: trees => if tree.isBlank then pieces trees else pieceOf tree :: pieces trees
termination_by structural trees => trees

def pieceOf : Tree → Piece
  | .sign c => .sign c
  | .literal _ => .other []
  | .group opening inner => .other (if opening == '(' then pieceNames (pieces inner) else [])
termination_by structural tree => tree

end

def exposed (trees : List Tree) : List String :=
  pieceNames (pieces trees)

/--
A statement ends with its semicolon or with the braces of its body.
-/
def Tree.endsStatement : Tree → Bool
  | sign c => c == ';'
  | literal _ => false
  | group opening _ => opening == '\x7b'

def headedName (heading : List Tree) : String :=
  Tree.word ((heading.reverse.dropWhile Tree.isBlank).takeWhile (!·.isBlank)).reverse

/--
The names that statements assign values to, each with the names that its value exposes, behind what
has been read of a statement.
-/
def assignmentsFrom (heading : List Tree) : List Tree → List (String × List String)
  | [] => []
  | tree :: trees =>
    if tree.isMark ['='] then
      (headedName heading, exposed (trees.takeWhile (!·.isMark [';']))) :: assignmentsFrom [] trees
    else if tree.endsStatement || (heading.isEmpty && tree.isBlank) then
      assignmentsFrom [] trees
    else
      assignmentsFrom (heading ++ [tree]) trees

def assignments (text : String) : Option (List (String × List String)) :=
  (trees? text).map (assignmentsFrom [])

example : assignments "interface A \x7b b: C; \x7d\ntype D = \x7b e: A \x7d & (F | G[]) | \"H\";"
    = some [("D", ["F"])] := by decide +kernel

section Exposed

variable {trees more separator : List Tree}

theorem pieces_eq_map (trees : List Tree) :
    pieces trees = (trees.filter (!·.isBlank)).map pieceOf := by
  induction trees with
  | nil => rfl
  | cons tree trees ih =>
    rw [pieces, List.filter_cons, ih]
    cases tree.isBlank with
    | true => rfl
    | false => rfl

theorem pieces_append (trees more : List Tree) :
    pieces (trees ++ more) = pieces trees ++ pieces more := by
  rw [pieces_eq_map, pieces_eq_map, pieces_eq_map, List.filter_append, List.map_append]

theorem pieces_blank (h : ∀ tree ∈ trees, tree.isBlank = true) : pieces trees = [] := by
  rw [pieces_eq_map, List.map_eq_nil_iff, List.filter_eq_nil_iff]
  intro tree hmem
  simp [h tree hmem]

theorem pieces_spelled {name : String} (h : Identifier.isIdentifier name = true) :
    pieces (spelled name) = name.toList.map .sign := by
  rw [pieces_eq_map, filter_isBlank_spelled h, spelled, List.map_map]
  rfl

theorem exposed_spelled {name : String} (h : Identifier.isIdentifier name = true) :
    exposed (spelled name) = [name] := by
  have hone : (name.toList.map Piece.sign).splitOnP Piece.isOperator
      = [name.toList.map Piece.sign] := by
    apply List.splitOnP_eq_singleton
    intro piece hmem
    obtain ⟨c, hc, rfl⟩ := List.mem_map.1 hmem
    have hplain := Identifier.not_mem_of_mem h (by decide : ['&', '|'].all _ = true) c hc
    rwa [Piece.isOperator, List.contains_eq_mem, decide_eq_false_iff_not]
  have hnonempty : name.toList ≠ [] := fun hnil =>
    spelled_ne_nil h (by rw [spelled, hnil, List.map_nil])
  have hsigns : (name.toList.map Piece.sign).filterMap Piece.sign? = name.toList := by
    rw [List.filterMap_map]
    exact List.filterMap_some
  have hall : (name.toList.map Piece.sign).all (·.sign?.isSome) = true := by
    simp [Piece.sign?]
  rw [exposed, pieces_spelled h, pieceNames, hone, List.flatMap_singleton]
  unfold operandNames
  rw [if_pos hall, hsigns, finished_toList hnonempty]

theorem exposed_append {c : Char} (hseparator : pieces separator = [.sign c])
    (hc : ['&', '|'].contains c = true) :
    exposed (trees ++ separator ++ more) = exposed trees ++ exposed more := by
  have hoperator : Piece.isOperator (.sign c) = true := hc
  rw [exposed, pieces_append, pieces_append, hseparator, List.append_assoc, List.singleton_append,
    pieceNames, List.splitOnP_append_cons _ _ hoperator, List.flatMap_append]
  rfl

theorem exposed_round (trees : List Tree) : exposed [.group '(' trees] = exposed trees := by
  have hone : exposed [.group '(' trees] = operandNames [.other (exposed trees)] ++ [] := rfl
  rw [hone, List.append_nil]
  rfl

theorem exposed_eq_nil {opening : Char} {inner : List Tree} (hmarked : Marked [] trees)
    (hopening : opening ≠ '(') (hmem : .group opening inner ∈ trees) : exposed trees = [] := by
  have hone : (pieces trees).splitOnP Piece.isOperator = [pieces trees] := by
    apply List.splitOnP_eq_singleton
    intro piece hpiece
    rw [pieces_eq_map] at hpiece
    obtain ⟨tree, htree, rfl⟩ := List.mem_map.1 hpiece
    have hplain := hmarked.isMark_eq_false (by decide : ['&', '|'].all _ = true) tree
      (List.mem_filter.1 htree).1
    cases tree with
    | sign c => exact hplain
    | literal => rfl
    | group => rfl
  have hother : .other [] ∈ pieces trees := by
    rw [pieces_eq_map]
    refine List.mem_map.2 ⟨_, List.mem_filter.2 ⟨hmem, rfl⟩, ?_⟩
    rw [pieceOf, if_neg (by simpa using hopening)]
  have hsigns : ¬ (pieces trees).all (·.sign?.isSome) = true := by
    intro hall
    cases List.all_eq_true.1 hall _ hother
  rw [exposed, pieceNames, hone, List.flatMap_singleton]
  unfold operandNames
  rw [if_neg hsigns]
  split
  . next heq =>
    rw [heq, List.mem_singleton] at hother
    injection hother with hnames
    exact hnames.symm
  . rfl

end Exposed

section Assignments

variable {heading trees rest : List Tree} {tree : Tree}

theorem assignmentsFrom_blank (h : ∀ tree ∈ trees, tree.isBlank = true) (rest : List Tree) :
    assignmentsFrom [] (trees ++ rest) = assignmentsFrom [] rest := by
  induction trees with
  | nil => rfl
  | cons tree trees ih =>
    rw [List.forall_mem_cons] at h
    have hequals := isMark_of_isBlank (by decide : ' ' ∉ ['='] ∧ '\n' ∉ ['=']) h.1
    rw [List.cons_append, assignmentsFrom, hequals, h.1, if_neg Bool.false_ne_true,
      if_pos (by simp), ih h.2]

theorem assignmentsFrom_unassigned (h : ∀ tree ∈ trees, tree.isMark ['='] = false)
    (hend : tree.endsStatement = true) (rest : List Tree) :
    assignmentsFrom heading (trees ++ tree :: rest) = assignmentsFrom [] rest := by
  have hequals : tree.isMark ['='] = false := by
    cases tree with
    | sign c =>
      have hc : c = ';' := by simpa [Tree.endsStatement] using hend
      rw [hc]
      rfl
    | literal => rfl
    | group => rfl
  induction trees generalizing heading with
  | nil => rw [List.nil_append, assignmentsFrom, hequals, hend]; rfl
  | cons first trees ih =>
    rw [List.forall_mem_cons] at h
    rw [List.cons_append, assignmentsFrom, h.1, if_neg Bool.false_ne_true]
    split
    . exact ih h.2
    . exact ih h.2

theorem assignmentsFrom_heading
    (h : ∀ tree ∈ trees, tree.isMark ['='] = false ∧ tree.endsStatement = false)
    (hheading : heading ≠ []) (rest : List Tree) :
    assignmentsFrom heading (trees ++ rest) = assignmentsFrom (heading ++ trees) rest := by
  induction trees generalizing heading with
  | nil => rw [List.nil_append, List.append_nil]
  | cons tree trees ih =>
    rw [List.forall_mem_cons] at h
    have hempty : heading.isEmpty = false := by simpa using hheading
    have hnext : heading ++ [tree] ≠ [] := by simp
    rw [List.cons_append, assignmentsFrom, h.1.1, h.1.2, hempty, if_neg Bool.false_ne_true,
      if_neg (by simp), ih h.2 hnext, List.append_assoc, List.singleton_append]

theorem assignmentsFrom_assigned {first : Tree} {value : List Tree}
    (hfirst : first.isBlank = false)
    (hheading : ∀ tree ∈ first :: heading, tree.isMark ['='] = false ∧ tree.endsStatement = false)
    (hvalue : ∀ tree ∈ value, tree.isMark ['=', ';'] = false) (rest : List Tree) :
    assignmentsFrom [] (first :: heading ++ .sign '=' :: (value ++ .sign ';' :: rest))
      = (headedName (first :: heading), exposed value) :: assignmentsFrom [] rest := by
  have hequals : ∀ tree ∈ value, tree.isMark ['='] = false :=
    fun tree hmem => isMark_mono (by decide) (hvalue tree hmem)
  have htake : (value ++ .sign ';' :: rest).takeWhile (!·.isMark [';']) = value := by
    rw [List.takeWhile_append_of_pos, List.takeWhile_cons_of_neg, List.append_nil]
    . simp [Tree.isMark]
    . intro tree hmem
      rw [isMark_mono (by decide : [';'] ⊆ ['=', ';']) (hvalue tree hmem)]
      rfl
  have hsign : Tree.isMark ['='] (.sign '=') = true := rfl
  rw [List.forall_mem_cons] at hheading
  rw [List.cons_append, assignmentsFrom, hheading.1.1, hheading.1.2, hfirst,
    if_neg Bool.false_ne_true, if_neg (by simp), List.nil_append,
    assignmentsFrom_heading hheading.2 (List.cons_ne_nil _ _), List.singleton_append,
    assignmentsFrom, if_pos hsign, htake, assignmentsFrom_unassigned hequals rfl]

theorem headedName_append {name : String} (h : Identifier.isIdentifier name = true)
    (before : List Tree) :
    headedName (before ++ [.sign ' '] ++ spelled name ++ [.sign ' ']) = name := by
  have hspace : Tree.isBlank (.sign ' ') = true := rfl
  have hplain : ∀ tree ∈ (spelled name).reverse, (!tree.isBlank) = true := by
    intro tree hmem
    rw [Tree.isBlank, isMark_spelled h rfl tree (List.mem_reverse.1 hmem)]
    rfl
  -- Read from its end, the heading is a space, the name and another space.
  have hdrop : ((spelled name).reverse ++ .sign ' ' :: before.reverse).dropWhile Tree.isBlank
      = (spelled name).reverse ++ .sign ' ' :: before.reverse := by
    cases hreverse : (spelled name).reverse with
    | nil => exact absurd (List.reverse_eq_nil_iff.1 hreverse) (spelled_ne_nil h)
    | cons first others =>
      have hfirst := hplain first (hreverse ▸ List.mem_cons_self)
      rw [List.cons_append, List.dropWhile_cons_of_neg (by simpa using hfirst)]
  have hsplit : (before ++ [Tree.sign ' '] ++ spelled name ++ [Tree.sign ' ']).reverse
      = Tree.sign ' ' :: ((spelled name).reverse ++ Tree.sign ' ' :: before.reverse) := by
    simp
  rw [headedName, hsplit, List.dropWhile_cons_of_pos hspace, hdrop,
    List.takeWhile_append_of_pos hplain, List.takeWhile_cons_of_neg (by simp [hspace]),
    List.append_nil, List.reverse_reverse, word_spelled h]

end Assignments

def Assigns (text name other : String) : Prop :=
  ∃ list, assignments text = some list ∧ ∃ names, (name, names) ∈ list ∧ other ∈ names

end Bindings.Text
