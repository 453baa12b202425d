import Bindings.Proofs.Text.Lexeme
import Mathlib.Data.List.TakeWhile

/-!
This module contains the reading of a text by its brackets. Outside of comments a text is a list of
signs, literals and groups, and a group holds what stands between two brackets. It also contains
what is read off such lists: the keys of object types and where `&` and `|` would have to be told
apart by their precedence.
-/

namespace Bindings.Text

inductive Tree
  | sign (c : Char)
  | literal (text : List Char)
  /-- What stands between an opening bracket and its partner. -/
  | group (opening : Char) (inner : List Tree)

def spelled (text : String) : List Tree :=
  text.toList.map .sign

/--
The trees of some lexemes. Each open bracket is kept together with the trees before it. None if a
bracket has no partner or two pairs cross.
-/
def grow : List (Char × List Tree) → List Tree → List Lexeme → Option (List Tree)
  | [], trees, [] => some trees
  | _ :: _, _, [] => none
  | frames, trees, .comment _ :: lexemes => grow frames trees lexemes
  | frames, trees, .literal text :: lexemes => grow frames (trees ++ [.literal text]) lexemes
  | frames, trees, .sign c :: lexemes =>
    if !isBracket c then grow frames (trees ++ [.sign c]) lexemes
    else if (brackets.lookup c).isSome then grow ((c, trees) :: frames) [] lexemes
    else
      match frames with
      | (opening, before) :: frames =>
        if (opening, c) ∈ brackets then grow frames (before ++ [.group opening trees]) lexemes
        else none
      | [] => none

/--
The trees of a text. None if it ends inside of a comment, a literal or a group.
-/
def trees? (text : String) : Option (List Tree) :=
  (cut .outside text.toList).bind (grow [] [])

def Grows (lexemes : List Lexeme) (trees : List Tree) : Prop :=
  ∀ frames before rest, grow frames before (lexemes ++ rest) = grow frames (before ++ trees) rest

namespace Grows

variable {lexemes others : List Lexeme} {trees more : List Tree}

theorem nil : Grows [] [] := by
  intro frames before rest
  simp

theorem append (h : Grows lexemes trees) (hothers : Grows others more) :
    Grows (lexemes ++ others) (trees ++ more) := by
  intro frames before rest
  rw [List.append_assoc, h, hothers, List.append_assoc]

theorem comment (text : List Char) : Grows [.comment text] [] := by
  intro frames before rest
  rw [List.singleton_append, List.append_nil]
  cases frames <;> simp only [grow]

theorem literal (text : List Char) : Grows [.literal text] [.literal text] := by
  intro frames before rest
  rw [List.singleton_append, grow]

theorem sign {c : Char} (h : isBracket c = false) : Grows [.sign c] [.sign c] := by
  intro frames before rest
  rw [List.singleton_append, grow.eq_def]
  simp only [h, Bool.not_false, if_true]

theorem signs {text : List Char} (h : ∀ c ∈ text, isBracket c = false) :
    Grows (text.map .sign) (text.map .sign) := by
  induction text with
  | nil => exact nil
  | cons c cs ih =>
    rw [List.forall_mem_cons] at h
    exact (sign h.1).append (ih h.2)

theorem group {opening closing : Char} (hpair : (opening, closing) ∈ brackets)
    (h : Grows lexemes trees) :
    Grows (.sign opening :: lexemes ++ [.sign closing]) [.group opening trees] := by
  have hall : ∀ pair ∈ brackets, isBracket pair.1 = true ∧ (brackets.lookup pair.1).isSome = true
      ∧ isBracket pair.2 = true ∧ (brackets.lookup pair.2).isSome = false := by decide
  obtain ⟨hopening, hopens, hclosing, hcloses⟩ := hall _ hpair
  dsimp only at hopening hopens hclosing hcloses
  intro frames before rest
  rw [List.append_assoc, List.cons_append, grow.eq_def]
  simp only [hopening, hopens, Bool.not_true, Bool.false_eq_true, if_false, if_true]
  rw [h, List.nil_append, List.singleton_append, grow]
  simp only [hclosing, hcloses, hpair, Bool.not_true, Bool.false_eq_true, if_false, if_true]

end Grows

def Reads (text : String) (trees : List Tree) : Prop :=
  ∃ lexemes, Cuts text.toList lexemes ∧ Grows lexemes trees

namespace Reads

variable {text other : String} {trees more : List Tree}

theorem trees?_eq_some (h : Reads text trees) : trees? text = some trees := by
  obtain ⟨lexemes, hcuts, hgrows⟩ := h
  have hgrow := hgrows [] [] []
  rw [List.append_nil] at hgrow
  rw [trees?, hcuts.cut_eq_some, Option.bind_some, hgrow]
  rfl

theorem unique (h : Reads text trees) (hmore : Reads text more) : trees = more :=
  Option.some.inj (h.trees?_eq_some.symm.trans hmore.trees?_eq_some)

theorem append (h : Reads text trees) (hother : Reads other more) :
    Reads (text ++ other) (trees ++ more) := by
  obtain ⟨lexemes, hcuts, hgrows⟩ := h
  obtain ⟨others, hcuts', hgrows'⟩ := hother
  refine ⟨lexemes ++ others, ?_, hgrows.append hgrows'⟩
  rw [String.toList_append]
  exact hcuts.append hcuts'

theorem signs (h : text.toList.all isInert = true) : Reads text (spelled text) := by
  rw [List.all_eq_true] at h
  exact ⟨_, cuts_of_forall fun c hmem => (isInert_cases (h c hmem)).1,
    Grows.signs fun c hmem => (isInert_cases (h c hmem)).2⟩

theorem quoted (name : String) :
    Reads (Quoted.encode name) [.literal (Quoted.encode name).toList] :=
  ⟨_, Quoted.cuts_encode name, Grows.literal _⟩

theorem group {opening closing : Char} (hpair : (opening, closing) ∈ brackets)
    (h : Reads text trees) :
    Reads (String.ofList (opening :: text.toList ++ [closing])) [.group opening trees] := by
  have hpairs : ∀ pair ∈ brackets,
      (pair.1 ≠ '/' ∧ pair.1 ≠ '"') ∧ pair.2 ≠ '/' ∧ pair.2 ≠ '"' := by decide
  have hone : ∀ c, c ≠ '/' ∧ c ≠ '"' → Cuts [c] [.sign c] := by
    intro c hc
    exact cuts_of_forall (List.forall_mem_singleton.2 hc)
  obtain ⟨hopening, hclosing⟩ := hpairs _ hpair
  obtain ⟨lexemes, hcuts, hgrows⟩ := h
  have hall := ((hone opening hopening).append hcuts).append (hone closing hclosing)
  refine ⟨.sign opening :: lexemes ++ [.sign closing], ?_, hgrows.group hpair⟩
  rw [String.toList_ofList]
  exact hall

theorem round (h : Reads text trees) : Reads ("(" ++ text ++ ")") [.group '(' trees] := by
  simpa [String.append_assoc] using h.group (by decide : ('(', ')') ∈ brackets)

theorem square (h : Reads text trees) : Reads ("[" ++ text ++ "]") [.group '[' trees] := by
  simpa [String.append_assoc] using h.group (by decide : ('[', ']') ∈ brackets)

theorem curly (h : Reads text trees) : Reads ("\x7b" ++ text ++ "\x7d") [.group '\x7b' trees] := by
  simpa [String.append_assoc] using h.group (by decide : ('\x7b', '\x7d') ∈ brackets)

theorem angle (h : Reads text trees) : Reads ("<" ++ text ++ ">") [.group '<' trees] := by
  simpa [String.append_assoc] using h.group (by decide : ('<', '>') ∈ brackets)

end Reads

namespace Tree

def isMark (marks : List Char) : Tree → Bool
  | sign c => marks.contains c
  | _ => false

def isBlank : Tree → Bool :=
  isMark [' ', '\n']

def isSign : Tree → Bool
  | sign _ => true
  | _ => false

def isGroup : Tree → Bool
  | group _ _ => true
  | _ => false

def word (trees : List Tree) : String :=
  String.ofList ((trees.filter (!·.isBlank)).flatMap fun
    | sign c => [c]
    | literal text => text
    | group _ _ => [])

end Tree

theorem isMark_spelled {name : String} {marks : List Char}
    (hname : Identifier.isIdentifier name = true)
    (hmarks : marks.all (fun c => !Identifier.isContinue c) = true) :
    ∀ tree ∈ spelled name, tree.isMark marks = false := by
  intro tree hmem
  obtain ⟨c, hc, rfl⟩ := List.mem_map.1 hmem
  rw [Tree.isMark, List.contains_eq_mem, decide_eq_false_iff_not]
  exact Identifier.not_mem_of_mem hname hmarks c hc

theorem spelled_ne_nil {name : String} (hname : Identifier.isIdentifier name = true) :
    spelled name ≠ [] := by
  intro hnil
  rw [spelled, List.map_eq_nil_iff] at hnil
  simp [Identifier.isIdentifier, hnil] at hname

theorem filter_isBlank_spelled {name : String} (hname : Identifier.isIdentifier name = true) :
    (spelled name).filter (!·.isBlank) = spelled name := by
  rw [List.filter_eq_self]
  intro tree hmem
  rw [Tree.isBlank, isMark_spelled hname rfl tree hmem]
  rfl

theorem word_spelled {name : String} (hname : Identifier.isIdentifier name = true) :
    Tree.word (spelled name) = name := by
  rw [Tree.word, filter_isBlank_spelled hname, spelled, List.flatMap_map, List.flatMap_singleton',
    String.ofList_toList]

mutual

def groups : List Tree → List (Char × List Tree)
  | [] => []
  | tree :: trees => groupsOf tree ++ groups trees
termination_by structural trees => trees

def groupsOf : Tree → List (Char × List Tree)
  | .sign _ => []
  | .literal _ => []
  | .group opening inner => (opening, inner) :: groups inner
termination_by structural tree => tree

end

def levels (trees : List Tree) : List (List Tree) :=
  trees :: (groups trees).map (·.2)

def keyOf (property : List Tree) : String :=
  Tree.word (property.takeWhile (!·.isMark [':', '?']))

def keys (inner : List Tree) : List String :=
  ((inner.splitOnP (Tree.isMark [';'])).map keyOf).filter (· ≠ "")

def firstValue (inner : List Tree) : String :=
  Tree.word (((inner.takeWhile (!·.isMark [';'])).dropWhile (!·.isMark [':'])).drop 1)

def objectKeys (trees : List Tree) : List (List String) :=
  (groups trees).filterMap fun (opening, inner) =>
    if opening == '\x7b' then some (keys inner) else none

def separators : List Char :=
  [';', ',', ':', '=']

/--
Whether an expression of a level has both an `&` and a `|`, so that only the precedence of the two
tells what they join.
-/
def isMixed (level : List Tree) : Bool :=
  (level.splitOnP (Tree.isMark separators)).any fun expression =>
    expression.any (Tree.isMark ['&']) && expression.any (Tree.isMark ['|'])

def mixtures (trees : List Tree) : Nat :=
  (groups trees).countP fun (_, inner) => isMixed inner

theorem groups_append (trees more : List Tree) :
    groups (trees ++ more) = groups trees ++ groups more := by
  induction trees with
  | nil => rfl
  | cons tree trees ih => rw [List.cons_append, groups, groups, ih, List.append_assoc]

theorem groups_eq_nil {trees : List Tree} (h : ∀ tree ∈ trees, tree.isGroup = false) :
    groups trees = [] := by
  induction trees with
  | nil => rfl
  | cons tree trees ih =>
    rw [List.forall_mem_cons] at h
    rw [groups, ih h.2, List.append_nil]
    cases tree with
    | sign c => rfl
    | literal text => rfl
    | group opening inner => cases h.1

theorem objectKeys_eq_nil {trees : List Tree} (h : ∀ tree ∈ trees, tree.isGroup = false) :
    objectKeys trees = [] := by
  rw [objectKeys, groups_eq_nil h, List.filterMap_nil]

theorem mixtures_eq_zero {trees : List Tree} (h : ∀ tree ∈ trees, tree.isGroup = false) :
    mixtures trees = 0 := by
  rw [mixtures, groups_eq_nil h, List.countP_nil]

@[simp]
theorem objectKeys_append (trees more : List Tree) :
    objectKeys (trees ++ more) = objectKeys trees ++ objectKeys more := by
  rw [objectKeys, groups_append, List.filterMap_append]
  rfl

@[simp]
theorem mixtures_append (trees more : List Tree) :
    mixtures (trees ++ more) = mixtures trees + mixtures more := by
  rw [mixtures, groups_append, List.countP_append]
  rfl

theorem objectKeys_group (opening : Char) (inner : List Tree) :
    objectKeys [.group opening inner]
      = (if opening == '\x7b' then [keys inner] else []) ++ objectKeys inner := by
  simp only [objectKeys, groups, groupsOf, List.append_nil, List.filterMap_cons]
  split <;> simp_all

theorem mixtures_group (opening : Char) (inner : List Tree) :
    mixtures [.group opening inner] = (if isMixed inner then 1 else 0) + mixtures inner := by
  simp only [mixtures, groups, groupsOf, List.append_nil, List.countP_cons]
  rw [Nat.add_comm]

def Marked (marks : List Char) (level : List Tree) : Prop :=
  ∀ c ∈ '&' :: '|' :: separators, .sign c ∈ level → c ∈ marks

def isClear (marks : List Char) : Bool :=
  !(marks.contains '&' && marks.contains '|')

namespace Marked

variable {marks others : List Char} {level more : List Tree}

theorem mono (hsubset : marks ⊆ others) (h : Marked marks level) : Marked others level :=
  fun c hc hmem => hsubset (h c hc hmem)

theorem append (h : Marked marks level) (hmore : Marked marks more) :
    Marked marks (level ++ more) := by
  intro c hc hmem
  cases List.mem_append.1 hmem with
  | inl hmem => exact h c hc hmem
  | inr hmem => exact hmore c hc hmem

theorem group (opening : Char) (inner : List Tree) : Marked marks [.group opening inner] := by
  intro c _ hmem
  cases List.mem_singleton.1 hmem

theorem literal (text : List Char) : Marked marks [.literal text] := by
  intro c _ hmem
  cases List.mem_singleton.1 hmem

theorem signs {text : List Char} (h : ∀ c ∈ text, c ∈ '&' :: '|' :: separators → c ∈ marks) :
    Marked marks (text.map .sign) := by
  intro c hc hmem
  obtain ⟨d, hd, heq⟩ := List.mem_map.1 hmem
  cases heq
  exact h c hd hc

theorem of_all {text : List Char} (h : text.all (fun c =>
    !('&' :: '|' :: separators).contains c || marks.contains c) = true) :
    Marked marks (text.map .sign) := by
  simp only [List.all_eq_true, Bool.or_eq_true, Bool.not_eq_true', List.contains_eq_mem,
    decide_eq_true_eq, decide_eq_false_iff_not] at h
  exact signs fun c hmem hc => (h c hmem).resolve_left fun hnot => hnot hc

theorem blank (h : ∀ tree ∈ level, tree.isBlank = true) : Marked marks level := by
  have hnone : ('&' :: '|' :: separators).all (fun c => !Tree.isBlank (.sign c)) = true := rfl
  intro c hc hmem
  have hsign := List.all_eq_true.1 hnone c hc
  rw [h _ hmem] at hsign
  cases hsign

theorem isMark_eq_false {signs : List Char} (h : Marked marks level)
    (hsigns : signs.all (fun c =>
      ('&' :: '|' :: separators).contains c && !marks.contains c) = true) :
    ∀ tree ∈ level, tree.isMark signs = false := by
  simp only [List.all_eq_true, Bool.and_eq_true, Bool.not_eq_true', List.contains_eq_mem,
    decide_eq_true_eq, decide_eq_false_iff_not] at hsigns
  intro tree hmem
  cases tree with
  | sign c =>
    rw [Tree.isMark, List.contains_eq_mem, decide_eq_false_iff_not]
    intro hc
    exact (hsigns c hc).2 (h c (hsigns c hc).1 hmem)
  | literal => rfl
  | group => rfl

end Marked

section Mixed

theorem mem_of_mem_splitOnP {p : α → Bool} {element : α} {part whole : List α}
    (hpart : part ∈ whole.splitOnP p) (h : element ∈ part) : element ∈ whole := by
  induction whole generalizing part with
  | nil =>
    rw [List.splitOnP_nil, List.mem_singleton] at hpart
    rwa [hpart] at h
  | cons head tail ih =>
    rw [List.splitOnP_cons_eq_if_modifyHead] at hpart
    split at hpart
    . cases hpart with
      | head => cases h
      | tail _ hpart => exact List.mem_cons_of_mem _ (ih hpart h)
    . cases hsplit : tail.splitOnP p with
      | nil => exact absurd hsplit (List.splitOnP_ne_nil p tail)
      | cons first parts =>
        rw [hsplit] at hpart ih
        rw [List.modifyHead_cons] at hpart
        cases hpart with
        | head =>
          cases h with
          | head => exact List.mem_cons_self
          | tail _ h => exact List.mem_cons_of_mem _ (ih List.mem_cons_self h)
        | tail _ hpart => exact List.mem_cons_of_mem _ (ih (List.mem_cons_of_mem _ hpart) h)

variable {marks : List Char} {level more : List Tree} {tree : Tree}

theorem isMixed_eq_false (h : Marked marks level) (hclear : isClear marks = true) :
    isMixed level = false := by
  have hnone : ∀ c, ('&' :: '|' :: separators).contains c = true → marks.contains c = false →
      ∀ expression ∈ level.splitOnP (Tree.isMark separators),
        expression.any (Tree.isMark [c]) = false := by
    intro c hc hnot expression hexpression
    have hsigns : [c].all (fun c => ('&' :: '|' :: separators).contains c && !marks.contains c)
        = true := by
      rw [List.all_cons, hc, hnot]
      rfl
    rw [List.any_eq_false]
    intro tree hmem
    rw [h.isMark_eq_false hsigns tree (mem_of_mem_splitOnP hexpression hmem)]
    exact Bool.false_ne_true
  rw [isMixed, List.any_eq_false]
  intro expression hexpression
  cases hand : marks.contains '&' with
  | false =>
    rw [hnone '&' rfl hand expression hexpression]
    simp
  | true =>
    have hor : marks.contains '|' = false := by
      rwa [isClear, hand, Bool.true_and, Bool.not_eq_true'] at hclear
    rw [hnone '|' rfl hor expression hexpression]
    simp

theorem isMixed_eq_true (h : Marked ['&', '|'] level) (hand : .sign '&' ∈ level)
    (hor : .sign '|' ∈ level) : isMixed level = true := by
  have hwhole : level.splitOnP (Tree.isMark separators) = [level] :=
    List.splitOnP_eq_singleton (h.isMark_eq_false rfl)
  rw [isMixed, hwhole, List.any_cons, List.any_nil, Bool.or_false, Bool.and_eq_true,
    List.any_eq_true, List.any_eq_true]
  exact ⟨⟨_, hand, rfl⟩, ⟨_, hor, rfl⟩⟩

theorem isMixed_append_cons (h : tree.isMark separators = true) :
    isMixed (level ++ tree :: more) = (isMixed level || isMixed more) := by
  rw [isMixed, List.splitOnP_append_cons _ _ h, List.any_append]
  rfl

theorem isMixed_append (h : Marked separators level) :
    isMixed (level ++ more) = isMixed more := by
  have hsigns : ∀ tree ∈ level, tree.isMark ['&', '|'] = false := h.isMark_eq_false rfl
  clear h
  induction level with
  | nil => rfl
  | cons tree level ih =>
    rw [List.forall_mem_cons] at hsigns
    rw [← ih hsigns.2, List.cons_append, isMixed, isMixed, List.splitOnP_cons_eq_if_modifyHead]
    -- A separator begins a new expression, anything else goes into the first one.
    split
    . rfl
    . cases hsplit : (level ++ more).splitOnP (Tree.isMark separators) with
      | nil => exact absurd hsplit (List.splitOnP_ne_nil _ _)
      | cons first parts =>
        have hand : tree.isMark ['&'] = false := by
          cases tree <;> simp_all [Tree.isMark]
        have hor : tree.isMark ['|'] = false := by
          cases tree <;> simp_all [Tree.isMark]
        rw [List.modifyHead_cons, List.any_cons, List.any_cons, List.any_cons, List.any_cons, hand,
          hor, Bool.false_or, Bool.false_or]

end Mixed

section Keys

variable {trees more before key value : List Tree} {tree : Tree}

theorem keys_append_cons (h : tree.isMark [';'] = true) :
    keys (trees ++ tree :: more) = keys trees ++ keys more := by
  rw [keys, List.splitOnP_append_cons _ _ h, List.map_append, List.filter_append]
  rfl

theorem word_append_of_isBlank (h : ∀ tree ∈ before, tree.isBlank = true) :
    Tree.word (before ++ more) = Tree.word more := by
  have hnil : before.filter (!·.isBlank) = [] := by
    rw [List.filter_eq_nil_iff]
    intro tree hmem
    simp [h tree hmem]
  rw [Tree.word, List.filter_append, hnil, List.nil_append]
  rfl

theorem isMark_of_isBlank {marks : List Char} (hmarks : ' ' ∉ marks ∧ '\n' ∉ marks)
    (h : tree.isBlank = true) : tree.isMark marks = false := by
  cases tree with
  | sign c =>
    have hc : c = ' ' ∨ c = '\n' := by simpa [Tree.isBlank, Tree.isMark] using h
    cases hc with
    | inl hc => simp [Tree.isMark, hc, hmarks]
    | inr hc => simp [Tree.isMark, hc, hmarks]
  | literal => rfl
  | group => rfl

theorem isMark_mono {marks signs : List Char} (hsubset : signs ⊆ marks)
    (h : tree.isMark marks = false) : tree.isMark signs = false := by
  cases tree with
  | sign c =>
    rw [Tree.isMark, List.contains_eq_mem, decide_eq_false_iff_not] at h ⊢
    exact fun hc => h (hsubset hc)
  | literal => rfl
  | group => rfl

theorem keys_blank (h : ∀ tree ∈ trees, tree.isBlank = true) : keys trees = [] := by
  have hone : trees.splitOnP (Tree.isMark [';']) = [trees] :=
    List.splitOnP_eq_singleton fun tree hmem => isMark_of_isBlank (by decide) (h tree hmem)
  have hword : keyOf trees = "" := by
    have hall : trees.takeWhile (!·.isMark [':', '?']) = trees := by
      rw [List.takeWhile_eq_self_iff]
      intro tree hmem
      rw [isMark_of_isBlank (by decide) (h tree hmem)]
      rfl
    rw [keyOf, hall, ← List.append_nil trees, word_append_of_isBlank h]
    rfl
  rw [keys, hone, List.map_singleton, hword]
  rfl

theorem keys_property (hbefore : ∀ tree ∈ before, tree.isBlank = true)
    (hkey : ∀ tree ∈ key, tree.isMark [';', ':', '?'] = false) (hword : Tree.word key ≠ "")
    (htree : tree.isMark [':', '?'] = true) (hvalue : ∀ tree ∈ value, tree.isMark [';'] = false) :
    keys (before ++ key ++ tree :: value) = [Tree.word key] := by
  have hends : ∀ tree ∈ key, tree.isMark [';'] = false ∧ tree.isMark [':', '?'] = false := by
    intro tree hmem
    have hmark := hkey tree hmem
    exact ⟨isMark_mono (by decide) hmark, isMark_mono (by decide) hmark⟩
  have hcolon : tree.isMark [';'] = false := by
    cases tree with
    | sign c =>
      have hc : c = ':' ∨ c = '?' := by simpa [Tree.isMark] using htree
      cases hc with
      | inl hc => simp [Tree.isMark, hc]
      | inr hc => simp [Tree.isMark, hc]
    | literal => rfl
    | group => rfl
  have hone : (before ++ key ++ tree :: value).splitOnP (Tree.isMark [';'])
      = [before ++ key ++ tree :: value] := by
    apply List.splitOnP_eq_singleton
    intro other hmem
    rw [List.mem_append, List.mem_append, List.mem_cons] at hmem
    rcases hmem with (hmem | hmem) | hmem | hmem
    . exact isMark_of_isBlank (by decide) (hbefore other hmem)
    . exact (hends other hmem).1
    . rwa [hmem]
    . exact hvalue other hmem
  have hfront : ∀ other ∈ before ++ key, (!other.isMark [':', '?']) = true := by
    intro other hmem
    rw [Bool.not_eq_true']
    cases List.mem_append.1 hmem with
    | inl hmem => exact isMark_of_isBlank (by decide) (hbefore other hmem)
    | inr hmem => exact (hends other hmem).2
  have hkeyOf : keyOf (before ++ key ++ tree :: value) = Tree.word key := by
    rw [keyOf, List.takeWhile_append_of_pos hfront, List.takeWhile_cons_of_neg (by simp [htree]),
      List.append_nil, word_append_of_isBlank hbefore]
  rw [keys, hone, List.map_singleton, hkeyOf]
  simp [hword]

theorem firstValue_property {after : List Tree} (hbefore : ∀ tree ∈ before, tree.isBlank = true)
    (hkey : ∀ tree ∈ key, tree.isMark [';', ':', '?'] = false)
    (hvalue : ∀ tree ∈ value, tree.isMark [';'] = false)
    (hafter : ∀ tree ∈ after.takeWhile (!·.isMark [';']), tree.isBlank = true) :
    firstValue (before ++ key ++ .sign ':' :: (value ++ after)) = Tree.word value := by
  have hfirst : ∀ signs ⊆ [';', ':', '?'], ∀ tree ∈ before ++ key, tree.isMark signs = false := by
    intro signs hsigns tree hmem
    apply isMark_mono hsigns
    cases List.mem_append.1 hmem with
    | inl hmem => exact isMark_of_isBlank (by decide) (hbefore tree hmem)
    | inr hmem => exact hkey tree hmem
  have htake : (before ++ key ++ .sign ':' :: (value ++ after)).takeWhile (!·.isMark [';'])
      = before ++ key ++ .sign ':' :: (value ++ after.takeWhile (!·.isMark [';'])) := by
    rw [List.takeWhile_append_of_pos, List.takeWhile_cons_of_pos rfl, List.takeWhile_append_of_pos]
    . intro tree hmem
      rw [hvalue tree hmem]
      rfl
    . intro tree hmem
      rw [hfirst [';'] (by decide) tree hmem]
      rfl
  have hdrop : (before ++ key
      ++ .sign ':' :: (value ++ after.takeWhile (!·.isMark [';']))).dropWhile (!·.isMark [':'])
        = .sign ':' :: (value ++ after.takeWhile (!·.isMark [';'])) := by
    rw [List.dropWhile_append_of_pos, List.dropWhile_cons_of_neg]
    . simp [Tree.isMark]
    . intro tree hmem
      rw [hfirst [':'] (by decide) tree hmem]
      rfl
  have hblank : (after.takeWhile (!·.isMark [';'])).filter (!·.isBlank) = [] := by
    rw [List.filter_eq_nil_iff]
    intro tree hmem
    simp [hafter tree hmem]
  rw [firstValue, htake, hdrop, List.drop_one, List.tail_cons, Tree.word, List.filter_append,
    hblank, List.append_nil]
  rfl

end Keys

end Bindings.Text
