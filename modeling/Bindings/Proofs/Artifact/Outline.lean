import Bindings.Proofs.Artifact.Lexemes
import Bindings.Proofs.Artifact.PropertyKey
import Bindings.Proofs.Text.Tree
import Mathlib.Algebra.Ring.Nat

/-!
This module contains the outline of an artifact by its brackets: the keys of its object types, and
the groups in which the precedence of `&` and `|` decides what they join.
-/

namespace Bindings.Artifact

open Text

/--
A text whose operators and separators outside of all groups are some of the given ones. Its object
types have given keys, and a given number of its groups mix `&` and `|`.
-/
def Outlined (text : String) (marks : List Char) (objects : List (List String)) (mixed : Nat) :
    Prop :=
  ∃ trees, Reads text trees ∧ Marked marks trees ∧ objectKeys trees = objects
    ∧ mixtures trees = mixed

def Keyed (text : String) (keys : List String) (marks : List Char) (objects : List (List String)) :
    Prop :=
  ∃ trees, Reads text trees
    ∧ (∀ before after, (∀ tree ∈ before, tree.isBlank = true) →
        (∀ tree ∈ after, tree.isBlank = true) → Text.keys (before ++ trees ++ after) = keys)
    ∧ Marked marks trees ∧ objectKeys trees = objects ∧ mixtures trees = 0

def Layout (text : String) (marks : List Char) : Prop :=
  ∃ trees, Reads text trees ∧ Marked marks trees ∧ ∀ tree ∈ trees, tree.isSign = true

def Void (text : String) : Prop :=
  ∃ trees, Reads text trees ∧ ∀ tree ∈ trees, tree.isBlank = true

namespace Layout

variable {text other name : String} {marks : List Char}

theorem append (h : Layout text marks) (hother : Layout other marks) :
    Layout (text ++ other) marks := by
  obtain ⟨trees, hreads, hmarked, hsigns⟩ := h
  obtain ⟨trees', hreads', hmarked', hsigns'⟩ := hother
  refine ⟨trees ++ trees', hreads.append hreads', hmarked.append hmarked', ?_⟩
  intro tree hmem
  exact (List.mem_append.1 hmem).elim (hsigns tree) (hsigns' tree)

theorem inert (hinert : text.toList.all isInert = true)
    (hmarks : ∀ c ∈ text.toList, c ∈ '&' :: '|' :: separators → c ∈ marks) :
    Layout text marks := by
  refine ⟨_, Reads.signs hinert, Marked.signs hmarks, ?_⟩
  intro tree hmem
  obtain ⟨c, _, rfl⟩ := List.mem_map.1 hmem
  rfl

theorem signs (h : text.toList.all (fun c =>
    isInert c && (!('&' :: '|' :: separators).contains c || marks.contains c)) = true) :
    Layout text marks := by
  simp only [List.all_eq_true, Bool.and_eq_true, Bool.or_eq_true, Bool.not_eq_true',
    List.contains_eq_mem, decide_eq_true_eq, decide_eq_false_iff_not] at h
  apply inert
  . rw [List.all_eq_true]
    exact fun c hmem => (h c hmem).1
  . exact fun c hmem hc => (h c hmem).2.resolve_left fun hnot => hnot hc

theorem identifier (hname : Identifier.isIdentifier name = true) : Layout name marks := by
  apply inert (isInert_of_isIdentifier hname)
  intro c hmem hc
  exact absurd hc (Identifier.not_mem_of_mem hname rfl c hmem)

theorem outlined (h : Layout text marks) : Outlined text marks [] 0 := by
  obtain ⟨trees, hreads, hmarked, hsigns⟩ := h
  have hnone : ∀ tree ∈ trees, tree.isGroup = false := by
    rintro (c | text | ⟨opening, inner⟩) hmem
    . rfl
    . rfl
    . cases hsigns _ hmem
  exact ⟨trees, hreads, hmarked, objectKeys_eq_nil hnone, mixtures_eq_zero hnone⟩

end Layout

namespace Outlined

variable {text other name : String} {marks others : List Char} {objects more : List (List String)}
variable {mixed next : Nat}

theorem mono (h : Outlined text marks objects mixed) (hsubset : marks ⊆ others) :
    Outlined text others objects mixed := by
  obtain ⟨trees, hreads, hmarked, hrest⟩ := h
  exact ⟨trees, hreads, hmarked.mono hsubset, hrest⟩

theorem append (h : Outlined text marks objects mixed) (hother : Outlined other marks more next) :
    Outlined (text ++ other) marks (objects ++ more) (mixed + next) := by
  obtain ⟨trees, hreads, hmarked, hobjects, hmixed⟩ := h
  obtain ⟨trees', hreads', hmarked', hobjects', hmixed'⟩ := hother
  refine ⟨trees ++ trees', hreads.append hreads', hmarked.append hmarked', ?_, ?_⟩
  . rw [objectKeys_append, hobjects, hobjects']
  . rw [mixtures_append, hmixed, hmixed']

theorem signs (h : text.toList.all (fun c =>
    isInert c && (!('&' :: '|' :: separators).contains c || marks.contains c)) = true) :
    Outlined text marks [] 0 :=
  (Layout.signs h).outlined

theorem identifier (hname : Identifier.isIdentifier name = true) : Outlined name marks [] 0 :=
  (Layout.identifier hname).outlined

theorem quoted (name : String) : Outlined (Quoted.encode name) marks [] 0 := by
  have hnone : ∀ tree ∈ [Tree.literal (Quoted.encode name).toList], tree.isGroup = false :=
    List.forall_mem_singleton.2 rfl
  exact ⟨_, Reads.quoted name, Marked.literal _, objectKeys_eq_nil hnone, mixtures_eq_zero hnone⟩

theorem enclosed {opening : Char} {whole : String} (hcurly : opening ≠ '\x7b')
    (h : Outlined text marks objects mixed) (hclear : isClear marks = true)
    (hwhole : ∀ trees, Reads text trees → Reads whole [.group opening trees]) :
    Outlined whole others objects mixed := by
  obtain ⟨trees, hreads, hmarked, hobjects, hmixed⟩ := h
  refine ⟨_, hwhole trees hreads, Marked.group _ _, ?_, ?_⟩
  . rw [objectKeys_group, if_neg (by simpa using hcurly), hobjects, List.nil_append]
  . rw [mixtures_group, isMixed_eq_false hmarked hclear, hmixed, if_neg Bool.false_ne_true,
      Nat.zero_add]

theorem round (h : Outlined text marks objects mixed) (hclear : isClear marks = true) :
    Outlined ("(" ++ text ++ ")") others objects mixed :=
  h.enclosed (by decide) hclear fun _ hreads => hreads.round

theorem square (h : Outlined text marks objects mixed) (hclear : isClear marks = true) :
    Outlined ("[" ++ text ++ "]") others objects mixed :=
  h.enclosed (by decide) hclear fun _ hreads => hreads.square

theorem angle (h : Outlined text marks objects mixed) (hclear : isClear marks = true) :
    Outlined ("<" ++ text ++ ">") others objects mixed :=
  h.enclosed (by decide) hclear fun _ hreads => hreads.angle

theorem mixing (h : Outlined text ['&', '|'] objects mixed)
    (hboth : ∃ trees, Reads text trees ∧ .sign '&' ∈ trees ∧ .sign '|' ∈ trees) :
    Outlined ("(" ++ text ++ ")") marks objects (mixed + 1) := by
  obtain ⟨trees, hreads, hmarked, hobjects, hmixed⟩ := h
  obtain ⟨trees', hreads', hand, hor⟩ := hboth
  rw [hreads'.unique hreads] at hand hor
  refine ⟨_, hreads.round, Marked.group _ _, ?_, ?_⟩
  . rw [objectKeys_group, hobjects]
    rfl
  . rw [mixtures_group, isMixed_eq_true hmarked hand hor, hmixed, Nat.add_comm]
    rfl

theorem joinWith {separator : String} {elements : List α} {text : α → String}
    {objects : α → List (List String)} {mixed : α → Nat}
    (hseparator : Outlined separator marks [] 0)
    (h : ∀ element ∈ elements, Outlined (text element) marks (objects element) (mixed element)) :
    Outlined (Text.joinWith separator (elements.map text)) marks (elements.flatMap objects)
      (elements.map mixed).sum := by
  induction elements with
  | nil => exact signs rfl
  | cons element elements ih =>
    rw [List.forall_mem_cons] at h
    cases elements with
    | nil => simpa using h.1
    | cons next elements =>
      have hjoined := (h.1.append hseparator).append (ih h.2)
      rwa [List.append_nil, Nat.add_zero] at hjoined

theorem joinPlain {separator : String} {elements : List α} {text : α → String}
    (hseparator : Outlined separator marks [] 0)
    (h : ∀ element ∈ elements, Outlined (text element) marks [] 0) :
    Outlined (Text.joinWith separator (elements.map text)) marks [] 0 := by
  have hjoined := joinWith hseparator h
  have hobjects : elements.flatMap (fun _ => ([] : List (List String))) = [] := by
    rw [List.flatMap_eq_nil_iff]
    exact fun _ _ => rfl
  have hmixed : (elements.map fun _ => 0).sum = 0 := by simp
  rwa [hobjects, hmixed] at hjoined

end Outlined

namespace Void

variable {text other margin : String}

theorem append (h : Void text) (hother : Void other) : Void (text ++ other) := by
  obtain ⟨trees, hreads, hblank⟩ := h
  obtain ⟨trees', hreads', hblank'⟩ := hother
  refine ⟨trees ++ trees', hreads.append hreads', ?_⟩
  intro tree hmem
  exact (List.mem_append.1 hmem).elim (hblank tree) (hblank' tree)

theorem blank (h : text.toList.all (fun c => isInert c && Tree.isBlank (.sign c)) = true) :
    Void text := by
  simp only [List.all_eq_true, Bool.and_eq_true] at h
  refine ⟨spelled text, Reads.signs ?_, ?_⟩
  . rw [List.all_eq_true]
    exact fun c hmem => (h c hmem).1
  . intro tree hmem
    obtain ⟨c, hc, rfl⟩ := List.mem_map.1 hmem
    exact (h c hc).2

theorem indent (h : Blank margin) : Void margin := by
  apply blank
  rw [List.all_eq_true]
  intro c hmem
  rw [h c hmem]
  rfl

theorem docBlock (lines : List String) (h : Blank margin) :
    Void (unlines (docBlock margin lines)) := by
  have hcommented : Commented margin.toList := by
    apply commented_of_forall
    intro c hmem
    rw [h c hmem]
    decide
  have hcomment : Void (comment margin lines) :=
    ⟨[], ⟨_, cuts_comment lines hcommented, Grows.comment _⟩, List.forall_mem_nil _⟩
  rw [unlines_docBlock]
  exact ((indent h).append hcomment).append (blank rfl)

theorem docLines (doc : Option String) (h : Blank margin) :
    Void (unlines (docLines margin doc)) := by
  cases doc with
  | none => exact blank rfl
  | some doc => exact docBlock _ h

theorem layout {marks : List Char} (h : Void text) : Layout text marks := by
  obtain ⟨trees, hreads, hblank⟩ := h
  refine ⟨trees, hreads, Marked.blank hblank, ?_⟩
  rintro (c | text | ⟨opening, inner⟩) hmem
  . rfl
  . cases hblank _ hmem
  . cases hblank _ hmem

theorem outlined {marks : List Char} (h : Void text) : Outlined text marks [] 0 :=
  h.layout.outlined

end Void

theorem propertyKey_ne_empty (name : String) : propertyKey name ≠ "" := by
  intro heq
  unfold propertyKey at heq
  split at heq
  . next hident =>
    rw [heq] at hident
    revert hident
    decide
  . have hlength := congrArg (·.toList.length) heq
    simp [Quoted.encode, Quoted.encodeChars] at hlength

theorem reads_propertyKey (name : String) :
    ∃ trees, Reads (propertyKey name) trees ∧ Tree.word trees = propertyKey name
      ∧ ∀ tree ∈ trees, tree.isMark [';', ':', '?'] = false := by
  unfold propertyKey
  split
  . next hident =>
    exact ⟨_, Reads.signs (isInert_of_isIdentifier hident), word_spelled hident,
      isMark_spelled hident rfl⟩
  . refine ⟨_, Reads.quoted name, ?_, List.forall_mem_singleton.2 rfl⟩
    simp [Tree.word, Tree.isBlank, Tree.isMark]

theorem outlined_propertyKey (name : String) {marks : List Char} :
    Outlined (propertyKey name) marks [] 0 := by
  unfold propertyKey
  split
  . next hident => exact Outlined.identifier hident
  . exact Outlined.quoted name

namespace Keyed

variable {text other before after : String} {keys others : List String} {marks : List Char}
variable {objects more : List (List String)}

theorem nil : Keyed "" [] marks [] := by
  refine ⟨[], Reads.signs rfl, ?_, Marked.blank (List.forall_mem_nil _), ?_, ?_⟩
  . intro before after hbefore hafter
    apply keys_blank
    intro tree hmem
    rw [List.append_nil, List.mem_append] at hmem
    exact hmem.elim (hbefore tree) (hafter tree)
  . exact objectKeys_eq_nil (List.forall_mem_nil _)
  . exact mixtures_eq_zero (List.forall_mem_nil _)

theorem mono {marks' : List Char} (h : Keyed text keys marks objects) (hsubset : marks ⊆ marks') :
    Keyed text keys marks' objects := by
  obtain ⟨trees, hreads, hkeys, hmarked, hrest⟩ := h
  exact ⟨trees, hreads, hkeys, hmarked.mono hsubset, hrest⟩

theorem outlined (h : Keyed text keys marks objects) : Outlined text marks objects 0 := by
  obtain ⟨trees, hreads, _, hrest⟩ := h
  exact ⟨trees, hreads, hrest⟩

theorem pad (h : Keyed text keys marks objects) (hbefore : Void before) (hafter : Void after) :
    Keyed (before ++ text ++ after) keys marks objects := by
  have houtlined : Outlined (before ++ text ++ after) marks objects 0 := by
    simpa using (hbefore.outlined.append h.outlined).append hafter.outlined
  obtain ⟨whole, hwhole, hrest⟩ := houtlined
  obtain ⟨trees, hreads, hkeys, _⟩ := h
  obtain ⟨front, hfront, hblank⟩ := hbefore
  obtain ⟨back, hback, hblank'⟩ := hafter
  have heq := hwhole.unique ((hfront.append hreads).append hback)
  refine ⟨whole, hwhole, ?_, hrest⟩
  -- What is added on a side only makes the white space there longer.
  intro first last hfirst hlast
  have hsplit : first ++ whole ++ last = (first ++ front) ++ trees ++ (back ++ last) := by
    rw [heq]
    simp only [List.append_assoc]
  rw [hsplit]
  apply hkeys
  . intro tree hmem
    exact (List.mem_append.1 hmem).elim (hfirst tree) (hblank tree)
  . intro tree hmem
    exact (List.mem_append.1 hmem).elim (hblank' tree) (hlast tree)

theorem next (h : Keyed text keys (';' :: marks) objects)
    (hother : Keyed other others (';' :: marks) more) :
    Keyed (text ++ ";" ++ other) (keys ++ others) (';' :: marks) (objects ++ more) := by
  have hstop : Outlined ";" (';' :: marks) [] 0 := Outlined.signs rfl
  have houtlined : Outlined (text ++ ";" ++ other) (';' :: marks) (objects ++ more) 0 := by
    simpa using (h.outlined.append hstop).append hother.outlined
  obtain ⟨whole, hwhole, hrest⟩ := houtlined
  obtain ⟨trees, hreads, hkeys, _⟩ := h
  obtain ⟨trees', hreads', hkeys', _⟩ := hother
  have hsign : Reads ";" [.sign ';'] := Reads.signs rfl
  have heq := hwhole.unique ((hreads.append hsign).append hreads')
  refine ⟨whole, hwhole, ?_, hrest⟩
  intro before after hbefore hafter
  have hsplit : before ++ whole ++ after
      = (before ++ trees ++ []) ++ .sign ';' :: ([] ++ trees' ++ after) := by
    rw [heq]
    simp
  have hends : Tree.isMark [';'] (.sign ';') = true := rfl
  rw [hsplit, keys_append_cons hends, hkeys before [] hbefore (List.forall_mem_nil _),
    hkeys' [] after (List.forall_mem_nil _) hafter]

theorem property {value separator : String} (name : String)
    (hseparator : separator = ": " ∨ separator = "?: ") (h : Outlined value marks objects 0)
    (hmarks : ';' ∉ marks) :
    Keyed (propertyKey name ++ separator ++ value) [propertyKey name] (':' :: marks) objects := by
  obtain ⟨tree, trees, hsigns, htree, htrees, hcolon⟩ : ∃ tree trees,
      Reads separator (tree :: trees) ∧ tree.isMark [':', '?'] = true
        ∧ (∀ tree ∈ trees, tree.isMark [';'] = false) ∧ Outlined separator (':' :: marks) [] 0 := by
    rcases hseparator with rfl | rfl
    . exact ⟨_, _, Reads.signs rfl, rfl, by decide, Outlined.signs rfl⟩
    . exact ⟨_, _, Reads.signs rfl, rfl, by decide, Outlined.signs rfl⟩
  have houtlined := ((outlined_propertyKey name).append hcolon).append
    (h.mono (List.subset_cons_self ':' marks))
  obtain ⟨whole, hwhole, hrest⟩ := houtlined
  obtain ⟨key, hkey, hword, hplain⟩ := reads_propertyKey name
  obtain ⟨inner, hinner, hmarked, _⟩ := h
  have heq := hwhole.unique ((hkey.append hsigns).append hinner)
  refine ⟨whole, hwhole, ?_, hrest⟩
  intro before after hbefore hafter
  have hsplit : before ++ whole ++ after = before ++ key ++ tree :: (trees ++ inner ++ after) := by
    rw [heq]
    simp
  have hvalue : ∀ other ∈ trees ++ inner ++ after, other.isMark [';'] = false := by
    intro other hmem
    rw [List.mem_append, List.mem_append] at hmem
    rcases hmem with (hmem | hmem) | hmem
    . exact htrees other hmem
    . apply hmarked.isMark_eq_false _ other hmem
      simpa using ⟨by decide, hmarks⟩
    . exact isMark_of_isBlank (by decide) (hafter other hmem)
  have hnonempty : Tree.word key ≠ "" := by
    rw [hword]
    exact propertyKey_ne_empty name
  rw [hsplit, keys_property hbefore hplain hnonempty htree hvalue, hword]

theorem group (h : Keyed text keys marks objects) :
    ∃ inner, Reads ("\x7b" ++ text ++ "\x7d") [.group '\x7b' inner] ∧ Text.keys inner = keys
      ∧ Marked marks inner ∧ objectKeys inner = objects ∧ mixtures inner = 0 := by
  obtain ⟨trees, hreads, hkeys, hrest⟩ := h
  have hall := hkeys [] [] (List.forall_mem_nil _) (List.forall_mem_nil _)
  rw [List.nil_append, List.append_nil] at hall
  exact ⟨trees, hreads.curly, hall, hrest⟩

theorem curly {others : List Char} (h : Keyed text keys marks objects)
    (hclear : isClear marks = true) :
    Outlined ("\x7b" ++ text ++ "\x7d") others (keys :: objects) 0 := by
  obtain ⟨inner, hreads, hkeys, hmarked, hobjects, hmixed⟩ := h.group
  refine ⟨_, hreads, Marked.group _ _, ?_, ?_⟩
  . rw [objectKeys_group, hkeys, hobjects]
    rfl
  . rw [mixtures_group, isMixed_eq_false hmarked hclear, hmixed]
    rfl

theorem braced {others : List Char} (h : Keyed text keys marks objects)
    (hclear : isClear marks = true) :
    Outlined (braced text) others (keys :: objects) 0 := by
  rw [braced_eq]
  exact (h.pad (Void.blank rfl) (Void.blank rfl)).curly hclear

theorem beside (h : Keyed text keys (';' :: marks) objects)
    (hother : Keyed other others (';' :: marks) more) :
    Keyed (text ++ "; " ++ other) (keys ++ others) (';' :: marks) (objects ++ more) := by
  have hspace : Void " " := Void.blank rfl
  have hnone : Void "" := Void.blank rfl
  have hsplit : text ++ "; " ++ other = text ++ ";" ++ (" " ++ other ++ "") := by
    apply String.toList_inj.1
    simp
  rw [hsplit]
  exact h.next (hother.pad hspace hnone)

theorem joinWith {elements : List α} {text key : α → String}
    (h : ∀ element ∈ elements, Keyed (text element) [key element] (';' :: marks) []) :
    Keyed (Text.joinWith "; " (elements.map text)) (elements.map key) (';' :: marks) [] := by
  induction elements with
  | nil => exact nil
  | cons element elements ih =>
    rw [List.forall_mem_cons] at h
    cases elements with
    | nil => exact h.1
    | cons next elements => exact h.1.beside (ih h.2)

end Keyed

end Bindings.Artifact
