import Bindings.Native.Documentation
import Bindings.Proofs.Artifact.Condensed
import Bindings.Proofs.Text.Lines
import Mathlib.Data.List.DropRight

/-!
This module contains the way of documentation from the attributes of an item to the comment in an
artifact. The lines that are gathered from attributes are the lines of the documentation, each of
them has its line in the comment, and one attribute for each of them gathers the documentation
again.
-/

namespace Bindings

namespace Artifact

open Text

/--
A line of a comment carries a line of documentation. Wherever the comment would end, a backslash
keeps it open; nothing else is changed.
-/
inductive Carries (margin : String) : String → String → Prop
  | blank : Carries margin "" (margin ++ " *")
  | text {pieces : List String} (hpieces : ∀ piece ∈ pieces, holds piece.toList "*/".toList = false)
      (hne : joinWith "*/" pieces ≠ "") :
    Carries margin (joinWith "*/" pieces) (margin ++ " * " ++ joinWith "*\\/" pieces)

theorem intercalate_cons_char (separator : List Char) (c : Char) (piece : List Char)
    (pieces : List (List Char)) :
    separator.intercalate ((c :: piece) :: pieces)
      = c :: separator.intercalate (piece :: pieces) := by
  cases pieces with
  | nil => simp
  | cons next pieces => simp [List.intercalate_cons_cons]

theorem exists_pieces (cs : List Char) :
    ∃ piece pieces, (∀ part ∈ piece :: pieces, holds part "*/".toList = false)
      ∧ cs = "*/".toList.intercalate (piece :: pieces)
      ∧ escapeTerminator cs = "*\\/".toList.intercalate (piece :: pieces) := by
  induction cs using escapeTerminator.induct with
  | case1 =>
    refine ⟨[], [], ?_, rfl, rfl⟩
    intro part hpart
    rw [List.mem_singleton.1 hpart]
    rfl
  | case2 cs ih =>
    obtain ⟨piece, pieces, hpieces, hcs, hescaped⟩ := ih
    refine ⟨[], piece :: pieces, List.forall_mem_cons.2 ⟨rfl, hpieces⟩, ?_, ?_⟩
    . rw [List.intercalate_cons_cons, ← hcs]
      rfl
    . rw [escapeTerminator, List.intercalate_cons_cons, ← hescaped]
      rfl
  | case3 c cs hterminator ih =>
    obtain ⟨piece, pieces, hpieces, hcs, hescaped⟩ := ih
    rw [List.forall_mem_cons] at hpieces
    refine ⟨c :: piece, pieces, List.forall_mem_cons.2 ⟨?_, hpieces.2⟩, ?_, ?_⟩
    . rw [holds_terminator_cons, hpieces.1, Bool.or_false, Bool.and_eq_false_imp, beq_iff_eq,
        beq_eq_false_iff_ne]
      intro hstar hslash
      obtain ⟨rest, rfl⟩ := List.head?_eq_some_iff.1 hslash
      rw [intercalate_cons_char] at hcs
      exact hterminator _ hstar hcs
    . rw [intercalate_cons_char, ← hcs]
    . rw [escapeTerminator, intercalate_cons_char, ← hescaped]
      exact hterminator

theorem escapeTerminator_eq_nil_iff {cs : List Char} : escapeTerminator cs = [] ↔ cs = [] := by
  cases cs with
  | nil => simp [escapeTerminator]
  | cons c cs =>
    obtain ⟨rest, heq⟩ := escapeTerminator_cons c cs
    simp [heq]

theorem ofList_escapeTerminator_ne {line : String} (h : line ≠ "") :
    String.ofList (escapeTerminator line.toList) ≠ "" := by
  rw [Ne, ← String.toList_eq_nil_iff, String.toList_ofList, escapeTerminator_eq_nil_iff,
    String.toList_eq_nil_iff]
  exact h

theorem docLine_of_isTrimmed (margin : String) {line : String} (h : IsTrimmed line.toList)
    (hne : line ≠ "") :
    docLine margin line = margin ++ " * " ++ String.ofList (escapeTerminator line.toList) := by
  unfold docLine
  rw [h.trimEnd_eq]
  split
  . next hnil => exact absurd (by rw [hnil]) (ofList_escapeTerminator_ne hne)
  . rfl

theorem carries_docLine (margin : String) {line : String} (h : IsTrimmed line.toList) :
    Carries margin line (docLine margin line) := by
  by_cases hne : line = ""
  . rw [hne]
    exact .blank
  . obtain ⟨piece, pieces, hpieces, hcs, hescaped⟩ := exists_pieces line.toList
    have hline : line = joinWith "*/" ((piece :: pieces).map String.ofList) := by
      rw [joinWith_map_ofList, ← hcs, String.ofList_toList]
    have hparts : ∀ part ∈ (piece :: pieces).map String.ofList,
        holds part.toList "*/".toList = false := by
      simpa using hpieces
    have htext := @Carries.text margin _ hparts (hline ▸ hne)
    rw [docLine_of_isTrimmed margin h hne, hescaped, ← joinWith_map_ofList]
    rwa [← hline] at htext

theorem getLast?_escapeTerminator (cs : List Char) :
    (escapeTerminator cs).getLast? = cs.getLast? := by
  induction cs using escapeTerminator.induct with
  | case1 => rfl
  | case2 cs ih =>
    rw [escapeTerminator]
    simp [List.getLast?_cons, ih]
  | case3 c cs hterminator ih =>
    rw [escapeTerminator]
    . simp [List.getLast?_cons, ih]
    . exact hterminator

theorem isLine_append {margin line : String} (hmargin : OneLine margin) (hline : OneLine line)
    (hne : line ≠ "") (htrimmed : IsTrimmed line.toList) : IsLine (margin ++ line).toList where
  lineFeed_not_mem := oneLine_append.2 ⟨hmargin, hline⟩
  getLast?_ne hreturn := by
    rw [String.toList_append,
      List.getLast?_append_of_ne_nil _ (mt String.toList_eq_nil_iff.1 hne)] at hreturn
    have := htrimmed _ hreturn
    revert this
    decide

theorem isLine_docLine {margin line : String} (hmargin : OneLine margin) (hline : OneLine line)
    (htrimmed : IsTrimmed line.toList) : IsLine (docLine margin line).toList := by
  by_cases hne : line = ""
  . rw [hne]
    exact isLine_append hmargin (by decide) (by decide) (by intro c h; cases h; decide)
  . have hescaped : IsTrimmed (escapeTerminator line.toList) := by
      intro c hlast
      rw [getLast?_escapeTerminator] at hlast
      exact htrimmed c hlast
    rw [docLine_of_isTrimmed margin htrimmed hne]
    apply isLine_append
    . exact oneLine_append.2 ⟨hmargin, by decide⟩
    . have := oneLine_ofList_escapeTerminator hline
      rwa [htrimmed.trimEnd_eq] at this
    . exact ofList_escapeTerminator_ne hne
    . rwa [String.toList_ofList]

end Artifact

namespace Native.Documentation

open Text Artifact

structure Tidy (line : String) : Prop where
  oneLine : OneLine line
  isTrimmed : IsTrimmed line.toList

theorem tidy_tidyLine {line : List Char} (h : '\n' ∉ line) :
    Tidy (String.ofList (tidyLine line)) := by
  constructor
  . unfold OneLine
    rw [String.toList_ofList]
    unfold tidyLine
    split
    . intro hmem
      exact h (List.mem_cons_of_mem _ (mem_of_mem_trimEnd hmem))
    . exact fun hmem => h (mem_of_mem_trimEnd hmem)
  . rw [String.toList_ofList]
    unfold tidyLine
    split <;> exact isTrimmed_trimEnd _

theorem tidy_of_mem_linesOf {text line : String} (h : line ∈ linesOf text) : Tidy line := by
  unfold linesOf at h
  split at h
  . rw [List.mem_singleton.1 h]
    exact ⟨by decide, fun c hlast => by cases hlast⟩
  . obtain ⟨part, hpart, rfl⟩ := List.mem_map.1 h
    exact tidy_tidyLine (lineFeed_not_mem_of_mem_splitLines hpart)

theorem linesOf_space_append {line : String} (h : Tidy line) : linesOf (" " ++ line) = [line] := by
  have hlist : (" " ++ line).toList = ' ' :: line.toList := by
    simp [String.toList_append]
  have hfeed : '\n' ∉ ' ' :: line.toList := by
    rw [List.mem_cons, not_or]
    exact ⟨by decide, h.oneLine⟩
  unfold linesOf
  rw [hlist]
  simp only []
  rw [splitLines_of_lineFeed_not_mem hfeed (List.cons_ne_nil _ _), List.map_singleton, tidyLine,
    h.isTrimmed.trimEnd_eq, String.ofList_toList]

section Trim

theorem trimLines_eq_rdropWhile (ls : List String) :
    trimLines ls = (ls.dropWhile String.isEmpty).rdropWhile String.isEmpty := rfl

theorem exists_append_trimLines (ls : List String) :
    ∃ before after, ls = before ++ trimLines ls ++ after
      ∧ ∀ line ∈ before ++ after, line = "" := by
  refine ⟨ls.takeWhile String.isEmpty,
    (ls.dropWhile String.isEmpty).rtakeWhile String.isEmpty, ?_, ?_⟩
  . rw [trimLines_eq_rdropWhile, List.append_assoc, List.rdropWhile_append_rtakeWhile,
      List.takeWhile_append_dropWhile]
  . intro line hmem
    rw [List.mem_append] at hmem
    cases hmem with
    | inl hmem => simpa using List.mem_takeWhile_imp hmem
    | inr hmem => simpa using List.mem_rtakeWhile_imp hmem

theorem head?_dropWhile_isEmpty_ne (ls : List String) :
    (ls.dropWhile String.isEmpty).head? ≠ some "" := by
  intro h
  have := List.head?_dropWhile_not String.isEmpty ls
  rw [h] at this
  cases this

theorem dropWhile_isEmpty_eq_self {ls : List String} (h : ls.head? ≠ some "") :
    ls.dropWhile String.isEmpty = ls := by
  cases ls with
  | nil => rfl
  | cons line ls =>
    apply List.dropWhile_cons_of_neg
    intro hempty
    apply h
    rw [List.head?_cons, String.isEmpty_iff.1 hempty]

theorem head?_trimLines_ne (ls : List String) : (trimLines ls).head? ≠ some "" := by
  intro h
  obtain ⟨after, hafter⟩ := List.rdropWhile_prefix String.isEmpty (ls.dropWhile String.isEmpty)
  apply head?_dropWhile_isEmpty_ne ls
  rw [← hafter, ← trimLines_eq_rdropWhile, List.head?_append, h]
  rfl

theorem getLast?_trimLines_ne (ls : List String) : (trimLines ls).getLast? ≠ some "" := by
  rw [trimLines, List.getLast?_reverse]
  exact head?_dropWhile_isEmpty_ne _

theorem trimLines_eq_self {ls : List String} (hhead : ls.head? ≠ some "")
    (hlast : ls.getLast? ≠ some "") : trimLines ls = ls := by
  rw [← List.head?_reverse] at hlast
  rw [trimLines, dropWhile_isEmpty_eq_self hhead, dropWhile_isEmpty_eq_self hlast,
    List.reverse_reverse]

end Trim

def gathered (attributes : List Attribute) : List String :=
  (attributes.filterMap Attribute.docText?).flatMap linesOf

theorem tidy_of_mem_gathered {attributes : List Attribute} {line : String}
    (h : line ∈ gathered attributes) : Tidy line := by
  obtain ⟨text, _, hline⟩ := List.mem_flatMap.1 h
  exact tidy_of_mem_linesOf hline

theorem ofAttributes_eq_some_iff {attributes : List Attribute} {doc : String} :
    ofAttributes attributes = some doc
      ↔ trimLines (gathered attributes) ≠ []
        ∧ doc = joinWith "\n" (trimLines (gathered attributes)) := by
  unfold ofAttributes gathered
  split
  . next hnil => simp [hnil]
  . next hne =>
    rw [Option.some.injEq]
    exact ⟨fun heq => ⟨hne, heq.symm⟩, fun h => h.2.symm⟩

theorem tidy_of_mem_trimLines {attributes : List Attribute} {line : String}
    (h : line ∈ trimLines (gathered attributes)) : Tidy line := by
  obtain ⟨before, after, hlines, _⟩ := exists_append_trimLines (gathered attributes)
  have hmem : line ∈ gathered attributes := by
    rw [hlines]
    exact List.mem_append_left _ (List.mem_append_right _ h)
  exact tidy_of_mem_gathered hmem

theorem lines_of_ofAttributes {attributes : List Attribute} {doc : String}
    (h : ofAttributes attributes = some doc) :
    Text.lines doc = trimLines (gathered attributes) := by
  rw [(ofAttributes_eq_some_iff.1 h).2]
  apply lines_joinWith
  . intro line hline
    have htidy := tidy_of_mem_trimLines hline
    exact htidy.isTrimmed.isLine htidy.oneLine
  . exact getLast?_trimLines_ne _

theorem Tidy.exists_not_blank {line : String} (h : Tidy line) (hne : line ≠ "") :
    ∃ c ∈ line.toList, isBlank c = false := by
  have hchars : line.toList ≠ [] := mt String.toList_eq_nil_iff.1 hne
  have hlast := List.getLast?_eq_some_getLast hchars
  exact ⟨_, List.getLast_mem hchars, h.isTrimmed _ hlast⟩

theorem flatMap_linesOf_space_append {ls : List String} (h : ∀ line ∈ ls, Tidy line) :
    (ls.map (" " ++ ·)).flatMap linesOf = ls := by
  induction ls with
  | nil => rfl
  | cons line ls ih =>
    rw [List.forall_mem_cons] at h
    rw [List.map_cons, List.flatMap_cons, linesOf_space_append h.1, ih h.2]
    rfl

theorem lines_unlines_docLines {margin doc : String} (hmargin : OneLine margin)
    (h : ∀ line ∈ Text.lines doc, Tidy line) :
    Text.lines (unlines (docLines margin (some doc))) = docLines margin (some doc) := by
  apply lines_unlines
  intro line hline
  simp only [docLines, docBlock, List.cons_append, List.mem_cons, List.mem_append, List.mem_map,
    List.not_mem_nil, or_false] at hline
  rcases hline with hopen | ⟨carried, hcarried, hline⟩ | hclose
  . rw [hopen]
    exact isLine_append hmargin (by decide) (by decide) (by intro c h; cases h; decide)
  . rw [← hline]
    exact isLine_docLine hmargin (h carried hcarried).oneLine (h carried hcarried).isTrimmed
  . rw [hclose]
    exact isLine_append hmargin (by decide) (by decide) (by intro c h; cases h; decide)

/--
The lines of documentation are those that the attributes hold, without the empty ones before the
first and behind the last that say something. The comment has one line for each of them, in order,
also where tags follow, and the printed comment falls into these lines again. One attribute for each
line, whatever other attributes stand between them, holds the same documentation.
-/
theorem lines_kept_of_ofAttributes {attributes : List Attribute} {doc : String}
    (h : ofAttributes attributes = some doc) :
    (∃ before after, gathered attributes = before ++ Text.lines doc ++ after
        ∧ ∀ line ∈ before ++ after, line = "")
      ∧ doc = joinWith "\n" (Text.lines doc) ∧ Text.lines doc ≠ []
      ∧ (∀ line, (Text.lines doc).head? = some line ∨ (Text.lines doc).getLast? = some line →
          ∃ c ∈ line.toList, isBlank c = false)
      ∧ (∀ line ∈ Text.lines doc, IsTrimmed line.toList)
      ∧ (∀ margin, ∃ printed, List.Forall₂ (Carries margin) (Text.lines doc) printed
          ∧ docLines margin (some doc) = (margin ++ "/**") :: printed ++ [margin ++ " */"]
          ∧ ∀ tags, docBlock margin (Text.lines doc ++ tags)
            = (margin ++ "/**") :: (printed ++ tags.map (docLine margin)) ++ [margin ++ " */"])
      ∧ (∀ margin, OneLine margin →
          Text.lines (unlines (docLines margin (some doc))) = docLines margin (some doc))
      ∧ ∀ others : List Attribute,
          others.filterMap Attribute.docText? = (Text.lines doc).map (" " ++ ·) →
          ofAttributes others = some doc := by
  obtain ⟨hne, hdoc⟩ := ofAttributes_eq_some_iff.1 h
  have hlines := lines_of_ofAttributes h
  have htidy : ∀ line ∈ Text.lines doc, Tidy line := by
    rw [hlines]
    exact fun _ => tidy_of_mem_trimLines
  have hhead : (Text.lines doc).head? ≠ some "" := hlines ▸ head?_trimLines_ne _
  have hlast : (Text.lines doc).getLast? ≠ some "" := hlines ▸ getLast?_trimLines_ne _
  rw [← hlines] at hne hdoc
  refine ⟨?_, hdoc, hne, ?_, fun line hline => (htidy line hline).isTrimmed, ?_, ?_, ?_⟩
  . rw [hlines]
    exact exists_append_trimLines _
  . intro line hend
    cases hend with
    | inl hfirst =>
      apply (htidy line (List.mem_of_head? hfirst)).exists_not_blank
      rintro rfl
      exact hhead hfirst
    | inr hfinal =>
      apply (htidy line (List.mem_of_getLast? hfinal)).exists_not_blank
      rintro rfl
      exact hlast hfinal
  . intro margin
    refine ⟨(Text.lines doc).map (docLine margin), ?_, rfl, ?_⟩
    . rw [List.forall₂_map_right_iff, List.forall₂_same]
      exact fun line hline => carries_docLine margin (htidy line hline).isTrimmed
    . intro tags
      rw [docBlock, List.map_append]
  . exact fun margin hmargin => lines_unlines_docLines hmargin htidy
  . intro others hothers
    have hgathered : gathered others = Text.lines doc := by
      rw [gathered, hothers, flatMap_linesOf_space_append htidy]
    rw [ofAttributes_eq_some_iff, hgathered, trimLines_eq_self hhead hlast]
    exact ⟨hne, hdoc⟩

def attributeOf (line : String) : Attribute where
  path := ["doc"]
  body := .value {} (some (" " ++ line))

def roomAttributes : List Attribute :=
  [{ path := ["doc"], body := .value {} (some "") },
    { path := ["doc"], body := .value {} (some " A room. */\x0d\n\t*//  \n\u3000") },
    { path := ["must_use"], body := .bare },
    { path := ["doc"], body := .value {} (some "  It has\x0dwalls.\u0085") },
    { path := ["doc"], body := .value {} (some " \n ") }]

theorem lines_kept_room :
    ∃ doc, ofAttributes roomAttributes = some doc
      ∧ Text.lines doc = ["A room. */", "\t*//", "", " It has\x0dwalls."]
      ∧ docLines "  " (some doc)
        = ["  /**", "   * A room. *\\/", "   * \t*\\//", "   *", "   *  It has\x0dwalls.", "   */"]
      ∧ Text.lines (unlines (docLines "  " (some doc))) = docLines "  " (some doc)
      ∧ ofAttributes (["A room. */", "\t*//", "", " It has\x0dwalls."].map attributeOf)
        = some doc := by
  have hok : ofAttributes roomAttributes = some "A room. */\n\t*//\n\n It has\x0dwalls." := by
    decide +kernel
  have hlines : Text.lines "A room. */\n\t*//\n\n It has\x0dwalls."
      = ["A room. */", "\t*//", "", " It has\x0dwalls."] := by
    decide +kernel
  obtain ⟨-, -, -, -, -, -, hprinted, hagain⟩ := lines_kept_of_ofAttributes hok
  refine ⟨_, hok, hlines, by decide +kernel, hprinted "  " (by decide), ?_⟩
  apply hagain
  rw [hlines]
  rfl

end Native.Documentation

end Bindings
