import Bindings.Proofs.Artifact.Comments
import Bindings.Proofs.Artifact.DeclaredNames
import Bindings.Proofs.Bare
import Bindings.Proofs.Text.Condensed

/-!
This module contains that an artifact is condensed to the artifact without documentation, line by
line: the blocks of a type and of a function lose their comments, and a union gets its plain layout.
-/

namespace Bindings

namespace Artifact

open Text

section Docs

theorem holds_terminator_cons (c : Char) (cs : List Char) :
    holds (c :: cs) "*/".toList = ((c == '*' && cs.head? == some '/') || holds cs "*/".toList) := by
  rw [holds]
  congr 1
  cases cs with
  | nil => simp [List.isPrefixOf]
  | cons d cs => simp [List.isPrefixOf, Bool.beq_comm]

theorem holds_terminator_escapeTerminator (cs : List Char) :
    holds (escapeTerminator cs) "*/".toList = false := by
  induction cs using escapeTerminator.induct with
  | case1 => rfl
  | case2 cs ih =>
    rw [escapeTerminator, holds_terminator_cons, holds_terminator_cons, holds_terminator_cons, ih]
    simp
  | case3 c cs hterminator ih =>
    rw [escapeTerminator, holds_terminator_cons, ih]
    . cases cs with
      | nil => simp [escapeTerminator]
      | cons d cs =>
        obtain ⟨rest, heq⟩ := escapeTerminator_cons d cs
        rw [heq]
        simp only [List.head?_cons, Bool.or_false, Bool.and_eq_false_imp, beq_iff_eq,
          beq_eq_false_iff_ne, Option.some.injEq, ne_eq]
        rintro hstar hslash
        rw [hslash] at hterminator
        exact hterminator cs hstar rfl
    . exact hterminator

variable {margin : String}

theorem closesComment_append_of_blank (hmargin : Blank margin) (line : String) :
    closesComment (margin ++ line) = closesComment line := by
  unfold closesComment
  rw [String.toList_append]
  unfold Blank at hmargin
  generalize margin.toList = cs at hmargin
  induction cs with
  | nil => rfl
  | cons c cs ih =>
    rw [List.forall_mem_cons] at hmargin
    rw [List.cons_append, holds_terminator_cons, hmargin.1, ih hmargin.2]
    rfl

theorem closesComment_docLine (hmargin : Blank margin) (line : String) :
    closesComment (docLine margin line) = false := by
  unfold docLine
  split
  . rw [closesComment_append_of_blank hmargin]
    rfl
  . rw [String.append_assoc, closesComment_append_of_blank hmargin]
    have hsign : " * ".toList = [' ', '*', ' '] := rfl
    unfold closesComment
    rw [String.toList_append, hsign]
    simp only [List.cons_append, List.nil_append, holds_terminator_cons, String.toList_ofList,
      holds_terminator_escapeTerminator]
    rfl

theorem dropComments_docBlock (hmargin : Blank margin) (lines rest : List String) :
    dropComments false (docBlock margin lines ++ rest) = dropComments false rest := by
  have hopen : opensComment (margin ++ "/**") = true := by
    unfold opensComment
    rw [content_append_of_blank hmargin]
    rfl
  have hclose : closesComment (margin ++ " */") = true := by
    rw [closesComment_append_of_blank hmargin]
    rfl
  have hinside : dropComments true (lines.map (docLine margin) ++ ([margin ++ " */"] ++ rest))
      = dropComments false rest := by
    induction lines with
    | nil => simp [dropComments, hclose]
    | cons line lines ih =>
      rw [List.map_cons, List.cons_append, dropComments, closesComment_docLine hmargin]
      exact ih
  unfold docBlock
  rw [List.append_assoc, List.cons_append, dropComments, hopen]
  exact hinside

theorem dropComments_docLines (hmargin : Blank margin) (doc : Option String) (rest : List String) :
    dropComments false (docLines margin doc ++ rest) = dropComments false rest := by
  cases doc with
  | none => rfl
  | some doc => exact dropComments_docBlock hmargin _ rest

theorem condenses_docBlock (hmargin : Blank margin) (lines : List String) :
    Condenses (docBlock margin lines) [] := by
  intro rest
  unfold condenseLines
  rw [dropComments_docBlock hmargin]
  rfl

theorem condenses_docLines (hmargin : Blank margin) (doc : Option String) :
    Condenses (docLines margin doc) [] := by
  cases doc with
  | none => exact Condenses.nil
  | some doc => exact condenses_docBlock hmargin _

end Docs

section Texts

variable (nameOf : String → String) (o : Options)

theorem typeText_bare : (type : TypeRef) → typeText nameOf o.bare type = typeText nameOf o type
  | .scalar kind => by rw [typeText, typeText]; rfl
  | .named id => by rw [typeText, typeText]
  | .vector element => by rw [typeText_vector, typeText_vector, typeText_bare element]
  | .option inner => by rw [typeText, typeText, typeText_bare inner]; rfl
  | .tuple elements => by
    have helements : elements.map (typeText nameOf o.bare) = elements.map (typeText nameOf o) := by
      apply List.map_congr_left
      intro element hmem
      exact typeText_bare element
    rw [typeText, typeText, typeText.go_eq_map, typeText.go_eq_map, helements]
  | .map key value => by
    rw [typeText, typeText, typeText_bare key, typeText_bare value]
    rfl

theorem propertyText_bare (field : Field) :
    propertyText nameOf o.bare field.bare = propertyText nameOf o field := by
  simp only [propertyText, typeText_bare]
  rfl

theorem flattenedText_bare (type : TypeRef) :
    flattenedText nameOf o.bare type = flattenedText nameOf o type := by
  simp only [flattenedText, typeText_bare]

theorem properties_bare (fields : List Field) :
    properties nameOf o.bare (fields.map Field.bare) = properties nameOf o fields := by
  unfold properties
  rw [List.filter_map, List.map_map]
  apply List.map_congr_left
  intro field _
  exact propertyText_bare nameOf o field

theorem flattenedParts_bare (fields : List Field) :
    flattenedParts nameOf o.bare (fields.map Field.bare) = flattenedParts nameOf o fields := by
  unfold flattenedParts
  rw [List.filter_map, List.map_map]
  apply List.map_congr_left
  intro field _
  exact flattenedText_bare nameOf o field.type

theorem objectText_bare (leading : List String) (fields : List Field) :
    objectText nameOf o.bare leading (fields.map Field.bare)
      = objectText nameOf o leading fields := by
  unfold objectText
  rw [properties_bare, flattenedParts_bare]

theorem memberText_bare (tagging : Tagging) (variant : Variant) :
    memberText nameOf o.bare tagging variant.bare = memberText nameOf o tagging variant := by
  obtain ⟨name, payload, doc⟩ := variant
  cases payload with
  | unit => rfl
  | newtype type => simp only [memberText, Variant.bare, Payload.bare, typeText_bare]
  | tuple elements =>
    simp only [memberText, Variant.bare, Payload.bare, tupleText, typeText_bare]
  | struct fields => simp only [memberText, Variant.bare, Payload.bare, objectText_bare]

theorem resultText_bare (result : Option TypeRef) (synchrony : Synchrony) :
    resultText nameOf o.bare result synchrony = resultText nameOf o result synchrony := by
  simp only [resultText, typeText_bare]

end Texts

section Blocks

variable (nameOf : String → String) (o : Options)

theorem condenses_structLines (name : String) (fields : List Field) :
    Condenses (structLines nameOf o name fields)
      (structLines nameOf o.bare name (fields.map Field.bare)) := by
  have hkept : (fields.map Field.bare).filter (!·.flatten)
      = (fields.filter (!·.flatten)).map Field.bare := by
    rw [List.filter_map]
    rfl
  have hmembers : ∀ field : Field, Condenses
      (docLines o.margin field.doc ++ [o.margin ++ propertyText nameOf o field ++ ";"])
      (docLines o.bare.margin field.bare.doc
        ++ [o.bare.margin ++ propertyText nameOf o.bare field.bare ++ ";"]) := by
    intro field
    rw [propertyText_bare]
    exact (condenses_docLines (blank_margin o) field.doc).append (Condenses.statement _)
  have hbraces : EndsWith '\x7d' emptyObject := ⟨['\x7b'], rfl⟩
  have hclose : Condenses ["\x7d"] ["\x7d"] := Condenses.line rfl (by decide)
  unfold structLines
  dsimp only
  rw [hkept, flattenedParts_bare, List.isEmpty_map, List.flatMap_map]
  -- With properties or without, and flattened fields turn the interface into an intersection.
  split
  . exact Condenses.of_endsWith (hbraces.append _) (by decide)
  . exact Condenses.statement _
  . have hopen : EndsWith '\x7b' " \x7b" := ⟨[' '], rfl⟩
    have hhead := Condenses.of_endsWith
      (hopen.append (o.declarator ++ "interface " ++ name)) (by decide)
    exact (hhead.append (Condenses.flatMap hmembers _)).append hclose
  . have hopen : EndsWith '\x7b' " = \x7b" := ⟨[' ', '=', ' '], rfl⟩
    have hhead := Condenses.of_endsWith (hopen.append (o.declarator ++ "type " ++ name)) (by decide)
    exact (hhead.append (Condenses.flatMap hmembers _)).append (Condenses.statement _)

theorem exists_memberLines (tagging : Tagging) {variants : List Variant} (h : variants ≠ []) :
    ∃ lines, lines ≠ [] ∧ (∀ line ∈ lines, isMember line = true)
      ∧ joinWith " | " (lines.map member)
        = joinWith " | " (variants.map (memberText nameOf o tagging)) ++ ";"
      ∧ ∀ rest, dropComments false (unionLines nameOf o tagging variants ++ rest)
        = lines ++ dropComments false rest := by
  have hmargin := blank_margin o
  -- The recursion of the lines treats the last member apart, since it ends the union.
  induction variants using unionLines.induct with
  | case1 => exact absurd rfl h
  | case2 variant =>
    refine ⟨[o.margin ++ "| " ++ (memberText nameOf o tagging variant ++ ";")],
      List.cons_ne_nil _ _, ?_, ?_, ?_⟩
    . rw [List.forall_mem_singleton]
      exact isMember_of_blank hmargin _
    . simp [member_of_blank hmargin]
    . intro rest
      rw [unionLines, List.append_assoc, dropComments_docLines hmargin, String.append_assoc]
      exact dropComments_member (isMember_of_blank hmargin _) rest
  | case3 variant variants hnil ih =>
    have hne : variants ≠ [] := hnil
    obtain ⟨lines, hlines, hmembers, htexts, hdrop⟩ := ih hne
    refine ⟨(o.margin ++ "| " ++ memberText nameOf o tagging variant) :: lines,
      List.cons_ne_nil _ _, ?_, ?_, ?_⟩
    . rw [List.forall_mem_cons]
      exact ⟨isMember_of_blank hmargin _, hmembers⟩
    . rw [List.map_cons, List.map_cons, member_of_blank hmargin,
        joinWith_cons (by simpa using hlines), joinWith_cons (by simpa using hne), htexts]
      simp only [String.append_assoc]
    . intro rest
      rw [unionLines, List.append_assoc, List.append_assoc, dropComments_docLines hmargin,
        List.singleton_append, dropComments_member (isMember_of_blank hmargin _), hdrop]
      . rfl
      . exact hnil

theorem condenses_union {head : String} (tagging : Tagging) {variants : List Variant}
    (h : variants ≠ []) (hmember : isMember head = false) (hends : EndsWith '=' head) :
    Condenses (head :: unionLines nameOf o tagging variants ++ [""])
      [head ++ " " ++ joinWith " | " (variants.map (memberText nameOf o tagging)) ++ ";", ""] := by
  obtain ⟨lines, _, hmembers, htexts, hdrop⟩ := exists_memberLines nameOf o tagging h
  have hopens : opensComment head = false := opensComment_of_endsWith hends (by decide) (by decide)
  have hlast : head.toList.getLast? = some '=' := by
    obtain ⟨cs, heq⟩ := hends
    rw [heq, List.getLast?_concat]
  have hempty : isMember "" = false := rfl
  intro rest
  have hlines : dropComments false (head :: unionLines nameOf o tagging variants ++ [""] ++ rest)
      = head :: (lines ++ dropComments false ("" :: rest)) := by
    rw [List.append_assoc, List.cons_append, dropComments, hopens, hdrop]
    rfl
  have hrest : joinUnions (lines ++ dropComments false ("" :: rest))
      = lines ++ "" :: condenseLines rest := by
    rw [joinUnions_members hmembers]
    rfl
  -- The lines of members are left as they are, so the head finds all of them up to the empty line.
  unfold condenseLines
  rw [hlines, joinUnions, hrest, hmember, hlast]
  simp only [List.takeWhile_append_of_pos hmembers, List.dropWhile_append_of_pos hmembers,
    List.takeWhile_cons, List.dropWhile_cons, hempty]
  simp [htexts, condenseLines, String.append_assoc]

theorem isMember_declarator (rest : String) : isMember (o.declarator ++ rest) = false := by
  have hbegins : ∃ c, c ≠ ' ' ∧ c ≠ '|' ∧ BeginsWith c o.declarator := by
    unfold Options.declarator
    split
    . exact ⟨'e', by decide, by decide, _, rfl⟩
    . exact ⟨'d', by decide, by decide, _, rfl⟩
  obtain ⟨c, hspace, hbar, hbegins⟩ := hbegins
  have hline := hbegins.append rest
  unfold isMember
  rw [content_of_beginsWith hline hspace]
  obtain ⟨cs, heq⟩ := hline
  rw [heq]
  simp [List.isPrefixOf, hbar.symm]

theorem condenses_enumLines (name : String) (tagging : Tagging) (variants : List Variant) :
    Condenses (enumLines nameOf o name tagging variants ++ [""])
      (enumLines nameOf o.bare name tagging (variants.map Variant.bare) ++ [""]) := by
  have hmembers : (variants.map Variant.bare).map (memberText nameOf o.bare tagging)
      = variants.map (memberText nameOf o tagging) := by
    rw [List.map_map]
    apply List.map_congr_left
    intro variant _
    exact memberText_bare nameOf o tagging variant
  have hplain : (variants.map Variant.bare).all (·.doc.isNone) = true := by
    simp [Variant.bare]
  unfold enumLines
  dsimp only
  rw [hmembers, hplain, List.isEmpty_map]
  split
  . have hnever : EndsWith ';' " = never;" := ⟨[' ', '=', ' ', 'n', 'e', 'v', 'e', 'r'], rfl⟩
    exact (Condenses.of_endsWith (hnever.append _) (by decide)).append Condenses.empty
  . next hempty =>
    split
    . exact (Condenses.statement _).append Condenses.empty
    . have hne : variants ≠ [] := by simpa using hempty
      have hsign : EndsWith '=' " =" := ⟨[' '], rfl⟩
      have hmember : isMember (o.declarator ++ "type " ++ name ++ " =") = false := by
        rw [String.append_assoc, String.append_assoc]
        exact isMember_declarator o _
      have hunion := condenses_union nameOf o tagging hne hmember (hsign.append _)
      have hspace : ∀ text : String, text ++ " =" ++ " " = text ++ " = " := by
        intro text
        rw [String.append_assoc]
        rfl
      rw [hspace] at hunion
      exact hunion

theorem condenses_typeLines (decl : TypeDecl) :
    Condenses (typeLines nameOf o decl ++ [""]) (typeLines nameOf o.bare decl.bare ++ [""]) := by
  have hdoc := condenses_docLines blank_empty decl.doc
  unfold typeLines
  rw [List.append_assoc]
  apply hdoc.append
  cases hbody : decl.body with
  | struct fields =>
    dsimp only [TypeDecl.bare]
    rw [hbody]
    exact (condenses_structLines nameOf o decl.declaredName fields).append Condenses.empty
  | enum tagging variants =>
    dsimp only [TypeDecl.bare]
    rw [hbody]
    exact condenses_enumLines nameOf o decl.declaredName tagging variants
  | typeAlias target =>
    dsimp only [TypeDecl.bare]
    rw [hbody]
    dsimp only [Body.bare]
    unfold aliasLines
    rw [typeText_bare]
    exact (Condenses.statement _).append Condenses.empty

theorem condenses_functionLines (function : FunctionDecl) :
    Condenses (functionLines nameOf o function)
      (functionLines nameOf o.bare function.bare) := by
  have hparams : function.bare.params.map
        (fun param => param.name ++ ": " ++ typeText nameOf o.bare param.type)
      = function.params.map fun param => param.name ++ ": " ++ typeText nameOf o param.type := by
    simp only [FunctionDecl.bare, FunctionDecl.owned, List.map_map, Function.comp_def, Param.owned,
      typeText_bare]
  have hdoc : (function.bare.doc.map Text.lines).getD []
      ++ functionTags nameOf o.bare function.bare = [] := rfl
  unfold functionLines
  dsimp only
  rw [hdoc, hparams, resultText_bare]
  apply Condenses.append
  . split
    . exact Condenses.nil
    . exact condenses_docBlock blank_empty _
  . exact Condenses.statement _

theorem condenses_separate (decls : List TypeDecl) :
    Condenses (separate (decls.map (typeLines nameOf o)) ++ [""])
      (separate ((decls.map TypeDecl.bare).map (typeLines nameOf o.bare)) ++ [""]) := by
  induction decls with
  | nil => exact Condenses.empty
  | cons decl decls ih =>
    have hdecl := condenses_typeLines nameOf o decl
    cases decls with
    | nil => exact hdecl
    | cons next decls =>
      have hsplit : ∀ (block next : List String) blocks, separate (block :: next :: blocks) ++ [""]
          = (block ++ [""]) ++ (separate (next :: blocks) ++ [""]) := by
        intro block next blocks
        simp [separate]
      simp only [List.map_cons, hsplit]
      exact hdecl.append ih

theorem condenses_functions (functions : List FunctionDecl) :
    Condenses (functions.flatMap (functionLines nameOf o))
      ((functions.map FunctionDecl.bare).flatMap (functionLines nameOf o.bare)) := by
  rw [List.flatMap_map]
  exact Condenses.flatMap (condenses_functionLines nameOf o) functions

end Blocks

section Emission

variable {u : Universe} (o : Options) (r : Resolution u)

theorem condenses_bodyLines :
    Condenses (bodyLines o r ++ [""])
      (bodyLines o.bare (cosmetic_bare.mapResolution r) ++ [""]) := by
  have htypes := condenses_separate u.nameOf o r.decls
  have hfunctions := condenses_functions u.nameOf o r.functions
  have hmapped : (cosmetic_bare.mapResolution r).functions
      = r.functions.map FunctionDecl.bare := rfl
  unfold bodyLines
  rw [cosmetic_bare.nameOf_mapUniverse, cosmetic_bare.decls_mapResolution, hmapped]
  simp only [List.isEmpty_map]
  -- Behind the types stands an empty line, before the functions or at the end.
  cases hdecls : r.decls.isEmpty with
  | true =>
    rw [List.isEmpty_iff] at hdecls
    rw [hdecls]
    exact hfunctions.append Condenses.empty
  | false =>
    cases hnone : r.functions.isEmpty with
    | true =>
      rw [List.isEmpty_iff] at hnone
      rw [hnone]
      simpa using htypes
    | false =>
      simpa using (htypes.append hfunctions).append Condenses.empty

theorem condense_text {d : Description} (h : d.Accepted u r) (hheader : o.header = []) :
    condense (text o r) = text o.bare (cosmetic_bare.mapResolution r) := by
  have hlines : condenseLines (bodyLines o r ++ [""])
      = bodyLines o.bare (cosmetic_bare.mapResolution r) ++ [""] := by
    have hcondenses := condenses_bodyLines o r []
    rw [List.append_nil] at hcondenses
    rw [hcondenses]
    exact List.append_nil _
  have hheader' : o.bare.header = [] := hheader
  rw [text_eq_append, text_eq_append, hheader, hheader']
  simp only [unlines, String.empty_append]
  unfold condense
  rw [feedLines_unlines (declares_bodyLines h o).oneLine, hlines, joinWith_feed]

theorem text_owned (h : o.jsdoc = false) : text o (cosmetic_owned.mapResolution r) = text o r := by
  have hfunction : ∀ function : FunctionDecl,
      functionLines u.nameOf o function.owned = functionLines u.nameOf o function := by
    intro function
    unfold functionLines functionTags
    simp only [h, FunctionDecl.owned, List.map_map, Function.comp_def, Param.owned]
    rfl
  have hfunctions : (cosmetic_owned.mapResolution r).functions
      = r.functions.map FunctionDecl.owned := rfl
  unfold text lines
  rw [cosmetic_owned.nameOf_mapUniverse, cosmetic_owned.decls_mapResolution, hfunctions,
    List.map_id', List.flatMap_map, List.isEmpty_map]
  simp only [hfunction]

end Emission

end Artifact

end Bindings
