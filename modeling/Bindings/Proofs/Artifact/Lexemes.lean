import Bindings.Proofs.Artifact.Blocks
import Bindings.Proofs.Artifact.Comments

/-!
This module contains what an artifact is to a scanner of the target: its comments are those of the
documentation, its literals are quoted names of the description, and its brackets are nested.
-/

namespace Bindings.Artifact

open Text

/--
Lexemes with given comments, whose literals are quoted names and whose brackets are nested.
-/
structure Sound (quotable : String → Prop) (comments : List String) (lexemes : List Lexeme) :
    Prop where
  comments_eq : lexemes.filterMap Lexeme.comment? = comments.map String.toList
  literals : ∀ literal ∈ lexemes.filterMap Lexeme.literal?,
    ∃ name, quotable name ∧ literal = (Quoted.encode name).toList
  nested : Nested (lexemes.filterMap Lexeme.sign?)

def Contained (quotable : String → Prop) (comments : List String) (text : String) : Prop :=
  ∃ lexemes, Cuts text.toList lexemes ∧ Sound quotable comments lexemes

namespace Contained

variable {quotable : String → Prop} {comments more : List String} {text other : String}

theorem append (h : Contained quotable comments text) (hother : Contained quotable more other) :
    Contained quotable (comments ++ more) (text ++ other) := by
  obtain ⟨lexemes, hcuts, hsound⟩ := h
  obtain ⟨others, hcuts', hsound'⟩ := hother
  refine ⟨lexemes ++ others, ?_, ?_, ?_, ?_⟩
  . rw [String.toList_append]
    exact hcuts.append hcuts'
  . rw [List.filterMap_append, hsound.comments_eq, hsound'.comments_eq, List.map_append]
  . intro literal hmem
    rw [List.filterMap_append, List.mem_append] at hmem
    exact hmem.elim (hsound.literals literal) (hsound'.literals literal)
  . rw [List.filterMap_append]
    exact hsound.nested.append hsound'.nested

theorem inert (h : text.toList.all isInert = true) : Contained quotable [] text := by
  rw [List.all_eq_true] at h
  refine ⟨_, cuts_of_forall fun c hmem => (isInert_cases (h c hmem)).1, ?_, ?_, ?_⟩
  . simp [List.filterMap_map, Function.comp_def, Lexeme.comment?]
  . simp [List.filterMap_map, Function.comp_def, Lexeme.literal?]
  . simp only [List.filterMap_map, Function.comp_def, Lexeme.sign?, List.filterMap_some]
    exact nested_of_forall fun c hmem => (isInert_cases (h c hmem)).2

theorem bracketed {opening closing : Char} (hpair : (opening, closing) ∈ brackets)
    (h : Contained quotable comments text) :
    Contained quotable comments (String.ofList (opening :: text.toList ++ [closing])) := by
  have hpairs : ∀ pair ∈ brackets,
      (pair.1 ≠ '/' ∧ pair.1 ≠ '"') ∧ pair.2 ≠ '/' ∧ pair.2 ≠ '"' := by decide
  have hone : ∀ c, c ≠ '/' ∧ c ≠ '"' → Cuts [c] [.sign c] := by
    intro c hc
    exact cuts_of_forall (List.forall_mem_singleton.2 hc)
  obtain ⟨hopening, hclosing⟩ := hpairs _ hpair
  obtain ⟨lexemes, hcuts, hsound⟩ := h
  have hall := ((hone opening hopening).append hcuts).append (hone closing hclosing)
  rw [← String.toList_ofList (l := [opening] ++ text.toList ++ [closing])] at hall
  refine ⟨_, hall, ?_, ?_, ?_⟩
  . simpa [List.filterMap_cons, Lexeme.comment?] using hsound.comments_eq
  . simpa [List.filterMap_cons, Lexeme.literal?] using hsound.literals
  . simpa [List.filterMap_cons, Lexeme.sign?] using Nested.group hpair hsound.nested .nil

theorem round (h : Contained quotable comments text) :
    Contained quotable comments ("(" ++ text ++ ")") := by
  simpa [String.append_assoc] using h.bracketed (by decide : ('(', ')') ∈ brackets)

theorem square (h : Contained quotable comments text) :
    Contained quotable comments ("[" ++ text ++ "]") := by
  simpa [String.append_assoc] using h.bracketed (by decide : ('[', ']') ∈ brackets)

theorem curly (h : Contained quotable comments text) :
    Contained quotable comments ("\x7b" ++ text ++ "\x7d") := by
  simpa [String.append_assoc] using h.bracketed (by decide : ('\x7b', '\x7d') ∈ brackets)

theorem angle (h : Contained quotable comments text) :
    Contained quotable comments ("<" ++ text ++ ">") := by
  simpa [String.append_assoc] using h.bracketed (by decide : ('<', '>') ∈ brackets)

theorem comment {margin : String} (lines : List String) (hmargin : Commented margin.toList) :
    Contained quotable [comment margin lines] (Artifact.comment margin lines) := by
  refine ⟨_, cuts_comment lines hmargin, ?_, ?_, ?_⟩
  . rfl
  . intro literal hmem
    cases hmem
  . exact .nil

theorem mono {quotable' : String → Prop} (himp : ∀ name, quotable name → quotable' name)
    (h : Contained quotable comments text) : Contained quotable' comments text := by
  obtain ⟨lexemes, hcuts, hsound⟩ := h
  refine ⟨lexemes, hcuts, hsound.comments_eq, ?_, hsound.nested⟩
  intro literal hmem
  obtain ⟨name, hname, heq⟩ := hsound.literals literal hmem
  exact ⟨name, himp name hname, heq⟩

end Contained

theorem isInert_of_isSign {c : Char} (h : isSign c = true) : isInert c = true := by
  have hall : [' ', ':', '?', ';', ',', '&', '|', '='].all isInert = true := by decide
  exact List.all_eq_true.1 hall c (List.contains_iff_mem.1 h)

theorem texture_contained (quotable : String → Prop) :
    Texture (Contained quotable []) quotable where
  append htext hother := htext.append hother
  identifier hname := Contained.inert (isInert_of_isIdentifier hname)
  quoted {name} hname := by
    refine ⟨_, Quoted.cuts_encode name, ?_, ?_, ?_⟩
    . rfl
    . intro literal hmem
      exact ⟨name, hname, List.mem_singleton.1 hmem⟩
    . exact .nil
  signs hsigns := by
    apply Contained.inert
    rw [List.all_eq_true] at hsigns ⊢
    exact fun c hmem => isInert_of_isSign (hsigns c hmem)
  round htext := htext.round
  square htext := htext.square
  curly htext := htext.curly
  angle htext := htext.angle

theorem gathers_contained (quotable : String → Prop) :
    Gathers fun text comments => Contained quotable comments text where
  append htext hother := htext.append hother
  empty := Contained.inert rfl
  feed := Contained.inert rfl

section Blocks

variable {quotable : String → Prop} {nameOf : String → String} {o : Options}

theorem contained_line {text : String} (h : Contained quotable [] text) :
    Contained quotable [] (unlines [text]) :=
  (gathers_contained quotable).line h

theorem contained_blank {margin : String} (h : Blank margin) : Contained quotable [] margin := by
  apply Contained.inert
  rw [List.all_eq_true]
  intro c hmem
  rw [h c hmem]
  rfl

theorem contained_docBlock {margin : String} (lines : List String) (hmargin : Blank margin) :
    Contained quotable [comment margin lines] (unlines (docBlock margin lines)) := by
  have hcommented : Commented margin.toList := by
    apply commented_of_forall
    intro c hmem
    rw [hmargin c hmem]
    decide
  have hfeed : Contained quotable [] "\n" := Contained.inert rfl
  rw [unlines_docBlock]
  exact ((contained_blank hmargin).append (Contained.comment lines hcommented)).append hfeed

theorem contained_docLines {margin : String} (doc : Option String) (hmargin : Blank margin) :
    Contained quotable (docComments margin doc) (unlines (docLines margin doc)) := by
  cases doc with
  | none => exact Contained.inert rfl
  | some doc => exact contained_docBlock _ hmargin

theorem contained_heading {keyword name : String} (hkeyword : keyword.toList.all isInert = true)
    (hname : Identifier.isIdentifier name = true) :
    Contained quotable [] (o.declarator ++ keyword ++ name) := by
  have hdeclarator : Contained quotable [] o.declarator := by
    unfold Options.declarator
    split
    . exact Contained.inert rfl
    . exact Contained.inert rfl
  exact (hdeclarator.append (Contained.inert hkeyword)).append
    ((texture_contained quotable).identifier hname)

theorem contained_assignment {name text : String} (hname : Identifier.isIdentifier name = true)
    (htext : Contained quotable [] text) :
    Contained quotable [] (unlines [o.declarator ++ "type " ++ name ++ " = " ++ text ++ ";"]) := by
  have hheading : Contained quotable [] (o.declarator ++ "type " ++ name) :=
    contained_heading rfl hname
  exact contained_line (((hheading.append (Contained.inert rfl)).append htext).append
    (Contained.inert rfl))

theorem contained_member (doc : Option String) {text : String} (h : Contained quotable [] text) :
    Contained quotable (docComments o.margin doc)
      (unlines (docLines o.margin doc ++ [o.margin ++ text])) := by
  have hline := contained_line ((contained_blank (blank_margin o)).append h)
  have hmember := (gathers_contained _).block (contained_docLines doc (blank_margin o)) hline
  rwa [List.append_nil] at hmember

theorem unlines_interface (heading : String) (members : List String) :
    unlines ((heading ++ " \x7b") :: members ++ ["\x7d"])
      = heading ++ " " ++ ("\x7b" ++ ("\n" ++ unlines members) ++ "\x7d") ++ "\n" := by
  apply String.toList_inj.1
  simp [unlines, unlines_append]

theorem unlines_intersection (heading parts : String) (members : List String) :
    unlines ((heading ++ " = \x7b") :: members ++ ["\x7d & " ++ parts ++ ";"])
      = heading ++ " = " ++ ("\x7b" ++ ("\n" ++ unlines members) ++ "\x7d") ++ " & " ++ parts ++ ";"
        ++ "\n" := by
  apply String.toList_inj.1
  simp [unlines, unlines_append]

theorem contained_structLines {name : String} {fields : List Field}
    (hname : Identifier.isIdentifier name = true)
    (hfields : ∀ field ∈ fields, field.Writable quotable nameOf) :
    Contained quotable (bodyComments o (.struct fields))
      (unlines (structLines nameOf o name fields)) := by
  have htexture := texture_contained quotable
  have hparts : Contained quotable [] (joinWith " & " (flattenedParts nameOf o fields)) :=
    htexture.joinWith rfl (htexture.flattenedParts hfields)
  have hmembers : Contained quotable (bodyComments o (.struct fields))
      (unlines ((fields.filter (!·.flatten)).flatMap fun field =>
        docLines o.margin field.doc ++ [o.margin ++ propertyText nameOf o field ++ ";"])) := by
    apply (gathers_contained _).flatMap
    intro field hmem
    have hproperty := htexture.propertyText (o := o) (hfields field (List.mem_filter.1 hmem).1)
    rw [String.append_assoc]
    exact contained_member field.doc (hproperty.append (Contained.inert rfl))
  have hheading : ∀ keyword rest : String, keyword.toList.all isInert = true →
      rest.toList.all isInert = true →
        Contained quotable [] (o.declarator ++ keyword ++ name ++ rest) := by
    intro keyword rest hkeyword hrest
    exact (contained_heading hkeyword hname).append (Contained.inert hrest)
  have hfeed : Contained quotable [] "\n" := Contained.inert rfl
  unfold structLines
  dsimp only
  -- Without properties there are no comments either.
  split
  . next hkept _ =>
    rw [bodyComments, List.isEmpty_iff.1 hkept]
    exact contained_line ((hheading "interface " " " rfl rfl).append htexture.emptyObject)
  . next hkept _ =>
    rw [bodyComments, List.isEmpty_iff.1 hkept]
    exact contained_assignment hname hparts
  . have hobject := (hfeed.append hmembers).curly
    rw [unlines_interface]
    simpa using ((hheading "interface " " " rfl rfl).append hobject).append hfeed
  . have hobject := (hfeed.append hmembers).curly
    have hand : Contained quotable [] " & " := Contained.inert rfl
    have hstop : Contained quotable [] ";" := Contained.inert rfl
    rw [unlines_intersection]
    simpa using (((((hheading "type " " = " rfl rfl).append hobject).append hand).append
      hparts).append hstop).append hfeed

theorem contained_unionLines {tagging : Tagging} {variants : List Variant}
    (htagging : tagging.Writable quotable)
    (hvariants : ∀ variant ∈ variants, variant.Writable quotable nameOf) :
    Contained quotable (variants.flatMap fun variant => docComments o.margin variant.doc)
      (unlines (unionLines nameOf o tagging variants)) := by
  have hmember : ∀ variant ∈ variants,
      Contained quotable [] ("| " ++ memberText nameOf o tagging variant) := by
    intro variant hmem
    have htexture := texture_contained quotable
    have htext := htexture.memberText (o := o) htagging (hvariants variant hmem)
    exact htexture.append (Contained.inert rfl) htext
  clear hvariants
  induction variants using unionLines.induct with
  | case1 => exact Contained.inert rfl
  | case2 variant =>
    rw [List.forall_mem_singleton] at hmember
    have hstop : Contained quotable [] ";" := Contained.inert rfl
    have hlast := contained_member (o := o) variant.doc (hmember.append hstop)
    simpa [unionLines, String.append_assoc] using hlast
  | case3 variant variants hnil ih =>
    rw [List.forall_mem_cons] at hmember
    rw [unionLines]
    . have hfirst := contained_member (o := o) variant.doc hmember.1
      rw [String.append_assoc]
      exact (gathers_contained _).block hfirst (ih hmember.2)
    . exact hnil

theorem contained_enumLines {name : String} {tagging : Tagging} {variants : List Variant}
    (hname : Identifier.isIdentifier name = true) (htagging : tagging.Writable quotable)
    (hvariants : ∀ variant ∈ variants, variant.Writable quotable nameOf) :
    Contained quotable (bodyComments o (.enum tagging variants))
      (unlines (enumLines nameOf o name tagging variants)) := by
  have htexture := texture_contained quotable
  have hheading : Contained quotable [] (o.declarator ++ "type " ++ name) :=
    contained_heading rfl hname
  unfold enumLines
  dsimp only
  split
  . next hempty =>
    rw [bodyComments, List.isEmpty_iff.1 hempty]
    exact contained_line (hheading.append (Contained.inert rfl))
  . split
    . next hplain =>
      have hnone : (variants.flatMap fun variant => docComments o.margin variant.doc) = [] := by
        rw [List.flatMap_eq_nil_iff]
        intro variant hmem
        rw [Option.isNone_iff_eq_none.1 (List.all_eq_true.1 hplain variant hmem)]
        rfl
      rw [bodyComments, hnone]
      apply contained_assignment hname
      apply htexture.joinWith rfl
      intro text hmem
      obtain ⟨variant, hvariant, heq⟩ := List.mem_map.1 hmem
      rw [← heq]
      exact htexture.memberText htagging (hvariants variant hvariant)
    . have hhead : Contained quotable [] (unlines [o.declarator ++ "type " ++ name ++ " ="]) :=
        contained_line (hheading.append (Contained.inert rfl))
      have hvariants := contained_unionLines (o := o) htagging hvariants
      have hunion := (gathers_contained _).block hhead hvariants
      rw [List.nil_append] at hunion
      exact hunion

theorem contained_typeLines {decl : TypeDecl}
    (hname : Identifier.isIdentifier decl.declaredName = true)
    (hbody : decl.body.Writable quotable nameOf) :
    Contained quotable (typeComments o decl) (unlines (typeLines nameOf o decl)) := by
  unfold typeLines typeComments
  apply (gathers_contained _).block (contained_docLines _ blank_empty)
  cases heq : decl.body with
  | struct fields =>
    rw [heq] at hbody
    exact contained_structLines hname hbody
  | enum tagging variants =>
    rw [heq] at hbody
    exact contained_enumLines hname hbody.1 hbody.2
  | typeAlias target =>
    rw [heq] at hbody
    dsimp only [bodyComments, aliasLines]
    exact contained_assignment hname ((texture_contained quotable).typeText target hbody)

theorem signature_eq (heading params result : String) :
    heading ++ "(" ++ params ++ "): " ++ result ++ ";"
      = heading ++ ("(" ++ params ++ ")") ++ ": " ++ result ++ ";" := by
  apply String.toList_inj.1
  simp

theorem contained_functionLines {function : FunctionDecl}
    (hname : Identifier.isIdentifier function.name = true)
    (hparams : ∀ param ∈ function.params, Identifier.isIdentifier param.name = true)
    (hnamed : ∀ type site, function.Makes type site → type.NamedBy nameOf) :
    Contained quotable (functionComments nameOf o function)
      (unlines (functionLines nameOf o function)) := by
  have htexture := texture_contained quotable
  have hdoc : Contained quotable (functionComments nameOf o function)
      (unlines (if (functionDocs nameOf o function).isEmpty then []
        else docBlock "" (functionDocs nameOf o function))) := by
    unfold functionComments
    split
    . exact Contained.inert rfl
    . exact contained_docBlock _ blank_empty
  have hlist : Contained quotable [] (joinWith ", " (function.params.map fun param =>
      param.name ++ ": " ++ typeText nameOf o param.type)) := by
    apply htexture.joinWith rfl
    intro text hmem
    obtain ⟨param, hparam, heq⟩ := List.mem_map.1 hmem
    obtain ⟨index, hindex⟩ := List.mem_iff_getElem?.1 hparam
    have htype := htexture.typeText (o := o) param.type (hnamed _ _ (.param hindex))
    rw [← heq]
    exact htexture.append (htexture.append (htexture.identifier (hparams param hparam))
      (Contained.inert rfl)) htype
  have hresult : Contained quotable []
      (resultText nameOf o function.result function.synchrony) :=
    htexture.resultText fun type htype => hnamed type _ (.result htype)
  have hheading : Contained quotable [] (o.declarator ++ "function " ++ function.name) :=
    contained_heading rfl hname
  have hcolon : Contained quotable [] ": " := Contained.inert rfl
  have hstop : Contained quotable [] ";" := Contained.inert rfl
  have hsignature := contained_line ((((hheading.append hlist.round).append hcolon).append
    hresult).append hstop)
  have hlines := (gathers_contained _).block hdoc hsignature
  rw [List.append_nil] at hlines
  unfold functionLines
  dsimp only
  rw [signature_eq]
  exact hlines

end Blocks

theorem contained_bodyLines {d : Description} {u : Universe} {r : Resolution u}
    (h : d.Accepted u r) (o : Options) :
    Contained (fun name => ∃ decl ∈ d.types, decl.Quotes name) (comments o r)
      (unlines (bodyLines o r)) := by
  apply (gathers_contained _).bodyLines
  . intro decl hmem
    obtain ⟨i, hi, heq⟩ := List.mem_map.1 hmem
    rw [← heq]
    have hlines := contained_typeLines (o := o) (h.isIdentifier_declaredName i) (h.writable_body hi)
    exact hlines.mono fun name hquotes => ⟨u.get i, h.mem_types i, hquotes⟩
  . intro function hmem
    rw [h.functions_eq] at hmem
    apply contained_functionLines (h.isIdentifier_function hmem)
    . intro param hparam
      exact h.isIdentifier_param hmem hparam
    . intro type site hmakes
      exact h.namedBy_of_function hmem hmakes

/--
To a scanner an artifact without a header is what it was meant to be, whatever texts the description
contains: it ends outside of comments and literals, its comments are the documentation in order, its
literals are names of the description, quoted and on one line, and its brackets are nested.
-/
theorem lexemes_of_generate {d : Description} {o : Options} {text : String}
    (hheader : o.header = []) (h : (d.generate o).result = .ok text) :
    ∃ u, ∃ r : Resolution u, ∃ lexemes,
      Universe.ofDecls d.types = .ok u
        ∧ (Resolution.resolve u d.functions).result = .ok r
        ∧ cut .outside text.toList = some lexemes
        ∧ lexemes.flatMap Lexeme.text = text.toList
        ∧ lexemes.filterMap Lexeme.comment? = (comments o r).map String.toList
        ∧ (∀ literal ∈ lexemes.filterMap Lexeme.literal?,
            (∀ c ∈ literal, c ∉ lineEnds)
              ∧ ∃ decl ∈ d.types, ∃ name, decl.Quotes name
                ∧ literal = (Quoted.encode name).toList)
        ∧ Nested (lexemes.filterMap Lexeme.sign?) := by
  obtain ⟨u, r, haccepted, heq⟩ := Description.generate_eq_ok_iff.1 h
  obtain ⟨lexemes, hcuts, hsound⟩ := contained_bodyLines haccepted o
  have htext : text = unlines (bodyLines o r) := by
    rw [heq, text_eq_append, hheader]
    simp [unlines]
  have hcut := hcuts.cut_eq_some
  rw [← htext] at hcut
  refine ⟨u, r, lexemes, haccepted.declared, haccepted.resolved, hcut, flatMap_text_of_cut hcut,
    hsound.comments_eq, ?_, hsound.nested⟩
  intro literal hmem
  obtain ⟨name, ⟨decl, hdecl, hquotes⟩, hliteral⟩ := hsound.literals literal hmem
  constructor
  . rw [hliteral]
    exact Quoted.lineEnds_not_mem_encode name
  . exact ⟨decl, hdecl, name, hquotes, hliteral⟩

def plainNotes : Options where
  header := []
  indent := 2
  jsdoc := true

theorem lexemes_notes :
    ∃ text lexemes, (Description.generate ⟨notes.decls, [readNote]⟩ plainNotes).result = .ok text
      ∧ cut .outside text.toList = some lexemes
      ∧ lexemes.filterMap Lexeme.comment?
        = ["/**\n * A note.\n * export type Fake = 1;\n */",
          "/**\n   * *\\/ export type Other = 1;\n   */",
          "/**\n * @returns \x7bNote\x7d\n */"].map String.toList
      ∧ Nested (lexemes.filterMap Lexeme.sign?) := by
  have hok := accepted_notes.generate_eq_ok plainNotes
  obtain ⟨u, r, lexemes, hdeclared, hresolved, hcut, _, hcomments, _, hnested⟩ :=
    lexemes_of_generate rfl hok
  rw [accepted_notes.declared] at hdeclared
  cases hdeclared
  rw [accepted_notes.resolved] at hresolved
  cases hresolved
  refine ⟨_, lexemes, hok, hcut, ?_, hnested⟩
  rw [hcomments]
  rfl

end Bindings.Artifact
