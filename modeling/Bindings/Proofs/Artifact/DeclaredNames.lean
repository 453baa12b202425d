import Bindings.Artifact.Emission
import Bindings.Proofs.Acceptance
import Bindings.Proofs.Artifact.Lines
import Bindings.Proofs.Artifact.Texture

/-!
This module contains which names the lines of an artifact declare: those of the resolved types and
those of the functions, once each and in order. No text of a description adds a line to them.
-/

namespace Bindings.Artifact

open Text

theorem texture_oneLine (quotable : String → Prop) : Texture OneLine quotable where
  append htext hother := oneLine_append.2 ⟨htext, hother⟩
  identifier hname := Identifier.oneLine hname
  quoted _ := Quoted.oneLine_encode _
  signs hsigns := by
    intro hfeed
    have hsign := List.all_eq_true.1 hsigns _ hfeed
    revert hsign
    decide
  round htext := oneLine_append.2 ⟨oneLine_append.2 ⟨by decide, htext⟩, by decide⟩
  square htext := oneLine_append.2 ⟨oneLine_append.2 ⟨by decide, htext⟩, by decide⟩
  curly htext := oneLine_append.2 ⟨oneLine_append.2 ⟨by decide, htext⟩, by decide⟩
  angle htext := oneLine_append.2 ⟨oneLine_append.2 ⟨by decide, htext⟩, by decide⟩

theorem mem_of_mem_escapeTerminator {c : Char} {cs : List Char} (h : c ∈ escapeTerminator cs) :
    c ∈ cs ∨ c = '\\' := by
  induction cs using escapeTerminator.induct with
  | case1 => cases h
  | case2 cs ih =>
    rw [escapeTerminator] at h
    simp only [List.mem_cons] at h ⊢
    rcases h with hstar | hback | hslash | hmem
    . exact Or.inl (Or.inl hstar)
    . exact Or.inr hback
    . exact Or.inl (Or.inr (Or.inl hslash))
    . exact (ih hmem).imp_left fun hmem => Or.inr (Or.inr hmem)
  | case3 first cs hterminator ih =>
    rw [escapeTerminator, List.mem_cons] at h
    . cases h with
      | inl heq => exact Or.inl (List.mem_cons.2 (Or.inl heq))
      | inr hmem => exact (ih hmem).imp_left (List.mem_cons_of_mem _)
    . assumption

theorem oneLine_ofList_escapeTerminator {line : String} (h : OneLine line) :
    OneLine (String.ofList (escapeTerminator (trimEnd line.toList))) := by
  unfold OneLine
  rw [String.toList_ofList]
  intro hfeed
  cases mem_of_mem_escapeTerminator hfeed with
  | inl hmem => exact h (mem_of_mem_trimEnd hmem)
  | inr heq =>
    revert heq
    decide

section Docs

variable {o : Options} {margin : String}

theorem inert_docLine {line : String} (hmargin : Blank margin) (hline : OneLine line) :
    Inert o (docLine margin line) := by
  unfold docLine
  split
  . apply Inert.indent hmargin
    exact ⟨by decide, BeginsWith.plain ⟨['*'], rfl⟩ (by decide)⟩
  . rw [String.append_assoc]
    apply Inert.indent hmargin
    have hstar : BeginsWith ' ' " * " := ⟨['*', ' '], rfl⟩
    constructor
    . exact oneLine_append.2 ⟨by decide, oneLine_ofList_escapeTerminator hline⟩
    . exact (hstar.append _).plain (by decide)

theorem inert_of_mem_docBlock {lines : List String} {line : String} (hmargin : Blank margin)
    (hlines : ∀ line ∈ lines, OneLine line) (hmem : line ∈ docBlock margin lines) :
    Inert o line := by
  simp only [docBlock, List.cons_append, List.mem_cons, List.mem_append, List.mem_map,
    List.not_mem_nil, or_false] at hmem
  rcases hmem with hopen | ⟨doc, hdoc, hline⟩ | hclose
  . rw [hopen]
    apply Inert.indent hmargin
    exact ⟨by decide, BeginsWith.plain ⟨['*', '*'], rfl⟩ (by decide)⟩
  . rw [← hline]
    exact inert_docLine hmargin (hlines doc hdoc)
  . rw [hclose]
    apply Inert.indent hmargin
    exact ⟨by decide, BeginsWith.plain ⟨['*', '/'], rfl⟩ (by decide)⟩

theorem inert_of_mem_docLines {doc : Option String} {line : String} (hmargin : Blank margin)
    (hmem : line ∈ docLines margin doc) : Inert o line := by
  cases doc with
  | none => cases hmem
  | some doc => exact inert_of_mem_docBlock hmargin (fun _ => oneLine_of_mem_lines) hmem

end Docs

section Blocks

variable {quotable : String → Prop} {nameOf : String → String} {o : Options}

theorem plain_propertyKey {name rest : String} {c : Char} (hrest : BeginsWith c rest)
    (hc : Identifier.isContinue c = false) (hspace : c ≠ ' ') :
    Plain o (propertyKey name ++ rest) := by
  unfold propertyKey
  split
  . next hident => exact plain_of_identifier hident hrest hc hspace
  . have hquote : BeginsWith '"' (Quoted.encode name) := by
      unfold BeginsWith Quoted.encode Quoted.encodeChars
      rw [String.toList_ofList, List.cons_append]
      exact ⟨_, rfl⟩
    exact (hquote.append rest).plain (by decide)

theorem inert_propertyLine {field : Field} (hfield : field.Writable quotable nameOf) :
    Inert o (o.margin ++ propertyText nameOf o field ++ ";") := by
  rw [String.append_assoc]
  apply Inert.indent (blank_margin o)
  constructor
  . exact oneLine_append.2 ⟨(texture_oneLine quotable).propertyText hfield, by decide⟩
  . unfold propertyText
    split
    . have hsign : BeginsWith '?' "?: " := ⟨[':', ' '], rfl⟩
      simp only [String.append_assoc]
      exact plain_propertyKey (hsign.append _) (by decide) (by decide)
    . have hsign : BeginsWith ':' ": " := ⟨[' '], rfl⟩
      simp only [String.append_assoc]
      exact plain_propertyKey (hsign.append _) (by decide) (by decide)

theorem declares_assignment {name text : String} (hname : Identifier.isIdentifier name = true)
    (htext : OneLine text) :
    Declares o [o.declarator ++ "type " ++ name ++ " = " ++ text ++ ";"] [name] := by
  have hsplit : o.declarator ++ "type " ++ name ++ " = " ++ text ++ ";"
      = o.declarator ++ "type " ++ name ++ (" = " ++ text ++ ";") := by
    simp only [String.append_assoc]
  have hsign : BeginsWith ' ' " = " := ⟨['=', ' '], rfl⟩
  rw [hsplit]
  apply Declares.head (by decide) hname ((hsign.append text).append ";") (by decide)
  simp only [oneLine_append]
  exact ⟨⟨by decide, htext⟩, by decide⟩

theorem declares_structLines {name : String} {fields : List Field}
    (hname : Identifier.isIdentifier name = true)
    (hfields : ∀ field ∈ fields, field.Writable quotable nameOf) :
    Declares o (structLines nameOf o name fields) [name] := by
  have htexture := texture_oneLine quotable
  have hparts : OneLine (joinWith " & " (flattenedParts nameOf o fields)) :=
    htexture.joinWith rfl (htexture.flattenedParts hfields)
  have hmembers : Declares o ((fields.filter (!·.flatten)).flatMap fun field =>
      docLines o.margin field.doc ++ [o.margin ++ propertyText nameOf o field ++ ";"]) [] := by
    apply Declares.of_inert
    intro line hmem
    obtain ⟨field, hfield, hline⟩ := List.mem_flatMap.1 hmem
    cases List.mem_append.1 hline with
    | inl hdoc => exact inert_of_mem_docLines (blank_margin o) hdoc
    | inr hproperty =>
      rw [List.mem_singleton] at hproperty
      rw [hproperty]
      exact inert_propertyLine (hfields field (List.mem_filter.1 hfield).1)
  unfold structLines
  dsimp only
  -- With properties or without, and flattened fields turn the interface into an intersection.
  split
  . have hrest : BeginsWith ' ' (" " ++ emptyObject) := BeginsWith.append ⟨[], rfl⟩ _
    rw [String.append_assoc]
    exact Declares.head (by decide) hname hrest (by decide) (by decide)
  . exact declares_assignment hname hparts
  . have hhead : Declares o [o.declarator ++ "interface " ++ name ++ " \x7b"] [name] :=
      Declares.head (by decide) hname ⟨['\x7b'], rfl⟩ (by decide) (by decide)
    have hclose : Declares o ["\x7d"] [] := by
      apply Declares.of_inert
      rw [List.forall_mem_singleton]
      exact ⟨by decide, BeginsWith.plain ⟨[], rfl⟩ (by decide)⟩
    exact (hhead.append hmembers).append hclose
  . have hhead : Declares o [o.declarator ++ "type " ++ name ++ " = \x7b"] [name] :=
      Declares.head (by decide) hname ⟨['=', ' ', '\x7b'], rfl⟩ (by decide) (by decide)
    have hclose : Declares o ["\x7d & " ++ joinWith " & " (flattenedParts nameOf o fields) ++ ";"]
        [] := by
      have hbrace : BeginsWith '\x7d' "\x7d & " := ⟨[' ', '&', ' '], rfl⟩
      apply Declares.of_inert
      rw [List.forall_mem_singleton]
      constructor
      . simp only [oneLine_append]
        exact ⟨⟨by decide, hparts⟩, by decide⟩
      . exact ((hbrace.append _).append _).plain (by decide)
    exact (hhead.append hmembers).append hclose

theorem inert_memberLine {tagging : Tagging} {variant : Variant} {stop : String}
    (htagging : tagging.Writable quotable) (hvariant : variant.Writable quotable nameOf)
    (hstop : OneLine stop) :
    Inert o (o.margin ++ "| " ++ memberText nameOf o tagging variant ++ stop) := by
  have hbar : BeginsWith '|' "| " := ⟨[' '], rfl⟩
  have hmember := (texture_oneLine quotable).memberText (o := o) htagging hvariant
  simp only [String.append_assoc]
  apply Inert.indent (blank_margin o)
  constructor
  . simp only [oneLine_append]
    exact ⟨by decide, hmember, hstop⟩
  . exact (hbar.append _).plain (by decide)

theorem inert_of_mem_unionLines {tagging : Tagging} {variants : List Variant}
    (htagging : tagging.Writable quotable)
    (hvariants : ∀ variant ∈ variants, variant.Writable quotable nameOf) :
    ∀ line ∈ unionLines nameOf o tagging variants, Inert o line := by
  intro line hmem
  induction variants using unionLines.induct with
  | case1 => cases hmem
  | case2 variant =>
    rw [List.forall_mem_singleton] at hvariants
    rw [unionLines, List.mem_append, List.mem_singleton] at hmem
    cases hmem with
    | inl hdoc => exact inert_of_mem_docLines (blank_margin o) hdoc
    | inr hmember =>
      rw [hmember]
      exact inert_memberLine htagging hvariants (by decide)
  | case3 variant variants hnil ih =>
    rw [List.forall_mem_cons] at hvariants
    rw [unionLines, List.mem_append, List.mem_append, List.mem_singleton] at hmem
    . rcases hmem with (hdoc | hmember) | hrest
      . exact inert_of_mem_docLines (blank_margin o) hdoc
      . have hline := inert_memberLine (o := o) htagging hvariants.1 (by decide : OneLine "")
        rw [String.append_empty] at hline
        rw [hmember]
        exact hline
      . exact ih hvariants.2 hrest
    . exact hnil

theorem declares_enumLines {name : String} {tagging : Tagging} {variants : List Variant}
    (hname : Identifier.isIdentifier name = true) (htagging : tagging.Writable quotable)
    (hvariants : ∀ variant ∈ variants, variant.Writable quotable nameOf) :
    Declares o (enumLines nameOf o name tagging variants) [name] := by
  have htexture := texture_oneLine quotable
  unfold enumLines
  dsimp only
  split
  . exact Declares.head (by decide) hname ⟨[_, _, _, _, _, _, _, _], rfl⟩ (by decide) (by decide)
  . split
    . apply declares_assignment hname
      apply htexture.joinWith rfl
      intro text hmem
      obtain ⟨variant, hvariant, heq⟩ := List.mem_map.1 hmem
      rw [← heq]
      exact htexture.memberText htagging (hvariants variant hvariant)
    . have hhead : Declares o [o.declarator ++ "type " ++ name ++ " ="] [name] :=
        Declares.head (by decide) hname ⟨['='], rfl⟩ (by decide) (by decide)
      exact hhead.append (Declares.of_inert (inert_of_mem_unionLines htagging hvariants))

theorem declares_typeLines {decl : TypeDecl}
    (hname : Identifier.isIdentifier decl.declaredName = true)
    (hbody : decl.body.Writable quotable nameOf) :
    Declares o (typeLines nameOf o decl) [decl.declaredName] := by
  have hdoc : Declares o (docLines "" decl.doc) [] :=
    Declares.of_inert fun _ => inert_of_mem_docLines blank_empty
  unfold typeLines
  apply hdoc.append
  cases heq : decl.body with
  | struct fields =>
    rw [heq] at hbody
    exact declares_structLines hname hbody
  | enum tagging variants =>
    rw [heq] at hbody
    exact declares_enumLines hname hbody.1 hbody.2
  | typeAlias target =>
    rw [heq] at hbody
    exact declares_assignment hname ((texture_oneLine quotable).typeText target hbody)

theorem oneLine_paramTag {param : Param} (hname : Identifier.isIdentifier param.name = true)
    (hnamed : param.type.NamedBy nameOf) : OneLine (paramTag nameOf o param) := by
  have htype := (texture_oneLine fun _ => True).typeText (o := o) param.type hnamed
  unfold paramTag
  simp only [oneLine_append]
  refine ⟨⟨⟨⟨by decide, htype⟩, by decide⟩, Identifier.oneLine hname⟩, ?_⟩
  split
  . decide
  . decide

theorem oneLine_resultText {function : FunctionDecl}
    (hnamed : ∀ type site, function.Makes type site → type.NamedBy nameOf) :
    OneLine (resultText nameOf o function.result function.synchrony) :=
  (texture_oneLine fun _ => True).resultText fun type htype => hnamed type _ (.result htype)

theorem oneLine_of_mem_functionTags {function : FunctionDecl}
    (hparams : ∀ param ∈ function.params, Identifier.isIdentifier param.name = true)
    (hnamed : ∀ type site, function.Makes type site → type.NamedBy nameOf) :
    ∀ line ∈ functionTags nameOf o function, OneLine line := by
  intro line hmem
  unfold functionTags at hmem
  dsimp only at hmem
  split at hmem
  . rw [List.mem_append, List.mem_map] at hmem
    cases hmem with
    | inl hparam =>
      obtain ⟨param, hparam, heq⟩ := hparam
      obtain ⟨index, hindex⟩ := List.mem_iff_getElem?.1 hparam
      rw [← heq]
      exact oneLine_paramTag (hparams param hparam) (hnamed _ _ (.param hindex))
    | inr hresult =>
      split at hresult
      . rw [List.mem_singleton] at hresult
        rw [hresult]
        simp only [oneLine_append]
        exact ⟨⟨by decide, oneLine_resultText hnamed⟩, by decide⟩
      . cases hresult
  . cases hmem

theorem declares_functionLines {function : FunctionDecl}
    (hname : Identifier.isIdentifier function.name = true)
    (hparams : ∀ param ∈ function.params, Identifier.isIdentifier param.name = true)
    (hnamed : ∀ type site, function.Makes type site → type.NamedBy nameOf) :
    Declares o (functionLines nameOf o function) [function.name] := by
  have htexture := texture_oneLine fun _ => True
  have hdoc : ∀ line ∈ (function.doc.map Text.lines).getD [] ++ functionTags nameOf o function,
      OneLine line := by
    intro line hmem
    cases List.mem_append.1 hmem with
    | inl hline =>
      cases hdoc : function.doc with
      | none =>
        rw [hdoc] at hline
        cases hline
      | some doc =>
        rw [hdoc] at hline
        exact oneLine_of_mem_lines hline
    | inr htag => exact oneLine_of_mem_functionTags hparams hnamed line htag
  have hblock : Declares o (if ((function.doc.map Text.lines).getD []
      ++ functionTags nameOf o function).isEmpty then [] else docBlock ""
        ((function.doc.map Text.lines).getD [] ++ functionTags nameOf o function)) [] := by
    apply Declares.of_inert
    split
    . exact List.forall_mem_nil _
    . intro line hmem
      exact inert_of_mem_docBlock blank_empty hdoc hmem
  have hlist : OneLine (joinWith ", " (function.params.map fun param =>
      param.name ++ ": " ++ typeText nameOf o param.type)) := by
    apply htexture.joinWith rfl
    intro text hmem
    obtain ⟨param, hparam, heq⟩ := List.mem_map.1 hmem
    obtain ⟨index, hindex⟩ := List.mem_iff_getElem?.1 hparam
    rw [← heq]
    simp only [oneLine_append]
    exact ⟨⟨Identifier.oneLine (hparams param hparam), by decide⟩,
      htexture.typeText _ (hnamed _ _ (.param hindex))⟩
  have hsplit : ∀ list result : String,
      o.declarator ++ "function " ++ function.name ++ "(" ++ list ++ "): " ++ result ++ ";"
        = o.declarator ++ "function " ++ function.name
          ++ ("(" ++ list ++ "): " ++ result ++ ";") := by
    intro list result
    simp only [String.append_assoc]
  have hrest : ∀ list result : String, BeginsWith '(' ("(" ++ list ++ "): " ++ result ++ ";") := by
    intro list result
    have hparen : BeginsWith '(' "(" := ⟨[], rfl⟩
    exact (((hparen.append _).append _).append _).append _
  unfold functionLines
  apply hblock.append
  rw [hsplit]
  apply Declares.head (by decide) hname (hrest _ _) (by decide)
  simp only [oneLine_append]
  exact ⟨⟨⟨⟨by decide, hlist⟩, by decide⟩, oneLine_resultText hnamed⟩, by decide⟩

end Blocks

theorem declares_separate {o : Options} {elements : List α} {block : α → List String}
    {name : α → String} (h : ∀ element ∈ elements, Declares o (block element) [name element]) :
    Declares o (separate (elements.map block)) (elements.map name) := by
  induction elements with
  | nil => exact Declares.of_inert (List.forall_mem_nil _)
  | cons element elements ih =>
    rw [List.forall_mem_cons] at h
    cases elements with
    | nil => exact h.1
    | cons next elements => exact h.1.append ((Declares.empty o).append (ih h.2))

def bodyLines (o : Options) (r : Resolution u) : List String :=
  separate (r.decls.map (typeLines u.nameOf o))
    ++ ((if !(r.decls.map (typeLines u.nameOf o)).isEmpty && !r.functions.isEmpty then [""] else [])
      ++ r.functions.flatMap (functionLines u.nameOf o))

theorem text_eq_append (o : Options) (r : Resolution u) :
    text o r = unlines o.header ++ unlines (bodyLines o r) := by
  rw [← unlines_append]
  unfold text lines bodyLines
  simp only [List.append_assoc]

theorem declares_bodyLines {d : Description} {u : Universe} {r : Resolution u}
    (h : d.Accepted u r) (o : Options) :
    Declares o (bodyLines o r) (r.decls.map (·.declaredName) ++ d.functions.map (·.name)) := by
  have htypes : Declares o (separate (r.decls.map (typeLines u.nameOf o)))
      (r.decls.map (·.declaredName)) := by
    apply declares_separate
    intro decl hmem
    obtain ⟨i, hi, heq⟩ := List.mem_map.1 hmem
    rw [← heq]
    exact declares_typeLines (h.isIdentifier_declaredName i) (h.writable_body hi)
  have hbetween : Declares o (if !(r.decls.map (typeLines u.nameOf o)).isEmpty
      && !r.functions.isEmpty then [""] else []) [] := by
    split
    . exact Declares.empty o
    . exact Declares.of_inert (List.forall_mem_nil _)
  have hfunctions : Declares o (r.functions.flatMap (functionLines u.nameOf o))
      (r.functions.map (·.name)) := by
    apply Declares.flatMap
    intro function hmem
    rw [h.functions_eq] at hmem
    apply declares_functionLines (h.isIdentifier_function hmem)
    . intro param hparam
      exact h.isIdentifier_param hmem hparam
    . intro type site hmakes
      exact h.namedBy_of_function hmem hmakes
  rw [← h.functions_eq]
  exact htypes.append (hbetween.append hfunctions)

theorem declaredNames_bodyLines {d : Description} {u : Universe} {r : Resolution u}
    (h : d.Accepted u r) (o : Options) :
    declaredNames o ((unlines (bodyLines o r)).toList.splitOn '\n')
      = (r.decls.map (·.declaredName) ++ d.functions.map (·.name)).map some := by
  have hdeclares := declares_bodyLines h o
  -- Behind the last line feed stands one more line, which is empty.
  have hlast : declaredNames o [[]] = [] := (Declares.empty o).declared
  rw [splitOn_unlines hdeclares.oneLine, declaredNames_append, hdeclares.declared, hlast,
    List.append_nil]

/--
Behind its header an artifact declares the resolved types in order and then the functions, each
once. Its lines tell these names whatever documentation, property names and tags the description
contains.
-/
theorem declaredNames_of_generate {d : Description} {o : Options} {text : String}
    (h : (d.generate o).result = .ok text) :
    ∃ u, ∃ r : Resolution u, ∃ rest,
      Universe.ofDecls d.types = .ok u
        ∧ (Resolution.resolve u d.functions).result = .ok r
        ∧ text = unlines o.header ++ rest
        ∧ declaredNames o (rest.toList.splitOn '\n')
          = (r.decls.map (·.declaredName) ++ d.functions.map (·.name)).map some
        ∧ (r.decls.map (·.declaredName) ++ d.functions.map (·.name)).Nodup := by
  obtain ⟨u, r, haccepted, heq⟩ := Description.generate_eq_ok_iff.1 h
  refine ⟨u, r, unlines (bodyLines o r), haccepted.declared, haccepted.resolved, ?_,
    declaredNames_bodyLines haccepted o, haccepted.nodup_names⟩
  rw [heq, text_eq_append]

def notes : Universe where
  decls :=
    [{ id := "Note"
       doc := some "A note.\nexport type Fake = 1;"
       body := .struct
        [{ name := "export", type := .scalar .string, doc := some "*/ export type Other = 1;" },
          { name := "type\nexport type Key", type := .vector (.named "Label") }] },
      { id := "Label"
        rename := some "Tag"
        body := .enum (.internal "\nexport type") [{ name := "Red" }] }]
  nodup_ids := by decide

def readNote : FunctionDecl where
  name := "read"
  result := some (.named "Note")

def flush : Options where
  header := ["export type Head = 1;"]
  indent := 0

theorem accepted_notes : Description.Accepted ⟨notes.decls, [readNote]⟩ notes
    ⟨[(1 : Fin 2), (0 : Fin 2)], [readNote]⟩ := by
  refine ⟨rfl, Universe.ofDecls_eq_ok_iff.2 rfl, ?_, rfl⟩
  cbv

theorem declaredNames_notes :
    ∃ rest, (Description.generate ⟨notes.decls, [readNote]⟩ flush).result
        = .ok ("export type Head = 1;\n" ++ rest)
      ∧ declaredNames flush (rest.toList.splitOn '\n')
        = [some "Tag", some "Note", some "read"] := by
  have hok := accepted_notes.generate_eq_ok flush
  obtain ⟨u, r, rest, hdeclared, hresolved, htext, hnames, _⟩ := declaredNames_of_generate hok
  rw [accepted_notes.declared] at hdeclared
  cases hdeclared
  rw [accepted_notes.resolved] at hresolved
  cases hresolved
  refine ⟨rest, ?_, hnames⟩
  rw [hok, htext]
  rfl

end Bindings.Artifact
