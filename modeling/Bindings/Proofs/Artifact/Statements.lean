import Bindings.Proofs.Artifact.ObjectTypes

/-!
This module contains the outline of a whole artifact, statement by statement: the object types that
it declares, and where it mixes `&` and `|`.
-/

namespace Bindings.Artifact

open Text

/--
A text of whole statements. It mixes `&` and `|` in a given number of groups and nowhere else, even
if it is followed by more statements.
-/
def Stated (text : String) (objects : List (List String)) (mixed : Nat) : Prop :=
  ∃ trees, Reads text trees ∧ (∀ rest, isMixed (trees ++ rest) = isMixed rest)
    ∧ objectKeys trees = objects ∧ mixtures trees = mixed

namespace Stated

variable {text other : String} {objects more : List (List String)} {mixed next : Nat}
variable {marks : List Char} {lines others : List String}

theorem append (h : Stated text objects mixed) (hother : Stated other more next) :
    Stated (text ++ other) (objects ++ more) (mixed + next) := by
  obtain ⟨trees, hreads, hclear, hobjects, hmixed⟩ := h
  obtain ⟨trees', hreads', hclear', hobjects', hmixed'⟩ := hother
  refine ⟨trees ++ trees', hreads.append hreads', ?_, ?_, ?_⟩
  . intro rest
    rw [List.append_assoc, hclear, hclear']
  . rw [objectKeys_append, hobjects, hobjects']
  . rw [mixtures_append, hmixed, hmixed']

theorem plain (h : Outlined text separators objects mixed) : Stated text objects mixed := by
  obtain ⟨trees, hreads, hmarked, hrest⟩ := h
  exact ⟨trees, hreads, fun rest => isMixed_append hmarked, hrest⟩

theorem void (h : Void text) : Stated text [] 0 :=
  plain h.outlined

theorem ended (h : Outlined text marks objects mixed) (hclear : isClear marks = true) :
    Stated (text ++ ";") objects mixed := by
  obtain ⟨trees, hreads, hmarked, hobjects, hmixed⟩ := h
  have hstop : Reads ";" [.sign ';'] := Reads.signs rfl
  have hends : Tree.isMark separators (.sign ';') = true := rfl
  refine ⟨trees ++ [.sign ';'], hreads.append hstop, ?_, ?_, ?_⟩
  . intro rest
    rw [List.append_assoc, List.singleton_append, isMixed_append_cons hends,
      isMixed_eq_false hmarked hclear, Bool.false_or]
  . rw [objectKeys_append, hobjects, objectKeys_eq_nil (List.forall_mem_singleton.2 rfl),
      List.append_nil]
  . rw [mixtures_append, hmixed, mixtures_eq_zero (List.forall_mem_singleton.2 rfl), Nat.add_zero]

theorem empty : Stated "" [] 0 :=
  void (Void.blank rfl)

theorem line (h : Stated text objects mixed) : Stated (unlines [text]) objects mixed := by
  have hfeed : Stated "\n" [] 0 := void (Void.blank rfl)
  simpa [unlines] using h.append hfeed

theorem block (h : Stated (unlines lines) objects mixed)
    (hothers : Stated (unlines others) more next) :
    Stated (unlines (lines ++ others)) (objects ++ more) (mixed + next) := by
  rw [unlines_append]
  exact h.append hothers

theorem flatMap {elements : List α} {lines : α → List String} {objects : α → List (List String)}
    {mixed : α → Nat}
    (h : ∀ element ∈ elements, Stated (unlines (lines element)) (objects element) (mixed element)) :
    Stated (unlines (elements.flatMap lines)) (elements.flatMap objects)
      (elements.map mixed).sum := by
  induction elements with
  | nil => exact empty
  | cons element elements ih =>
    rw [List.forall_mem_cons] at h
    exact h.1.block (ih h.2)

theorem separate {elements : List α} {block : α → List String} {objects : α → List (List String)}
    {mixed : α → Nat}
    (h : ∀ element ∈ elements, Stated (unlines (block element)) (objects element) (mixed element)) :
    Stated (unlines (Artifact.separate (elements.map block))) (elements.flatMap objects)
      (elements.map mixed).sum := by
  induction elements with
  | nil => exact empty
  | cons element elements ih =>
    rw [List.forall_mem_cons] at h
    cases elements with
    | nil => simpa [Artifact.separate] using h.1
    | cons next elements =>
      have hblocks := h.1.block (empty.line.block (ih h.2))
      simpa [Artifact.separate] using hblocks

end Stated

section Blocks

variable {quotable : String → Prop} {nameOf : String → String} {o : Options}

theorem layout_heading {keyword name : String} {marks : List Char}
    (hkeyword : Layout keyword marks) (hname : Identifier.isIdentifier name = true) :
    Layout (o.declarator ++ keyword ++ name) marks := by
  have hdeclarator : Layout o.declarator marks := by
    unfold Options.declarator
    split
    . exact Layout.signs rfl
    . exact Layout.signs rfl
  exact (hdeclarator.append hkeyword).append (Layout.identifier hname)

theorem stated_assignment {name text : String} {marks : List Char} {objects : List (List String)}
    {mixed : Nat} (hname : Identifier.isIdentifier name = true)
    (htext : Outlined text marks objects mixed) (hclear : isClear marks = true) :
    Stated (unlines [o.declarator ++ "type " ++ name ++ " = " ++ text ++ ";"]) objects mixed := by
  have hheading : Outlined (o.declarator ++ "type " ++ name) ('=' :: marks) [] 0 :=
    (layout_heading (Layout.signs rfl) hname).outlined
  have hequals : Outlined " = " ('=' :: marks) [] 0 := Outlined.signs rfl
  have hall := (hheading.append hequals).append (htext.mono (List.subset_cons_self _ _))
  rw [List.nil_append, List.nil_append, Nat.zero_add] at hall
  exact (Stated.ended hall hclear).line

theorem keyed_memberLines {fields : List Field}
    (hfields : ∀ field ∈ fields, field.type.NamedBy nameOf) :
    Keyed (unlines (fields.flatMap fun field =>
        docLines o.margin field.doc ++ [o.margin ++ propertyText nameOf o field ++ ";"]))
      (fields.map fun field => propertyKey field.name) [';', ':', '|'] [] := by
  induction fields with
  | nil => exact Keyed.nil
  | cons field fields ih =>
    rw [List.forall_mem_cons] at hfields
    have hbefore := (Void.docLines field.doc (blank_margin o)).append (Void.indent (blank_margin o))
    have hfeed : Void "\n" := Void.blank rfl
    have hnone : Void "" := Void.blank rfl
    have hproperty := (keyed_propertyText (o := o) hfields.1).pad hbefore hnone
    have hall := hproperty.next ((ih hfields.2).pad hfeed hnone)
    have hsplit : ∀ docs : List String, ∀ property : String, ∀ rest : List String,
        unlines (docs ++ [o.margin ++ property ++ ";"] ++ rest)
          = unlines docs ++ o.margin ++ property ++ "" ++ ";" ++ ("\n" ++ unlines rest ++ "") := by
      intro docs property rest
      apply String.toList_inj.1
      simp [unlines, unlines_append]
    rw [List.flatMap_cons, hsplit]
    exact hall

theorem outlined_flattenedParts {fields : List Field}
    (hfields : ∀ field ∈ fields, field.type.NamedBy nameOf) :
    Outlined (joinWith " & " (flattenedParts nameOf o fields)) ['&', '=']
      ((flattenedObjects fields).map (·.map propertyKey)) 0 := by
  obtain ⟨parts, htext, hobjects, _, hparts⟩ := exists_flattened (o := o) hfields
  have hand : Outlined " & " ['&', '='] [] 0 := Outlined.signs rfl
  have hjoined := Outlined.joinWith hand fun part hmem =>
    (hparts part hmem).mono (List.nil_subset _)
  rw [htext, hobjects]
  simpa using hjoined

theorem outlined_memberLines {fields : List Field} {marks : List Char}
    (hfields : ∀ field ∈ fields, field.type.NamedBy nameOf) :
    Outlined ("\x7b" ++ ("\n" ++ unlines ((fields.filter (!·.flatten)).flatMap fun field =>
        docLines o.margin field.doc ++ [o.margin ++ propertyText nameOf o field ++ ";"])) ++ "\x7d")
      marks [(propertyNames fields).map propertyKey] 0 := by
  have hkept : ∀ field ∈ fields.filter (!·.flatten), field.type.NamedBy nameOf :=
    fun field hmem => hfields field (List.mem_filter.1 hmem).1
  have hfeed : Void "\n" := Void.blank rfl
  have hnone : Void "" := Void.blank rfl
  have hinner := (keyed_memberLines (o := o) hkept).pad hfeed hnone
  rw [String.append_empty] at hinner
  rw [propertyNames, List.map_map]
  exact hinner.curly rfl

theorem fieldObjects_nil (fields : List Field) :
    fieldObjects [] fields
      = (if (fields.filter (!·.flatten)).isEmpty && !(flattenedParts nameOf o fields).isEmpty
          then [] else [propertyNames fields]) ++ flattenedObjects fields := by
  unfold fieldObjects
  dsimp only
  rw [List.nil_append, propertyNames, List.isEmpty_map, flattenedParts, List.isEmpty_map]

theorem flattenedObjects_eq_nil {fields : List Field}
    (h : (flattenedParts nameOf o fields).isEmpty = true) : flattenedObjects fields = [] := by
  rw [flattenedParts, List.isEmpty_map, List.isEmpty_iff] at h
  rw [flattenedObjects, h, List.flatMap_nil]

theorem stated_structLines {name : String} {fields : List Field}
    (hname : Identifier.isIdentifier name = true)
    (hfields : ∀ field ∈ fields, field.type.NamedBy nameOf) :
    Stated (unlines (structLines nameOf o name fields))
      ((fieldObjects [] fields).map (·.map propertyKey)) 0 := by
  have hparts := outlined_flattenedParts (o := o) hfields
  have hheading : ∀ {keyword marks}, Layout keyword marks →
      Outlined (o.declarator ++ keyword ++ name) marks [] 0 :=
    fun hkeyword => (layout_heading hkeyword hname).outlined
  have hfeed : Stated "\n" [] 0 := Stated.void (Void.blank rfl)
  rw [fieldObjects_nil]
  unfold structLines
  dsimp only
  split
  . next hkept hempty =>
    have hspace : Outlined " " separators [] 0 := Outlined.signs rfl
    have hline := ((hheading (Layout.signs rfl : Layout "interface " separators)).append
      hspace).append outlined_emptyObject
    rw [hkept, hempty, flattenedObjects_eq_nil hempty, propertyNames, List.isEmpty_iff.1 hkept]
    exact (Stated.plain hline).line
  . next hkept hempty =>
    rw [hkept, hempty]
    exact stated_assignment hname hparts rfl
  . next hkept hempty =>
    have hspace : Outlined " " separators [] 0 := Outlined.signs rfl
    have hblock := ((hheading (Layout.signs rfl : Layout "interface " separators)).append
      hspace).append (outlined_memberLines (o := o) hfields)
    rw [hkept, flattenedObjects_eq_nil hempty, unlines_interface]
    exact (Stated.plain hblock).append hfeed
  . next hkept hempty =>
    have hequals : Outlined " = " ['&', '='] [] 0 := Outlined.signs rfl
    have hand : Outlined " & " ['&', '='] [] 0 := Outlined.signs rfl
    have hblock := ((((hheading (Layout.signs rfl : Layout "type " ['&', '='])).append
      hequals).append (outlined_memberLines (o := o) hfields)).append hand).append hparts
    rw [hkept, unlines_intersection]
    simpa using (Stated.ended hblock rfl).append hfeed

theorem unlines_unionLines (tagging : Tagging) {variants : List Variant} (h : variants ≠ []) :
    unlines (unionLines nameOf o tagging variants)
      = joinWith "\n" (variants.map fun variant => unlines (docLines o.margin variant.doc)
          ++ o.margin ++ "| " ++ memberText nameOf o tagging variant) ++ ";" ++ "\n" := by
  induction variants using unionLines.induct with
  | case1 => exact absurd rfl h
  | case2 variant =>
    apply String.toList_inj.1
    simp [unionLines, unlines, unlines_append]
  | case3 variant variants hnil ih =>
    have hne : variants ≠ [] := hnil
    rw [unionLines, unlines_append, unlines_append, ih hne, List.map_cons,
      joinWith_cons (by simpa using hne)]
    . simp [unlines, String.append_assoc]
    . exact hnil

theorem sum_map_ite_eq_countP (p : α → Bool) (elements : List α) :
    (elements.map fun element => if p element then 1 else 0).sum = elements.countP p := by
  induction elements with
  | nil => rfl
  | cons element elements ih =>
    rw [List.map_cons, List.sum_cons, ih, List.countP_cons, Nat.add_comm]

theorem exists_unlines_enumLines (nameOf : String → String) (o : Options) {name : String}
    (tagging : Tagging) (variants : List Variant) (hname : Identifier.isIdentifier name = true) :
    ∃ opening separator, ∃ before : Variant → String,
      unlines (enumLines nameOf o name tagging variants)
          = opening ++ joinWith separator (variants.map fun variant =>
            before variant ++ memberText nameOf o tagging variant) ++ ";" ++ "\n"
        ∧ Layout opening ['|', '='] ∧ Layout separator ['|', '=']
        ∧ ∀ variant, Layout (before variant) ['|', '='] := by
  have hheading : Layout (o.declarator ++ "type " ++ name) ['|', '='] :=
    layout_heading (Layout.signs rfl) hname
  have hnone : Layout "" ['|', '='] := Layout.signs rfl
  have hor : Layout " | " ['|', '='] := Layout.signs rfl
  unfold enumLines
  dsimp only
  split
  . next hempty =>
    have hnever : Layout " = never" ['|', '='] := Layout.signs rfl
    refine ⟨_, " | ", fun _ => "", ?_, hheading.append hnever, hor, fun _ => hnone⟩
    apply String.toList_inj.1
    simp [List.isEmpty_iff.1 hempty, unlines]
  . next hcons =>
    split
    . have hequals : Layout " = " ['|', '='] := Layout.signs rfl
      refine ⟨_, " | ", fun _ => "", ?_, hheading.append hequals, hor, fun _ => hnone⟩
      simp only [String.empty_append]
      simp [unlines, String.append_assoc]
    . have hequals : Layout " =\n" ['|', '='] := Layout.signs rfl
      have hbefore : ∀ variant : Variant,
          Layout (unlines (docLines o.margin variant.doc) ++ o.margin ++ "| ") ['|', '='] :=
        fun variant => ((Void.docLines variant.doc (blank_margin o)).append
          (Void.indent (blank_margin o))).layout.append (Layout.signs rfl)
      have hne : variants ≠ [] := by
        rintro rfl
        exact hcons rfl
      refine ⟨_, "\n", _, ?_, hheading.append hequals, Layout.signs rfl, hbefore⟩
      rw [unlines, unlines_unionLines tagging hne]
      apply String.toList_inj.1
      simp

theorem stated_enumLines {name : String} {tagging : Tagging} {variants : List Variant}
    (hname : Identifier.isIdentifier name = true)
    (hvariants : ∀ variant ∈ variants, variant.Writable quotable nameOf) :
    Stated (unlines (enumLines nameOf o name tagging variants))
      ((variants.flatMap (Variant.objects tagging)).map (·.map propertyKey))
      (variants.countP (Variant.isAmbiguous tagging)) := by
  obtain ⟨opening, separator, before, htext, hopening, hseparator, hbefore⟩ :=
    exists_unlines_enumLines nameOf o tagging variants hname
  have hmember : ∀ variant ∈ variants,
      Outlined (before variant ++ memberText nameOf o tagging variant) ['|', '=']
        ((variant.objects tagging).map (·.map propertyKey))
        (if variant.isAmbiguous tagging then 1 else 0) := by
    intro variant hmem
    have hmember := outlined_memberText (o := o) tagging (hvariants variant hmem)
    simpa using (hbefore variant).outlined.append (hmember.mono (by decide))
  have hunion := hopening.outlined.append (Outlined.joinWith hseparator.outlined hmember)
  have hfeed : Stated "\n" [] 0 := Stated.void (Void.blank rfl)
  rw [htext, List.map_flatMap, ← sum_map_ite_eq_countP]
  simpa using (Stated.ended hunion rfl).append hfeed

theorem stated_typeLines {decl : TypeDecl}
    (hname : Identifier.isIdentifier decl.declaredName = true)
    (hbody : decl.body.Writable quotable nameOf) :
    Stated (unlines (typeLines nameOf o decl)) (decl.body.objects.map (·.map propertyKey))
      decl.body.ambiguities := by
  have hdoc := Stated.void (Void.docLines decl.doc blank_empty)
  unfold typeLines
  cases heq : decl.body with
  | struct fields =>
    rw [heq] at hbody
    have hlines := stated_structLines (o := o) hname fun field hmem => (hbody field hmem).type
    simpa [Body.objects, Body.ambiguities] using hdoc.block hlines
  | enum tagging variants =>
    rw [heq] at hbody
    simpa [Body.objects, Body.ambiguities] using hdoc.block (stated_enumLines hname hbody.2)
  | typeAlias target =>
    rw [heq] at hbody
    have htarget := (outlined_typeText (o := o) target hbody).mono (typeMarks_subset target)
    have hlines := hdoc.block (stated_assignment (o := o) hname htarget rfl)
    simpa [Body.objects, Body.ambiguities, aliasLines] using hlines

theorem void_functionDocs (nameOf : String → String) (o : Options) (function : FunctionDecl) :
    Void (unlines (if (functionDocs nameOf o function).isEmpty then []
      else docBlock "" (functionDocs nameOf o function))) := by
  split
  . exact Void.blank rfl
  . exact Void.docBlock _ blank_empty

section Functions

variable {function : FunctionDecl} (hname : Identifier.isIdentifier function.name = true)
variable (hparams : ∀ param ∈ function.params, Identifier.isIdentifier param.name = true)
variable (hnamed : ∀ type site, function.Makes type site → type.NamedBy nameOf)

include hname hparams hnamed

theorem outlined_signature :
    Outlined (o.declarator ++ "function " ++ function.name
      ++ ("(" ++ joinWith ", " (function.params.map fun param =>
        param.name ++ ": " ++ typeText nameOf o param.type) ++ ")") ++ ": "
      ++ resultText nameOf o function.result function.synchrony) [':', '|'] [] 0 := by
  have hparam : ∀ param ∈ function.params,
      Outlined (param.name ++ ": " ++ typeText nameOf o param.type) [',', ':', '|'] [] 0 := by
    intro param hmem
    obtain ⟨index, hindex⟩ := List.mem_iff_getElem?.1 hmem
    have htype := outlined_typeText (o := o) param.type (hnamed _ _ (.param hindex))
    have hcolon : Outlined ": " [',', ':', '|'] [] 0 := Outlined.signs rfl
    exact ((Outlined.identifier (hparams param hmem)).append hcolon).append
      (htype.mono (List.Subset.trans (typeMarks_subset _) (by decide)))
  have hcomma : Outlined ", " [',', ':', '|'] [] 0 := Outlined.signs rfl
  have hlist : Outlined ("(" ++ joinWith ", " (function.params.map fun param =>
      param.name ++ ": " ++ typeText nameOf o param.type) ++ ")") [':', '|'] [] 0 :=
    (Outlined.joinPlain hcomma hparam).round rfl
  have hresult : Outlined (resultText nameOf o function.result function.synchrony) ['|'] [] 0 :=
    outlined_resultText fun type htype => hnamed type _ (.result htype)
  have hheading : Outlined (o.declarator ++ "function " ++ function.name) [':', '|'] [] 0 :=
    (layout_heading (Layout.signs rfl) hname).outlined
  have hcolon : Outlined ": " [':', '|'] [] 0 := Outlined.signs rfl
  exact ((hheading.append hlist).append hcolon).append (hresult.mono (List.subset_cons_self _ _))

theorem stated_functionLines : Stated (unlines (functionLines nameOf o function)) [] 0 := by
  have hdoc := Stated.void (void_functionDocs nameOf o function)
  have hsignature := outlined_signature (o := o) hname hparams hnamed
  have hlines := hdoc.block (Stated.ended hsignature rfl).line
  unfold functionLines
  dsimp only
  rw [signature_eq]
  exact hlines

end Functions

end Blocks

section Body

variable {d : Description} {u : Universe} {r : Resolution u}
variable (h : d.Accepted u r) (o : Options)

include h

theorem stated_decl {i : u.Id} (hi : i ∈ r.order) :
    Stated (unlines (typeLines u.nameOf o (u.get i)))
      ((u.get i).body.objects.map (·.map propertyKey)) (u.get i).body.ambiguities :=
  stated_typeLines (h.isIdentifier_declaredName i) (h.writable_body hi)

theorem stated_types :
    Stated (unlines (separate (r.decls.map (typeLines u.nameOf o))))
      ((r.decls.flatMap (·.body.objects)).map (·.map propertyKey))
      (r.decls.map (·.body.ambiguities)).sum := by
  rw [List.map_flatMap]
  apply Stated.separate
  intro decl hmem
  obtain ⟨i, hi, rfl⟩ := List.mem_map.1 hmem
  exact stated_decl h o hi

theorem stated_functions :
    Stated (unlines ((if !(r.decls.map (typeLines u.nameOf o)).isEmpty && !r.functions.isEmpty
      then [""] else []) ++ r.functions.flatMap (functionLines u.nameOf o))) [] 0 := by
  have hbetween : Stated (unlines (if !(r.decls.map (typeLines u.nameOf o)).isEmpty
      && !r.functions.isEmpty then [""] else [])) [] 0 := by
    split
    . exact Stated.empty.line
    . exact Stated.empty
  have hfunctions : ∀ function ∈ r.functions, Stated (unlines (functionLines u.nameOf o function))
      [] 0 := by
    intro function hmem
    rw [h.functions_eq] at hmem
    apply stated_functionLines (h.isIdentifier_function hmem)
    . intro param hparam
      exact h.isIdentifier_param hmem hparam
    . intro type site hmakes
      exact h.namedBy_of_function hmem hmakes
  have hnone : r.functions.flatMap (fun _ => ([] : List (List String))) = [] :=
    List.flatMap_eq_nil_iff.2 fun _ _ => rfl
  have hall := hbetween.block (Stated.flatMap hfunctions)
  rw [hnone] at hall
  simpa using hall

theorem stated_bodyLines :
    Stated (unlines (bodyLines o r)) ((r.decls.flatMap (·.body.objects)).map (·.map propertyKey))
      (r.decls.map (·.body.ambiguities)).sum := by
  have hall := (stated_types h o).block (stated_functions h o)
  rwa [List.append_nil, Nat.add_zero] at hall

end Body

end Bindings.Artifact
