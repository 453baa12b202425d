import Bindings.Proofs.Artifact.ExposedNames

/-!
This module contains the assignments of a whole artifact, statement by statement: which types are
declared by what they are equal to, and which names these values expose.
-/

namespace Bindings

def TypeDecl.assignment? (nameOf : String → String) (o : Options) (decl : TypeDecl) :
    Option (String × List String) :=
  if Artifact.typeKeyword decl.body = "type" then
    some (decl.declaredName, (decl.body.exposedWords o).map (Word.text nameOf))
  else
    none

namespace Artifact

open Text

/--
A text of whole statements with given assignments, whatever follows it.
-/
def Assigning (text : String) (list : List (String × List String)) : Prop :=
  ∃ trees, Reads text trees
    ∧ ∀ rest, assignmentsFrom [] (trees ++ rest) = list ++ assignmentsFrom [] rest

namespace Assigning

variable {text other heading : String} {list more : List (String × List String)} {o : Options}

theorem append (h : Assigning text list) (hother : Assigning other more) :
    Assigning (text ++ other) (list ++ more) := by
  obtain ⟨trees, hreads, hlist⟩ := h
  obtain ⟨trees', hreads', hmore⟩ := hother
  refine ⟨trees ++ trees', hreads.append hreads', ?_⟩
  intro rest
  rw [List.append_assoc, hlist, hmore, List.append_assoc]

theorem void (h : Void text) : Assigning text [] := by
  obtain ⟨trees, hreads, hblank⟩ := h
  exact ⟨trees, hreads, assignmentsFrom_blank hblank⟩

theorem isMark_of_marked {marks : List Char} {trees : List Tree} (h : Marked marks trees)
    (hmarks : '=' ∉ marks) : ∀ tree ∈ trees, tree.isMark ['='] = false := by
  apply h.isMark_eq_false
  simpa using ⟨by decide, hmarks⟩

theorem statement {marks : List Char} {objects : List (List String)} {mixed : Nat}
    (h : Outlined text marks objects mixed) (hmarks : '=' ∉ marks) :
    Assigning (text ++ ";") [] := by
  obtain ⟨trees, hreads, hmarked, _⟩ := h
  have hstop : Reads ";" [.sign ';'] := Reads.signs rfl
  refine ⟨trees ++ [.sign ';'], hreads.append hstop, ?_⟩
  intro rest
  rw [List.append_assoc, List.singleton_append,
    assignmentsFrom_unassigned (isMark_of_marked hmarked hmarks) rfl]
  rfl

theorem body (h : Layout heading []) (htext : Readable text) :
    Assigning (heading ++ ("\x7b" ++ text ++ "\x7d")) [] := by
  obtain ⟨trees, hreads, hmarked, _⟩ := h
  obtain ⟨inner, hinner⟩ := htext
  refine ⟨trees ++ [.group '\x7b' inner], hreads.append hinner.curly, ?_⟩
  intro rest
  rw [List.append_assoc, List.singleton_append,
    assignmentsFrom_unassigned (isMark_of_marked hmarked List.not_mem_nil) rfl]
  rfl

theorem exists_heading {name : String} (hname : Identifier.isIdentifier name = true) :
    ∃ first heading, Reads (o.declarator ++ "type " ++ name ++ " ") (first :: heading)
      ∧ first.isBlank = false ∧ headedName (first :: heading) = name
      ∧ ∀ tree ∈ first :: heading, tree.isMark ['='] = false ∧ tree.endsStatement = false := by
  have hspace : Reads " " [.sign ' '] := Reads.signs rfl
  -- A heading is not skipped as white space in front of a statement: it begins with a keyword.
  obtain ⟨first, keyword, hkeyword, hfirst⟩ : ∃ first keyword,
      Reads (o.declarator ++ "type") (first :: keyword) ∧ first.isBlank = false := by
    unfold Options.declarator
    split
    . exact ⟨_, _, Reads.signs rfl, rfl⟩
    . exact ⟨_, _, Reads.signs rfl, rfl⟩
  have hreads := ((hkeyword.append hspace).append (reads_identifier hname)).append hspace
  have hsplit : o.declarator ++ "type" ++ " " ++ name ++ " "
      = o.declarator ++ "type " ++ name ++ " " := by
    apply String.toList_inj.1
    simp
  have hheaded := headedName_append hname (first :: keyword)
  rw [List.cons_append, List.cons_append, List.cons_append] at hreads hheaded
  rw [hsplit] at hreads
  refine ⟨first, _, hreads, hfirst, hheaded, ?_⟩
  have hlayout : Layout (o.declarator ++ "type " ++ name ++ " ") [] :=
    (layout_heading (Layout.signs rfl) hname).append (Layout.signs rfl)
  obtain ⟨trees, htrees, hmarked, hsigns⟩ := hlayout
  rw [htrees.unique hreads] at hmarked hsigns
  intro tree hmem
  cases tree with
  | sign c =>
    have hsemicolon := hmarked.isMark_eq_false (by decide : [';'].all _ = true) _ hmem
    refine ⟨hmarked.isMark_eq_false (by decide) _ hmem, ?_⟩
    simpa [Tree.isMark, Tree.endsStatement] using hsemicolon
  | literal => cases hsigns _ hmem
  | group => cases hsigns _ hmem

theorem assignment {name value : String} {names : List String}
    (hname : Identifier.isIdentifier name = true) (h : Exposing value names) :
    Assigning (o.declarator ++ "type " ++ name ++ " =" ++ value ++ ";") [(name, names)] := by
  obtain ⟨first, heading, hheading, hfirst, hheaded, hplain⟩ := exists_heading (o := o) hname
  obtain ⟨trees, hreads, hmarked, hnames⟩ := h
  have hequals : Reads "=" [.sign '='] := Reads.signs rfl
  have hstop : Reads ";" [.sign ';'] := Reads.signs rfl
  have hall := ((hheading.append hequals).append hreads).append hstop
  have hsplit : o.declarator ++ "type " ++ name ++ " " ++ "=" ++ value ++ ";"
      = o.declarator ++ "type " ++ name ++ " =" ++ value ++ ";" := by
    apply String.toList_inj.1
    simp
  rw [hsplit] at hall
  refine ⟨_, hall, ?_⟩
  intro rest
  have hvalue := hmarked.isMark_eq_false (by decide : ['=', ';'].all _ = true)
  have hassigned := assignmentsFrom_assigned hfirst hplain hvalue rest
  rw [hheaded, hnames] at hassigned
  simpa using hassigned

end Assigning

theorem gathers_assigning : Gathers Assigning where
  append h hother := h.append hother
  empty := Assigning.void (Void.blank rfl)
  feed := Assigning.void (Void.blank rfl)

section Blocks

variable {quotable : String → Prop} {nameOf : String → String} {o : Options}

theorem assigning_line {name value : String} {names : List String}
    (hname : Identifier.isIdentifier name = true) (h : Exposing value names) :
    Assigning (unlines [o.declarator ++ "type " ++ name ++ " = " ++ value ++ ";"])
      [(name, names)] := by
  have hspace : Void " " := Void.blank rfl
  have hline := gathers_assigning.line (Assigning.assignment (o := o) hname (h.pad hspace))
  have hsplit : o.declarator ++ "type " ++ name ++ " =" ++ (" " ++ value) ++ ";"
      = o.declarator ++ "type " ++ name ++ " = " ++ value ++ ";" := by
    apply String.toList_inj.1
    simp
  rwa [hsplit] at hline

theorem readable_memberLines {fields : List Field}
    (hfields : ∀ field ∈ fields, field.Writable quotable nameOf) :
    Readable ("\n" ++ unlines ((fields.filter (!·.flatten)).flatMap fun field =>
      docLines o.margin field.doc ++ [o.margin ++ propertyText nameOf o field ++ ";"])) := by
  have hfeed : Reads "\n" [.sign '\n'] := Reads.signs rfl
  have htypes : ∀ field ∈ fields.filter (!·.flatten), field.type.NamedBy nameOf := fun field hmem =>
    (hfields field (List.mem_filter.1 hmem).1).type
  obtain ⟨trees, hreads, _⟩ := keyed_memberLines (o := o) htypes
  exact ⟨_, hfeed.append hreads⟩

theorem assigning_structLines {name : String} {fields : List Field}
    (hname : Identifier.isIdentifier name = true)
    (hfields : ∀ field ∈ fields, field.Writable quotable nameOf) :
    Assigning (unlines (structLines nameOf o name fields))
      (if (flattenedParts nameOf o fields).isEmpty then []
        else [(name, (partWords o fields).map (Word.text nameOf))]) := by
  have hmembers := readable_memberLines (o := o) hfields
  have hparts := exposing_flattenedParts (o := o) hfields
  have hheading : Layout (o.declarator ++ "interface " ++ name ++ " ") [] :=
    (layout_heading (Layout.signs rfl) hname).append (Layout.signs rfl)
  unfold structLines
  dsimp only
  split
  . next hkept hempty =>
    rw [if_pos hempty]
    have hnone : Reads "" [] := Reads.signs rfl
    have hbody := Assigning.body hheading ⟨_, hnone⟩
    exact gathers_assigning.line hbody
  . next hkept hempty =>
    rw [if_neg (by simp [hempty])]
    exact assigning_line hname hparts
  . next hkept hempty =>
    rw [if_pos hempty, unlines_interface]
    exact (Assigning.body hheading hmembers).append gathers_assigning.feed
  . next hkept hempty =>
    have hvalue := (Exposing.curly hmembers).join Operator.ampersand hparts
    rw [if_neg (by simp [hempty]), unlines_intersection]
    simpa [unlines, String.append_assoc] using assigning_line (o := o) hname hvalue

theorem unlines_union (heading : String) (tagging : Tagging) {variants : List Variant}
    (h : variants ≠ []) :
    unlines ((heading ++ " =") :: unionLines nameOf o tagging variants)
      = unlines [heading ++ " =" ++ ("" ++ "\n" ++ joinWith "\n" (variants.map fun variant =>
          unlines (docLines o.margin variant.doc) ++ o.margin ++ "| "
            ++ memberText nameOf o tagging variant)) ++ ";"] := by
  rw [unlines, unlines_unionLines tagging h]
  apply String.toList_inj.1
  simp [unlines]

theorem assigning_enumLines {name : String} {tagging : Tagging} {variants : List Variant}
    (hname : Identifier.isIdentifier name = true) (htagging : tagging.Writable quotable)
    (hvariants : ∀ variant ∈ variants, variant.Writable quotable nameOf) :
    Assigning (unlines (enumLines nameOf o name tagging variants))
      [(name, ((Body.enum tagging variants).exposedWords o).map (Word.text nameOf))] := by
  have hmember : ∀ variant ∈ variants, Exposing (memberText nameOf o tagging variant)
      ((variant.exposedWords o tagging).map (Word.text nameOf)) :=
    fun variant hmem => exposing_memberText htagging (hvariants variant hmem)
  unfold enumLines Body.exposedWords
  dsimp only
  split
  . have hnever : Exposing "never" ["never"] := Exposing.identifier (by decide)
    have hsplit : o.declarator ++ "type " ++ name ++ " = " ++ "never" ++ ";"
        = o.declarator ++ "type " ++ name ++ " = never;" := by
      apply String.toList_inj.1
      simp
    rw [← hsplit]
    exact assigning_line hname hnever
  . next hcons =>
    rw [List.map_flatMap]
    split
    . exact assigning_line hname (Exposing.joinWith Operator.bar hmember)
    . have hne : variants ≠ [] := by
        rintro rfl
        exact hcons rfl
      have hbefore : ∀ variant ∈ variants,
          Operator (unlines (docLines o.margin variant.doc) ++ o.margin ++ "| ") :=
        fun variant _ => Operator.leadingBar.pad
          ((Void.docLines variant.doc (blank_margin o)).append (Void.indent (blank_margin o)))
      have hrows := Exposing.rows hbefore hmember Exposing.empty hne
      rw [unlines_union _ tagging hne]
      exact gathers_assigning.line (Assigning.assignment hname hrows)

theorem assigning_typeLines {decl : TypeDecl}
    (hname : Identifier.isIdentifier decl.declaredName = true)
    (hbody : decl.body.Writable quotable nameOf) :
    Assigning (unlines (typeLines nameOf o decl)) (decl.assignment? nameOf o).toList := by
  have hdoc := Assigning.void (Void.docLines decl.doc blank_empty)
  unfold typeLines TypeDecl.assignment?
  cases heq : decl.body with
  | struct fields =>
    rw [heq] at hbody
    have hlines := gathers_assigning.block hdoc (assigning_structLines (o := o) hname hbody)
    rw [typeKeyword_struct nameOf o fields]
    cases hempty : (flattenedParts nameOf o fields).isEmpty with
    | true =>
      rw [hempty] at hlines
      exact hlines
    | false =>
      rw [hempty] at hlines
      exact hlines
  | enum tagging variants =>
    rw [heq] at hbody
    exact gathers_assigning.block hdoc (assigning_enumLines hname hbody.1 hbody.2)
  | typeAlias target =>
    rw [heq] at hbody
    exact gathers_assigning.block hdoc (assigning_line hname (exposing_typeText hbody))

theorem assigning_functionLines {function : FunctionDecl}
    (hname : Identifier.isIdentifier function.name = true)
    (hparams : ∀ param ∈ function.params, Identifier.isIdentifier param.name = true)
    (hnamed : ∀ type site, function.Makes type site → type.NamedBy nameOf) :
    Assigning (unlines (functionLines nameOf o function)) [] := by
  have hdoc := Assigning.void (void_functionDocs nameOf o function)
  have hsignature := outlined_signature (o := o) hname hparams hnamed
  have hlines := gathers_assigning.block hdoc
    (gathers_assigning.line (Assigning.statement hsignature (by decide)))
  unfold functionLines
  dsimp only
  rw [signature_eq]
  exact hlines

end Blocks

section Body

variable {d : Description} {u : Universe} {r : Resolution u}
variable (h : d.Accepted u r) (o : Options)

include h

theorem assignments_bodyLines :
    assignments (unlines (bodyLines o r))
      = some (r.decls.filterMap (TypeDecl.assignment? u.nameOf o)) := by
  have htypes : ∀ decl ∈ r.decls, Assigning (unlines (typeLines u.nameOf o decl))
      (decl.assignment? u.nameOf o).toList := by
    intro decl hmem
    obtain ⟨i, hi, rfl⟩ := List.mem_map.1 hmem
    exact assigning_typeLines (h.isIdentifier_declaredName i) (h.writable_body hi)
  have hfunctions : ∀ function ∈ r.functions,
      Assigning (unlines (functionLines u.nameOf o function)) [] := by
    intro function hmem
    rw [h.functions_eq] at hmem
    apply assigning_functionLines (h.isIdentifier_function hmem)
    . intro param hparam
      exact h.isIdentifier_param hmem hparam
    . intro type site hmakes
      exact h.namedBy_of_function hmem hmakes
  have hnone : r.functions.flatMap (fun _ => ([] : List (String × List String))) = [] :=
    List.flatMap_eq_nil_iff.2 fun _ _ => rfl
  obtain ⟨trees, hreads, hlist⟩ := gathers_assigning.bodyLines htypes hfunctions
  have hall := hlist []
  rw [List.append_nil, hnone, List.append_nil, assignmentsFrom, List.append_nil,
    ← List.filterMap_eq_flatMap_toList] at hall
  rw [assignments, hreads.trees?_eq_some, Option.map_some, hall]

end Body

end Artifact

end Bindings
