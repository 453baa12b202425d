import Bindings.Proofs.Artifact.Congruence
import Bindings.Proofs.Artifact.References

/-!
This module contains which part of an artifact each option decides. Options that write something
which an artifact does not show leave its text as it is. The others change the declarator or the
margin of its lines.
-/

namespace Bindings.Artifact

open Text

def swapDeclarator (o o' : Options) (line : List Char) : List Char :=
  if o.declarator.toList.isPrefixOf line then
    o'.declarator.toList ++ line.drop o.declarator.toList.length
  else
    line

def withoutIndent (line : List Char) : List Char :=
  line.dropWhile (· == ' ')

variable {o o' : Options}

theorem swapDeclarator_head (text : String) :
    swapDeclarator o o' (o.declarator ++ text).toList = (o'.declarator ++ text).toList := by
  have hprefix : o.declarator.toList.isPrefixOf (o.declarator ++ text).toList = true := by
    rw [List.isPrefixOf_iff_prefix, String.toList_append]
    exact List.prefix_append _ _
  rw [swapDeclarator, if_pos hprefix, String.toList_append, List.drop_left, String.toList_append]

theorem Plain.swapDeclarator {line : String} (h : Plain o line) :
    swapDeclarator o o' line.toList = line.toList :=
  if_neg fun hprefix => h (List.isPrefixOf_iff_prefix.1 hprefix)

theorem Blank.withoutIndent {margin : String} (h : Blank margin) (text : String) :
    withoutIndent (margin ++ text).toList = withoutIndent text.toList := by
  have hspaces : ∀ c ∈ margin.toList, (c == ' ') = true := fun c hmem => beq_iff_eq.2 (h c hmem)
  rw [Artifact.withoutIndent, String.toList_append, List.dropWhile_append_of_pos hspaces,
    Artifact.withoutIndent]

theorem Declares.plain {before after : List String} {text name : String}
    (h : Declares o (before ++ (o.declarator ++ text) :: after) [name]) :
    (∀ line ∈ before, Plain o line) ∧ ∀ line ∈ after, Plain o line := by
  have hprefix : o.declarator.toList.isPrefixOf (o.declarator ++ text).toList = true := by
    rw [List.isPrefixOf_iff_prefix, String.toList_append]
    exact List.prefix_append _ _
  have hlength := congrArg List.length h.declared
  rw [declaredNames, List.length_map, List.map_append, List.map_cons, List.filter_append,
    List.filter_cons_of_pos hprefix, List.length_append, List.length_cons] at hlength
  have hnone : ∀ lines : List String,
      ((lines.map String.toList).filter (o.declarator.toList.isPrefixOf ·)).length = 0 →
        ∀ line ∈ lines, Plain o line := by
    intro lines hlength line hmem hline
    rw [List.length_eq_zero_iff, List.filter_eq_nil_iff] at hlength
    exact hlength _ (List.mem_map_of_mem hmem) (List.isPrefixOf_iff_prefix.2 hline)
  obtain ⟨hbefore, hafter⟩ := Nat.add_eq_zero_iff.1 (Nat.succ.inj hlength)
  exact ⟨hnone before hbefore, hnone after hafter⟩

theorem SameInside.withoutIndent_eq {line line' : String} (h : SameInside o o' line line') :
    withoutIndent line.toList = withoutIndent line'.toList := by
  cases h with
  | plain => rfl
  | indented text => rw [(blank_margin o).withoutIndent, (blank_margin o').withoutIndent]

namespace SameBlock

variable {lines lines' : List String}

theorem map_withoutIndent (h : SameBlock o o' lines lines')
    (hdeclarator : o.declarator = o'.declarator) :
    lines.map (fun line => withoutIndent line.toList)
      = lines'.map fun line => withoutIndent line.toList := by
  have hinside : ∀ {lines lines' : List String}, List.Forall₂ (SameInside o o') lines lines' →
      lines.map (fun line => withoutIndent line.toList)
        = lines'.map fun line => withoutIndent line.toList := by
    intro lines lines' h
    induction h with
    | nil => rfl
    | cons hline _ ih => rw [List.map_cons, List.map_cons, hline.withoutIndent_eq, ih]
  cases h with
  | intro text hbefore hafter =>
    rw [List.map_append, List.map_cons, hinside hbefore, hinside hafter, hdeclarator,
      List.map_append, List.map_cons]

theorem map_swapDeclarator (h : SameBlock o o' lines lines') (hmargin : o.margin = o'.margin)
    {name : String} (hdeclares : Declares o lines [name]) :
    lines.map (fun line => swapDeclarator o o' line.toList) = lines'.map String.toList := by
  have hplain : ∀ lines : List String, (∀ line ∈ lines, Plain o line) →
      lines.map (fun line => swapDeclarator o o' line.toList) = lines.map String.toList := by
    intro lines h
    exact List.map_congr_left fun line hmem => (h line hmem).swapDeclarator
  cases h with
  | intro text hbefore hafter =>
    obtain ⟨hplainBefore, hplainAfter⟩ := hdeclares.plain
    rw [List.map_append, List.map_cons, hplain _ hplainBefore, hplain _ hplainAfter,
      swapDeclarator_head, SameInside.eq_of_forall₂ hmargin hbefore,
      SameInside.eq_of_forall₂ hmargin hafter, List.map_append, List.map_cons]

end SameBlock

section Lines

variable {u : Universe} {r : Resolution u}

theorem map_separate {f g : String → β} (hempty : f "" = g "") {elements : List α}
    {block block' : α → List String}
    (h : ∀ element ∈ elements, (block element).map f = (block' element).map g) :
    (separate (elements.map block)).map f = (separate (elements.map block')).map g := by
  induction elements with
  | nil => rfl
  | cons element elements ih =>
    rw [List.forall_mem_cons] at h
    cases elements with
    | nil => exact h.1
    | cons next elements =>
      have hrest := ih h.2
      rw [List.map_cons, List.map_cons] at hrest
      simp only [List.map_cons, separate, List.map_append, hempty, h.1, hrest]

theorem map_bodyLines {f g : String → β} (hempty : f "" = g "")
    (htypes : ∀ decl ∈ r.decls,
      (typeLines u.nameOf o decl).map f = (typeLines u.nameOf o' decl).map g)
    (hfunctions : ∀ function ∈ r.functions,
      (functionLines u.nameOf o function).map f = (functionLines u.nameOf o' function).map g) :
    (bodyLines o r).map f = (bodyLines o' r).map g := by
  have hbetween : ∀ b : Bool, (if b then [""] else []).map f = (if b then [""] else []).map g := by
    intro b
    cases b with
    | false => rfl
    | true => rw [if_pos rfl, List.map_singleton, List.map_singleton, hempty]
  unfold bodyLines
  simp only [List.isEmpty_map, List.map_append, hbetween]
  rw [map_separate hempty htypes, List.map_flatMap, List.map_flatMap,
    List.flatMap_congr hfunctions]

def ShowsPart (r : Resolution u) (part : TypeRef) : Prop :=
  ∃ type, Shows r type ∧ part.PartOf type

structure SameOutput (o o' : Options) (r : Resolution u) : Prop where
  words : ∀ part, ShowsPart r part → SameWord u.nameOf u.nameOf o o' part
  fields : ∀ decl ∈ r.decls, ∀ field ∈ decl.body.fields, SameMark o o' field
  units : ∀ decl ∈ r.decls, ∀ tagging variants, decl.body = .enum tagging variants →
    ∀ variant ∈ variants, SameUnit o o' tagging variant
  jsdoc : o.jsdoc = o'.jsdoc

theorem mem_references_of_shows {type : TypeRef} (h : Shows r type) :
    type ∈ r.references.map (·.1) := by
  rw [Resolution.references, List.map_append, List.mem_append]
  cases h with
  | decl hi hmakes =>
    left
    have hreference := TypeDecl.mem_references_iff.2 hmakes
    rw [← Universe.references] at hreference
    exact List.mem_map_of_mem (List.mem_flatMap.2 ⟨_, hi, hreference⟩)
  | function hmem hmakes =>
    right
    exact List.mem_map_of_mem
      (List.mem_flatMap.2 ⟨_, hmem, FunctionDecl.mem_references_iff.2 hmakes⟩)

namespace SameOutput

theorem sameWords (h : SameOutput o o' r) {type : TypeRef} (hshows : Shows r type) :
    SameWords u.nameOf u.nameOf o o' type :=
  fun part hpart => h.words part ⟨type, hshows, hpart⟩

theorem typeLines (h : SameOutput o o' r) {decl : TypeDecl} (hmem : decl ∈ r.decls) :
    SameBlock o o' (typeLines u.nameOf o decl) (typeLines u.nameOf o' decl) := by
  refine sameBlock_typeLines ⟨?_, h.fields decl hmem, h.units decl hmem⟩
  obtain ⟨i, hi, rfl⟩ := List.mem_map.1 hmem
  intro type htype
  rw [← TypeDecl.map_fst_references _ i] at htype
  obtain ⟨⟨_, site⟩, hreference, rfl⟩ := List.mem_map.1 htype
  exact h.sameWords (.decl hi (TypeDecl.mem_references_iff.1 hreference))

theorem functionLines (h : SameOutput o o' r) {function : FunctionDecl}
    (hmem : function ∈ r.functions) :
    SameBlock o o' (functionLines u.nameOf o function) (functionLines u.nameOf o' function) :=
  sameBlock_functionLines (fun _ _ hmakes => h.sameWords (.function hmem hmakes)) h.jsdoc

end SameOutput

end Lines

theorem splitOn_unlines_append (ls : List String) :
    ∃ front, ∀ rest : String,
      (unlines ls ++ rest).toList.splitOn '\n' = front ++ rest.toList.splitOn '\n' := by
  induction ls with
  | nil =>
    refine ⟨[], fun rest => ?_⟩
    rw [unlines, String.empty_append, List.nil_append]
  | cons line ls ih =>
    obtain ⟨front, hfront⟩ := ih
    refine ⟨line.toList.splitOn '\n' ++ front, fun rest => ?_⟩
    have hlist : (unlines (line :: ls) ++ rest).toList
        = line.toList ++ '\n' :: (unlines ls ++ rest).toList := by
      simp only [unlines, String.append_assoc, String.toList_append]
      rfl
    rw [hlist, List.splitOn_append_cons_self, hfront, List.append_assoc]

section Generation

variable {d : Description} {u : Universe} {r : Resolution u} (h : d.Accepted u r)

include h

theorem splitOn_bodyLines (o : Options) :
    (unlines (bodyLines o r)).toList.splitOn '\n' = (bodyLines o r).map String.toList ++ [[]] :=
  splitOn_unlines (declares_bodyLines h o).oneLine

theorem declares_typeLines_of_mem {decl : TypeDecl} (hmem : decl ∈ r.decls) (o : Options) :
    Declares o (typeLines u.nameOf o decl) [decl.declaredName] := by
  obtain ⟨i, hi, rfl⟩ := List.mem_map.1 hmem
  exact declares_typeLines (h.isIdentifier_declaredName i) (h.writable_body hi)

theorem declares_functionLines_of_mem {function : FunctionDecl} (hmem : function ∈ r.functions)
    (o : Options) : Declares o (functionLines u.nameOf o function) [function.name] := by
  rw [h.functions_eq] at hmem
  exact declares_functionLines (h.isIdentifier_function hmem)
    (fun _ hparam => h.isIdentifier_param hmem hparam)
    fun _ _ hmakes => h.namedBy_of_function hmem hmakes

end Generation

theorem text_eq_of_sameOutput {u : Universe} {r : Resolution u} (h : SameOutput o o' r)
    (hheader : o.header = o'.header) (hdeclarator : o.declarator = o'.declarator)
    (hmargin : o.margin = o'.margin) : text o r = text o' r := by
  have hlines : (bodyLines o r).map (fun line => line) = (bodyLines o' r).map fun line => line := by
    apply map_bodyLines rfl
    . intro decl hmem
      rw [(h.typeLines hmem).eq hdeclarator hmargin]
    . intro function hmem
      rw [(h.functionLines hmem).eq hdeclarator hmargin]
  rw [List.map_id', List.map_id'] at hlines
  rw [text_eq_append, text_eq_append, hheader, hlines]

section Unused

variable {u : Universe} {r : Resolution u}

theorem sameWord_of {nameOf : String → String} {part : TypeRef}
    (hscalar : ∀ kind, part = .scalar kind → kind.text o.largeIntegers = kind.text o'.largeIntegers)
    (hoption : ∀ inner, part = .option inner → o.absence = o'.absence)
    (hmap : ∀ key value, part = .map key value → o.mapType = o'.mapType) :
    SameWord nameOf nameOf o o' part := by
  cases part with
  | scalar kind => exact hscalar kind rfl
  | named id => rfl
  | vector element => exact trivial
  | option inner => exact hoption inner rfl
  | tuple elements => exact trivial
  | map key value => exact hmap key value rfl

def largeKinds : List Scalar :=
  [.u64, .i64, .usize, .isize]

theorem text_of_not_mem_largeKinds {kind : Scalar} (h : kind ∉ largeKinds)
    (largeIntegers other : LargeIntegers) : kind.text largeIntegers = kind.text other := by
  cases kind with
  | u64 | i64 | usize | isize => exact absurd (by decide) h
  | _ => rfl

variable (o)

theorem text_mapType (mapType : MapType) (hnone : ∀ key value, ¬ ShowsPart r (.map key value)) :
    text { o with mapType := mapType } r = text o r := by
  refine text_eq_of_sameOutput ⟨?_, fun _ _ _ _ _ _ => rfl, fun _ _ _ _ _ _ _ _ _ => rfl, rfl⟩
    rfl rfl rfl
  intro part hpart
  refine sameWord_of (fun _ _ => rfl) (fun _ _ => rfl) fun key value heq => ?_
  exact absurd (heq ▸ hpart) (hnone key value)

theorem text_absence (absence : Absence) (hnone : ∀ inner, ¬ ShowsPart r (.option inner))
    (hunits : ∀ decl ∈ r.decls, ∀ variants, decl.body = .enum .untagged variants →
      ∀ variant ∈ variants, variant.payload ≠ .unit) :
    text { o with absence := absence } r = text o r := by
  refine text_eq_of_sameOutput ⟨?_, fun _ _ _ _ _ _ => rfl, ?_, rfl⟩ rfl rfl rfl
  . intro part hpart
    refine sameWord_of (fun _ _ => rfl) (fun inner heq => ?_) fun _ _ _ => rfl
    exact absurd (heq ▸ hpart) (hnone inner)
  . intro decl hdecl tagging variants hbody variant hvariant htagging hpayload
    rw [htagging] at hbody
    exact absurd hpayload (hunits decl hdecl variants hbody variant hvariant)

theorem text_largeIntegers (largeIntegers : LargeIntegers)
    (hnone : ∀ kind ∈ largeKinds, ¬ ShowsPart r (.scalar kind)) :
    text { o with largeIntegers := largeIntegers } r = text o r := by
  refine text_eq_of_sameOutput ⟨?_, fun _ _ _ _ _ _ => rfl, fun _ _ _ _ _ _ _ _ _ => rfl, rfl⟩
    rfl rfl rfl
  intro part hpart
  refine sameWord_of (fun kind heq => ?_) (fun _ _ => rfl) fun _ _ _ => rfl
  exact text_of_not_mem_largeKinds (fun hlarge => hnone kind hlarge (heq ▸ hpart)) _ _

theorem text_optionalFields (optionalFields : Bool)
    (hnone : ∀ decl ∈ r.decls, ∀ field ∈ decl.body.fields, field.flatten = false →
      field.type.isOption = false) :
    text { o with optionalFields := optionalFields } r = text o r := by
  refine text_eq_of_sameOutput ⟨?_, ?_, fun _ _ _ _ _ _ _ _ _ => rfl, rfl⟩ rfl rfl rfl
  . exact fun part _ => sameWord_of (fun _ _ => rfl) (fun _ _ => rfl) fun _ _ _ => rfl
  . intro decl hdecl field hfield hkept hoption
    rw [hnone decl hdecl field hfield hkept] at hoption
    cases hoption

end Unused

section Layout

variable {d : Description} {u : Universe} {r : Resolution u}

theorem sameOutput_exporting (o : Options) (r : Resolution u) (exporting : Bool) :
    SameOutput o { o with exporting := exporting } r :=
  ⟨fun _ _ => sameWord_of (fun _ _ => rfl) (fun _ _ => rfl) fun _ _ _ => rfl,
    fun _ _ _ _ _ _ => rfl, fun _ _ _ _ _ _ _ _ _ => rfl, rfl⟩

theorem sameOutput_indent (o : Options) (r : Resolution u) (indent : Nat) :
    SameOutput o { o with indent := indent } r :=
  ⟨fun _ _ => sameWord_of (fun _ _ => rfl) (fun _ _ => rfl) fun _ _ _ => rfl,
    fun _ _ _ _ _ _ => rfl, fun _ _ _ _ _ _ _ _ _ => rfl, rfl⟩

variable (h : d.Accepted u r) (o : Options)

include h

theorem splitOn_bodyLines_exporting (exporting : Bool) :
    (unlines (bodyLines { o with exporting := exporting } r)).toList.splitOn '\n'
      = ((unlines (bodyLines o r)).toList.splitOn '\n').map
          (swapDeclarator o { o with exporting := exporting }) := by
  have hsame := sameOutput_exporting o r exporting
  have hlines : (bodyLines o r).map
        (fun line => swapDeclarator o { o with exporting := exporting } line.toList)
      = (bodyLines { o with exporting := exporting } r).map String.toList := by
    apply map_bodyLines (plain_empty o).swapDeclarator
    . intro decl hmem
      exact (hsame.typeLines hmem).map_swapDeclarator rfl (declares_typeLines_of_mem h hmem o)
    . intro function hmem
      exact (hsame.functionLines hmem).map_swapDeclarator rfl
        (declares_functionLines_of_mem h hmem o)
  have hlast : swapDeclarator o { o with exporting := exporting } [] = [] :=
    (plain_empty o).swapDeclarator
  rw [splitOn_bodyLines h, splitOn_bodyLines h, ← hlines, List.map_append, List.map_map,
    List.map_singleton, hlast]
  rfl

theorem splitOn_text_indent (indent : Nat) :
    ((text { o with indent := indent } r).toList.splitOn '\n').map withoutIndent
      = ((text o r).toList.splitOn '\n').map withoutIndent := by
  have hsame := sameOutput_indent o r indent
  have hlines : (bodyLines o r).map (fun line => withoutIndent line.toList)
      = (bodyLines { o with indent := indent } r).map fun line => withoutIndent line.toList := by
    apply map_bodyLines rfl
    . exact fun decl hmem => (hsame.typeLines hmem).map_withoutIndent rfl
    . exact fun function hmem => (hsame.functionLines hmem).map_withoutIndent rfl
  obtain ⟨front, hfront⟩ := splitOn_unlines_append o.header
  rw [text_eq_append, text_eq_append, hfront, hfront, splitOn_bodyLines h, splitOn_bodyLines h]
  simp only [List.map_append, List.map_map, Function.comp_def, hlines]

end Layout

/--
Each option decides about its own construct. An artifact that shows no map does not depend on what
maps become, one without options and without units of untagged enums not on what stands for an
absent value, one without large integers not on what these become, and one without properties that
can be absent not on how they are marked. Behind the header, an artifact that is not exported
differs in the declarators of its lines only, and one with another indentation differs in the spaces
that its lines begin with.
-/
theorem generate_of_option {d : Description} {o : Options} {text : String}
    (h : (d.generate o).result = .ok text) :
    ∃ u, ∃ r : Resolution u,
      Universe.ofDecls d.types = .ok u
        ∧ (Resolution.resolve u d.functions).result = .ok r
        ∧ (∀ mapType, (∀ key value, ¬ ShowsPart r (.map key value)) →
            (d.generate { o with mapType := mapType }).result = .ok text)
        ∧ (∀ absence, (∀ inner, ¬ ShowsPart r (.option inner)) →
            (∀ decl ∈ r.decls, ∀ variants, decl.body = .enum .untagged variants →
              ∀ variant ∈ variants, variant.payload ≠ .unit) →
            (d.generate { o with absence := absence }).result = .ok text)
        ∧ (∀ largeIntegers, (∀ kind ∈ largeKinds, ¬ ShowsPart r (.scalar kind)) →
            (d.generate { o with largeIntegers := largeIntegers }).result = .ok text)
        ∧ (∀ optionalFields, (∀ decl ∈ r.decls, ∀ field ∈ decl.body.fields,
              field.flatten = false → field.type.isOption = false) →
            (d.generate { o with optionalFields := optionalFields }).result = .ok text)
        ∧ (∀ exporting, ∃ rest rest', text = unlines o.header ++ rest
            ∧ (d.generate { o with exporting := exporting }).result
              = .ok (unlines o.header ++ rest')
            ∧ rest'.toList.splitOn '\n' = (rest.toList.splitOn '\n').map
                (swapDeclarator o { o with exporting := exporting }))
        ∧ (∀ indent, ∃ other, (d.generate { o with indent := indent }).result = .ok other
            ∧ (other.toList.splitOn '\n').map withoutIndent
              = (text.toList.splitOn '\n').map withoutIndent) := by
  obtain ⟨u, r, haccepted, rfl⟩ := Description.generate_eq_ok_iff.1 h
  have hok := haccepted.generate_eq_ok
  refine ⟨u, r, haccepted.declared, haccepted.resolved, ?_, ?_, ?_, ?_, ?_, ?_⟩
  . intro mapType hnone
    rw [hok, text_mapType o mapType hnone]
  . intro absence hnone hunits
    rw [hok, text_absence o absence hnone hunits]
  . intro largeIntegers hnone
    rw [hok, text_largeIntegers o largeIntegers hnone]
  . intro optionalFields hnone
    rw [hok, text_optionalFields o optionalFields hnone]
  . intro exporting
    refine ⟨_, _, text_eq_append o r, ?_, splitOn_bodyLines_exporting haccepted o exporting⟩
    rw [hok, text_eq_append]
  . intro indent
    exact ⟨_, hok _, splitOn_text_indent haccepted o indent⟩

theorem partOf_of_shows_notes {part : TypeRef}
    (h : ShowsPart (⟨[(1 : Fin 2), (0 : Fin 2)], [readNote]⟩ : Resolution notes) part) :
    part ∈ [.scalar .string, .vector (.named "Label"), .named "Label", .named "Note"] := by
  obtain ⟨type, hshows, hpart⟩ := h
  have hmem : type ∈ [.scalar .string, .vector (.named "Label"), .named "Note"] :=
    mem_references_of_shows hshows
  simp only [List.mem_cons, List.not_mem_nil, or_false] at hmem
  rcases hmem with rfl | rfl | rfl
  . cases hpart
    decide
  . cases hpart with
    | self => decide
    | vector hpart =>
      cases hpart
      decide
  . cases hpart
    decide

/--
Nothing that options could write otherwise stands in these declarations, apart from what begins
their lines.
-/
theorem generate_notes_options : ∃ text rest rest' other,
    (Description.generate ⟨notes.decls, [readNote]⟩ flush).result = .ok text
      ∧ (Description.generate ⟨notes.decls, [readNote]⟩ { flush with mapType := .map }).result
        = .ok text
      ∧ (Description.generate ⟨notes.decls, [readNote]⟩
          { flush with absence := .undefined }).result = .ok text
      ∧ (Description.generate ⟨notes.decls, [readNote]⟩
          { flush with largeIntegers := .bigint }).result = .ok text
      ∧ (Description.generate ⟨notes.decls, [readNote]⟩
          { flush with optionalFields := true }).result = .ok text
      ∧ text = "export type Head = 1;\n" ++ rest
      ∧ (Description.generate ⟨notes.decls, [readNote]⟩ { flush with exporting := false }).result
        = .ok ("export type Head = 1;\n" ++ rest')
      ∧ rest'.toList.splitOn '\n' = (rest.toList.splitOn '\n').map
          (swapDeclarator flush { flush with exporting := false })
      ∧ (Description.generate ⟨notes.decls, [readNote]⟩ { flush with indent := 3 }).result
        = .ok other
      ∧ (other.toList.splitOn '\n').map withoutIndent
        = (text.toList.splitOn '\n').map withoutIndent := by
  have hok := accepted_notes.generate_eq_ok flush
  obtain ⟨u, r, hdeclared, hresolved, hmap, habsence, hlarge, hoptional, hexporting, hindent⟩ :=
    generate_of_option hok
  rw [accepted_notes.declared] at hdeclared
  cases hdeclared
  rw [accepted_notes.resolved] at hresolved
  cases hresolved
  have hnone : ∀ part, part ∉ [.scalar .string, .vector (.named "Label"), .named "Label",
      .named "Note"] → ¬ ShowsPart (⟨[(1 : Fin 2), (0 : Fin 2)], [readNote]⟩ : Resolution notes)
        part :=
    fun part hpart hshows => hpart (partOf_of_shows_notes hshows)
  have hdecls : ∀ decl ∈ (⟨[(1 : Fin 2), (0 : Fin 2)], [readNote]⟩ : Resolution notes).decls,
      decl = notes.get (1 : Fin 2) ∨ decl = notes.get (0 : Fin 2) := by
    intro decl hdecl
    rw [← List.mem_pair]
    exact hdecl
  obtain ⟨rest, rest', htext, hrest, hswap⟩ := hexporting false
  obtain ⟨other, hother, hspaces⟩ := hindent 3
  refine ⟨_, rest, rest', other, hok, hmap .map fun key value => hnone _ (by simp), ?_, ?_, ?_,
    htext, hrest, hswap, hother, hspaces⟩
  . apply habsence .undefined fun inner => hnone _ (by simp)
    intro decl hdecl variants hbody
    rcases hdecls decl hdecl with rfl | rfl
    . cases hbody
    . cases hbody
  . apply hlarge .bigint
    intro kind hkind
    apply hnone
    simp only [largeKinds, List.mem_cons, List.not_mem_nil, or_false] at hkind
    rcases hkind with rfl | rfl | rfl | rfl <;> decide
  . apply hoptional true
    intro decl hdecl
    rcases hdecls decl hdecl with rfl | rfl <;> decide

end Bindings.Artifact
