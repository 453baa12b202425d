import Bindings.Proofs.Artifact.Statements

/-!
This module contains how the members of a union in an artifact are told apart: each variant is
written with its own tag, which can be read off the printed union.
-/

namespace Bindings.Artifact

open Text

def objectOf? : Tree → Option (List Tree)
  | .group '\x7b' inner => some inner
  | .group '(' (.group '\x7b' inner :: _) => some inner
  | _ => none

/--
The printed tag of a member: the member itself or its only key, or else the value of its first
property.
-/
def tag? : Tagging → Tree → Option String
  | .external, .literal text => some (String.ofList text)
  | .external, .group '\x7b' inner => (keys inner).head?
  | .internal _, tree => (objectOf? tree).map firstValue
  | .adjacent _ _, tree => (objectOf? tree).map firstValue
  | _, _ => none

def tagText (tagging : Tagging) (variant : Variant) : String :=
  match tagging, variant.payload with
  | .external, .unit => Quoted.encode variant.name
  | .external, _ => propertyKey variant.name
  | _, _ => Quoted.encode variant.name

theorem tagText_cases (tagging : Tagging) (variant : Variant) :
    tagText tagging variant = Quoted.encode variant.name
      ∨ tagText tagging variant = propertyKey variant.name := by
  unfold tagText
  split
  . exact Or.inl rfl
  . exact Or.inr rfl
  . exact Or.inl rfl

theorem name_eq_of_tagText_eq {tagging : Tagging} {variant other : Variant}
    (h : tagText tagging variant = tagText tagging other) : variant.name = other.name := by
  rcases tagText_cases tagging variant with heq | heq
  . rcases tagText_cases tagging other with heq' | heq'
    . rw [heq, heq'] at h
      exact Quoted.encode_injective h
    . rw [heq, heq'] at h
      exact eq_of_encode_eq_propertyKey h
  . rcases tagText_cases tagging other with heq' | heq'
    . rw [heq, heq'] at h
      exact (eq_of_encode_eq_propertyKey h.symm).symm
    . rw [heq, heq'] at h
      exact propertyKey_injective h

theorem nodup_tagText (tagging : Tagging) {variants : List Variant}
    (h : (variants.map (·.name)).Nodup) : (variants.map (tagText tagging)).Nodup := by
  rw [List.Nodup, List.pairwise_map] at h ⊢
  exact h.imp fun hne heq => hne (name_eq_of_tagText_eq heq)

def Readable (text : String) : Prop :=
  ∃ trees, Reads text trees

theorem texture_readable (quotable : String → Prop) : Texture Readable quotable where
  append := by
    rintro text other ⟨trees, hreads⟩ ⟨more, hmore⟩
    exact ⟨_, hreads.append hmore⟩
  identifier hname := by
    obtain ⟨trees, hreads, _⟩ : Outlined _ [] [] 0 := Outlined.identifier hname
    exact ⟨trees, hreads⟩
  quoted _ := ⟨_, Reads.quoted _⟩
  signs hsigns := by
    refine ⟨_, Reads.signs ?_⟩
    rw [List.all_eq_true] at hsigns ⊢
    exact fun c hmem => isInert_of_isSign (hsigns c hmem)
  round := by
    rintro text ⟨trees, hreads⟩
    exact ⟨_, hreads.round⟩
  square := by
    rintro text ⟨trees, hreads⟩
    exact ⟨_, hreads.square⟩
  curly := by
    rintro text ⟨trees, hreads⟩
    exact ⟨_, hreads.curly⟩
  angle := by
    rintro text ⟨trees, hreads⟩
    exact ⟨_, hreads.angle⟩

def Tells (tagging : Tagging) (text tag : String) : Prop :=
  ∃ tree, Reads text [tree] ∧ tag? tagging tree = some tag

section Members

variable {quotable : String → Prop} {nameOf : String → String} {o : Options}

theorem reads_tagObject {after : String} (tag name : String)
    (hafter : after = "" ∨ ∃ text, after = "; " ++ text ∧ Readable text) :
    ∃ inner, Reads (braced (propertyKey tag ++ ": " ++ Quoted.encode name ++ after))
        [.group '\x7b' inner] ∧ firstValue inner = Quoted.encode name := by
  obtain ⟨key, hkey, _, hplain⟩ := reads_propertyKey tag
  -- The tag is all that stands in front of the next property or of the closing brace.
  obtain ⟨trees, hreads, hends⟩ : ∃ trees : List Tree, Reads after trees
      ∧ ∀ tree ∈ (trees ++ [Tree.sign ' ']).takeWhile (!·.isMark [';']),
        tree.isBlank = true := by
    rcases hafter with rfl | ⟨text, rfl, rest, hrest⟩
    . exact ⟨[], Reads.signs rfl, by decide⟩
    . have hstop : Reads "; " [.sign ';', .sign ' '] := Reads.signs rfl
      exact ⟨_, hstop.append hrest, List.forall_mem_nil _⟩
  have hspace : Reads " " [.sign ' '] := Reads.signs rfl
  have hcolon : Reads ": " [.sign ':', .sign ' '] := Reads.signs rfl
  have hinner := (hspace.append (((hkey.append hcolon).append (Reads.quoted name)).append
    hreads)).append hspace
  have hsplit : [.sign ' '] ++ (key ++ [.sign ':', .sign ' ']
      ++ [.literal (Quoted.encode name).toList] ++ trees) ++ [.sign ' ']
        = [.sign ' '] ++ key ++ .sign ':' ::
          ([.sign ' ', .literal (Quoted.encode name).toList] ++ (trees ++ [Tree.sign ' '])) := by
    simp
  have hblank : ∀ tree ∈ [Tree.sign ' '], tree.isBlank = true := List.forall_mem_singleton.2 rfl
  have hvalue : ∀ tree ∈ [.sign ' ', .literal (Quoted.encode name).toList],
      Tree.isMark [';'] tree = false :=
    List.forall_mem_cons.2 ⟨rfl, List.forall_mem_singleton.2 rfl⟩
  rw [hsplit] at hinner
  rw [braced_eq]
  refine ⟨_, hinner.curly, ?_⟩
  rw [firstValue_property hblank hplain hvalue hends]
  simp [Tree.word, Tree.isBlank, Tree.isMark]

def Leads (tagging : Tagging) : Prop :=
  ∀ tree, tag? tagging tree = (objectOf? tree).map firstValue

theorem tells_object {tagging : Tagging} {after : String} (tag name : String) (h : Leads tagging)
    (hafter : after = "" ∨ ∃ text, after = "; " ++ text ∧ Readable text) :
    Tells tagging (braced (propertyKey tag ++ ": " ++ Quoted.encode name ++ after))
      (Quoted.encode name) := by
  obtain ⟨inner, hreads, hvalue⟩ := reads_tagObject tag name hafter
  refine ⟨_, hreads, ?_⟩
  rw [h, objectOf?, Option.map_some, hvalue]

theorem tells_joined {tagging : Tagging} {after more : String} (tag name : String)
    (h : Leads tagging) (hafter : after = "" ∨ ∃ text, after = "; " ++ text ∧ Readable text)
    (hmore : Readable more) :
    Tells tagging ("(" ++ (braced (propertyKey tag ++ ": " ++ Quoted.encode name ++ after) ++ more)
      ++ ")") (Quoted.encode name) := by
  obtain ⟨inner, hreads, hvalue⟩ := reads_tagObject tag name hafter
  obtain ⟨trees, hmore⟩ := hmore
  refine ⟨_, (hreads.append hmore).round, ?_⟩
  rw [h, List.singleton_append, objectOf?, Option.map_some, hvalue]

theorem exists_joinWith_cons (separator part : String) (parts : List String) :
    ∃ after, joinWith separator (part :: parts) = part ++ after
      ∧ (after = "" ∨ after = separator ++ joinWith separator parts) := by
  cases parts with
  | nil => exact ⟨"", String.append_empty.symm, Or.inl rfl⟩
  | cons next parts =>
    rw [joinWith_cons_cons, String.append_assoc]
    exact ⟨_, rfl, Or.inr rfl⟩

theorem tells_parenthesize {tagging : Tagging} {fields : List Field} (tag name : String)
    (h : Leads tagging) (hfields : ∀ field ∈ fields, field.Writable quotable nameOf) :
    Tells tagging (parenthesize (objectText nameOf o
      [propertyKey tag ++ ": " ++ Quoted.encode name] fields)) (Quoted.encode name) := by
  have htexture := texture_readable quotable
  have hand : Readable " & " := htexture.signs rfl
  obtain ⟨after, hobject, hcases⟩ := exists_joinWith_cons "; "
    (propertyKey tag ++ ": " ++ Quoted.encode name) (properties nameOf o fields)
  obtain ⟨more, htext, hmore⟩ := exists_joinWith_cons " & "
    (braced (propertyKey tag ++ ": " ++ Quoted.encode name ++ after))
    (flattenedParts nameOf o fields)
  have hafter : after = "" ∨ ∃ text, after = "; " ++ text ∧ Readable text :=
    hcases.imp_right fun heq =>
      ⟨_, heq, htexture.joinWith rfl (htexture.properties (o := o) hfields)⟩
  have hsplit : objectText nameOf o [propertyKey tag ++ ": " ++ Quoted.encode name] fields
      = braced (propertyKey tag ++ ": " ++ Quoted.encode name ++ after) ++ more := by
    rw [← htext, ← hobject]
    rfl
  rw [hsplit]
  unfold parenthesize
  split
  . apply tells_joined tag name h hafter
    rcases hmore with rfl | rfl
    . exact htexture.empty
    . exact htexture.append hand (htexture.joinWith rfl (htexture.flattenedParts (o := o) hfields))
  . next hholds =>
    rcases hmore with rfl | rfl
    . rw [String.append_empty]
      exact tells_object tag name h hafter
    . -- An intersection of two parts would not have been left without parentheses.
      refine absurd ?_ hholds
      rw [← String.append_assoc, String.toList_append, String.toList_append]
      exact holds_append _ _ _

theorem tells_internal {variant : Variant} (tag : String)
    (hvariant : variant.Writable quotable nameOf) :
    Tells (.internal tag) (memberText nameOf o (.internal tag) variant)
      (Quoted.encode variant.name) := by
  obtain ⟨name, payload, doc⟩ := variant
  obtain ⟨_, hpayload⟩ := hvariant
  have htexture := texture_readable quotable
  have hand : Readable " & " := htexture.signs rfl
  have hleads : Leads (.internal tag) := fun tree => rfl
  have hjoined : ∀ type : TypeRef, type.NamedBy nameOf → Tells (.internal tag)
      ("(" ++ braced (propertyKey tag ++ ": " ++ Quoted.encode name) ++ " & "
        ++ typeText nameOf o type ++ ")") (Quoted.encode name) := by
    intro type hnamed
    have hmore := htexture.append hand (htexture.typeText (o := o) type hnamed)
    have htells := tells_joined tag name hleads (Or.inl rfl) hmore
    rw [joined_eq]
    simpa [String.append_assoc] using htells
  cases payload with
  | unit =>
    have htells := tells_object tag name hleads (Or.inl rfl)
    rwa [String.append_empty] at htells
  | newtype type => exact hjoined type hpayload
  | tuple elements => exact hjoined (.tuple elements) hpayload
  | struct fields => exact tells_parenthesize tag name hleads hpayload

theorem tells_adjacent {variant : Variant} (tag content : String)
    (hcontent : quotable content) (hvariant : variant.Writable quotable nameOf) :
    Tells (.adjacent tag content) (memberText nameOf o (.adjacent tag content) variant)
      (Quoted.encode variant.name) := by
  obtain ⟨name, payload, doc⟩ := variant
  obtain ⟨_, hpayload⟩ := hvariant
  have htexture := texture_readable quotable
  have hleads : Leads (.adjacent tag content) := fun tree => rfl
  have hbeside : ∀ text, Readable text → Tells (.adjacent tag content)
      (braced (propertyKey tag ++ ": " ++ Quoted.encode name ++ "; " ++ propertyKey content
        ++ ": " ++ text)) (Quoted.encode name) := by
    intro text htext
    have htells := tells_object tag name hleads
      (Or.inr ⟨_, rfl, htexture.keyed hcontent htext⟩)
    rw [beside_eq, String.append_assoc]
    exact htells
  cases payload with
  | unit =>
    have htells := tells_object tag name hleads (Or.inl rfl)
    rwa [String.append_empty] at htells
  | newtype type => exact hbeside _ (htexture.typeText type hpayload)
  | tuple elements => exact hbeside _ (htexture.typeText (.tuple elements) hpayload)
  | struct fields => exact hbeside _ (htexture.objectText (List.forall_mem_nil _) hpayload)

theorem tells_boxed {text : String} {marks : List Char} {objects : List (List String)}
    (name : String) (h : Outlined text marks objects 0) (hmarks : ';' ∉ marks) :
    Tells .external (braced (propertyKey name ++ ": " ++ text)) (propertyKey name) := by
  have hspace : Void " " := Void.blank rfl
  have hkeyed := (Keyed.property name (Or.inl rfl) h hmarks).pad hspace hspace
  obtain ⟨inner, hreads, hkeys, _⟩ := hkeyed.group
  rw [braced_eq]
  refine ⟨_, hreads, ?_⟩
  rw [tag?, hkeys]
  rfl

theorem tells_external {variant : Variant} (hvariant : variant.Writable quotable nameOf) :
    Tells .external (memberText nameOf o .external variant) (tagText .external variant) := by
  obtain ⟨name, payload, doc⟩ := variant
  obtain ⟨_, hpayload⟩ := hvariant
  have hplain : ∀ type : TypeRef, ';' ∉ typeMarks type :=
    fun type hmem => absurd (typeMarks_subset type hmem) (by decide)
  cases payload with
  | unit =>
    refine ⟨_, Reads.quoted name, ?_⟩
    rw [tag?, String.ofList_toList]
    rfl
  | newtype type => exact tells_boxed name (outlined_typeText type hpayload) (hplain _)
  | tuple elements =>
    exact tells_boxed name (outlined_typeText (.tuple elements) hpayload) (hplain _)
  | struct fields =>
    have hobject := outlined_fields (o := o) fun field hmem => (hpayload field hmem).type
    exact tells_boxed name hobject (by decide)

theorem tells_memberText {tagging : Tagging} {variant : Variant} (hne : tagging ≠ .untagged)
    (htagging : tagging.Writable quotable) (hvariant : variant.Writable quotable nameOf) :
    Tells tagging (memberText nameOf o tagging variant) (tagText tagging variant) := by
  cases tagging with
  | external => exact tells_external hvariant
  | internal tag => exact tells_internal tag hvariant
  | adjacent tag content => exact tells_adjacent tag content htagging.2 hvariant
  | untagged => exact absurd rfl hne

end Members

def Tagged (tagging : Tagging) (text : String) (tags : List String) : Prop :=
  ∃ trees, Reads text trees ∧ trees.filterMap (tag? tagging) = tags

namespace Tagged

variable {tagging : Tagging} {text other : String} {tags more : List String} {marks : List Char}

theorem append (h : Tagged tagging text tags) (hother : Tagged tagging other more) :
    Tagged tagging (text ++ other) (tags ++ more) := by
  obtain ⟨trees, hreads, htags⟩ := h
  obtain ⟨trees', hreads', htags'⟩ := hother
  refine ⟨trees ++ trees', hreads.append hreads', ?_⟩
  rw [List.filterMap_append, htags, htags']

theorem layout (h : Layout text marks) : Tagged tagging text [] := by
  obtain ⟨trees, hreads, _, hsigns⟩ := h
  refine ⟨trees, hreads, ?_⟩
  rw [List.filterMap_eq_nil_iff]
  rintro (c | text | ⟨opening, inner⟩) hmem
  . cases tagging <;> rfl
  . cases hsigns _ hmem
  . cases hsigns _ hmem

theorem member {tag : String} (h : Tells tagging text tag) : Tagged tagging text [tag] := by
  obtain ⟨tree, hreads, htag⟩ := h
  refine ⟨[tree], hreads, ?_⟩
  rw [List.filterMap_cons, htag]
  rfl

theorem joinWith {separator : String} {elements : List α} {text tag : α → String}
    (hseparator : Layout separator marks)
    (h : ∀ element ∈ elements, Tagged tagging (text element) [tag element]) :
    Tagged tagging (Text.joinWith separator (elements.map text)) (elements.map tag) := by
  induction elements with
  | nil => exact layout (Layout.signs rfl : Layout "" [])
  | cons element elements ih =>
    rw [List.forall_mem_cons] at h
    cases elements with
    | nil => exact h.1
    | cons next elements => exact (h.1.append (layout hseparator)).append (ih h.2)

end Tagged

section Blocks

variable {quotable : String → Prop} {nameOf : String → String} {o : Options}

theorem tagged_enumLines {name : String} {tagging : Tagging} {variants : List Variant}
    (hname : Identifier.isIdentifier name = true) (hne : tagging ≠ .untagged)
    (htagging : tagging.Writable quotable)
    (hvariants : ∀ variant ∈ variants, variant.Writable quotable nameOf) :
    Tagged tagging (unlines (enumLines nameOf o name tagging variants))
      (variants.map (tagText tagging)) := by
  obtain ⟨opening, separator, before, htext, hopening, hseparator, hbefore⟩ :=
    exists_unlines_enumLines nameOf o tagging variants hname
  have hmember : ∀ variant ∈ variants,
      Tagged tagging (before variant ++ memberText nameOf o tagging variant)
        [tagText tagging variant] := by
    intro variant hmem
    exact (Tagged.layout (hbefore variant)).append
      (Tagged.member (tells_memberText hne htagging (hvariants variant hmem)))
  have hstop : Layout ";" [';'] := Layout.signs rfl
  have hfeed : Layout "\n" [] := Layout.signs rfl
  have hall := (((Tagged.layout hopening).append (Tagged.joinWith hseparator hmember)).append
    (Tagged.layout hstop)).append (Tagged.layout hfeed)
  rw [htext]
  simpa using hall

theorem tagged_typeLines {decl : TypeDecl} {tagging : Tagging} {variants : List Variant}
    (hname : Identifier.isIdentifier decl.declaredName = true)
    (hbody : decl.body.Writable quotable nameOf) (henum : decl.body = .enum tagging variants)
    (hne : tagging ≠ .untagged) :
    Tagged tagging (unlines (typeLines nameOf o decl)) (variants.map (tagText tagging)) := by
  have hdoc : Layout (unlines (docLines "" decl.doc)) [] :=
    (Void.docLines decl.doc blank_empty).layout
  rw [henum] at hbody
  unfold typeLines
  rw [henum, unlines_append]
  exact (Tagged.layout hdoc).append (tagged_enumLines hname hne hbody.1 hbody.2)

end Blocks

end Bindings.Artifact
