import Bindings.Proofs.Artifact.Outline
import Bindings.Proofs.WellFormed

/-!
This module contains the outlines of types and of the members of unions: which object types are
written for fields and for variants, and which variants are written as a mixture of `&` and `|`.
-/

namespace Bindings

def flattenedObjects (fields : List Field) : List (List String) :=
  (fields.filter (·.flatten)).flatMap fun field => if field.type.isOption then [[]] else []

/--
The object types of leading properties and of fields, by the names of their properties. There is no
object of no properties beside flattened fields.
-/
def fieldObjects (leading : List String) (fields : List Field) : List (List String) :=
  let names := leading ++ propertyNames fields
  (if names.isEmpty && !(fields.filter (·.flatten)).isEmpty then [] else [names])
    ++ flattenedObjects fields

def Variant.objects (tagging : Tagging) (variant : Variant) : List (List String) :=
  match tagging, variant.payload with
  | .external, .unit => []
  | .external, .struct fields => [variant.name] :: fieldObjects [] fields
  | .external, _ => [[variant.name]]
  | .internal tag, .struct fields => fieldObjects [tag] fields
  | .internal tag, _ => [[tag]]
  | .adjacent tag _, .unit => [[tag]]
  | .adjacent tag content, .struct fields => [tag, content] :: fieldObjects [] fields
  | .adjacent tag content, _ => [[tag, content]]
  | .untagged, .struct fields => fieldObjects [] fields
  | .untagged, _ => []

def Variant.isAmbiguous (tagging : Tagging) (variant : Variant) : Bool :=
  match tagging, variant.payload with
  | .internal _, .newtype type => type.isOption
  | _, _ => false

def Body.objects : Body → List (List String)
  | struct fields => fieldObjects [] fields
  | enum tagging variants => variants.flatMap (Variant.objects tagging)
  | typeAlias _ => []

def Body.ambiguities : Body → Nat
  | enum tagging variants => variants.countP (Variant.isAmbiguous tagging)
  | _ => 0

namespace Artifact

open Text

section Types

variable {nameOf : String → String} {o : Options} {marks others : List Char}

def typeMarks (type : TypeRef) : List Char :=
  if type.isOption then ['|'] else []

theorem typeMarks_subset (type : TypeRef) : typeMarks type ⊆ ['|'] := by
  unfold typeMarks
  split
  . exact List.Subset.refl _
  . exact List.nil_subset _

theorem outlined_typeText : (type : TypeRef) → type.NamedBy nameOf →
    Outlined (typeText nameOf o type) (typeMarks type) [] 0
  | .scalar kind, _ => by
    rw [typeText]
    exact Outlined.identifier (isIdentifier_scalar o.largeIntegers kind)
  | .named id, hnamed => by
    rw [typeText]
    exact Outlined.identifier (hnamed id .named)
  | .vector element, hnamed => by
    have hone := outlined_typeText element fun id hmention => hnamed id (.vector hmention)
    have hnone : Outlined "" [] [] 0 := Outlined.signs rfl
    have hempty : Outlined "[]" [] [] 0 := hnone.square rfl
    rw [typeText_vector]
    unfold typeMarks at hone
    split
    . next hoption =>
      rw [if_pos hoption] at hone
      exact (hone.round rfl).append hempty
    . next hoption =>
      rw [if_neg hoption] at hone
      exact hone.append hempty
  | .option inner, hnamed => by
    have hinner := outlined_typeText inner fun id hmention => hnamed id (.option hmention)
    have hor : Outlined " | " ['|'] [] 0 := Outlined.signs rfl
    rw [typeText]
    exact ((hinner.mono (typeMarks_subset inner)).append hor).append
      (Outlined.identifier (isIdentifier_absence o.absence))
  | .tuple elements, hnamed => by
    have hall : ∀ element ∈ elements,
        Outlined (typeText nameOf o element) [',', '|'] [] 0 := by
      intro element hmem
      have hone := outlined_typeText element fun id hmention => hnamed id (.tuple hmem hmention)
      exact hone.mono (List.subset_cons_of_subset _ (typeMarks_subset element))
    have hcomma : Outlined ", " [',', '|'] [] 0 := Outlined.signs rfl
    rw [typeText, typeText.go_eq_map]
    exact (Outlined.joinPlain hcomma hall).square rfl
  | .map key value, hnamed => by
    have hkey := outlined_typeText key fun id hmention => hnamed id (.mapKey hmention)
    have hvalue := outlined_typeText value fun id hmention => hnamed id (.mapValue hmention)
    have hcomma : Outlined ", " [',', '|'] [] 0 := Outlined.signs rfl
    have hpair := ((hkey.mono (List.subset_cons_of_subset ',' (typeMarks_subset key))).append
      hcomma).append (hvalue.mono (List.subset_cons_of_subset ',' (typeMarks_subset value)))
    rw [typeText_map]
    exact (Outlined.identifier (isIdentifier_mapType o.mapType)).append (hpair.angle rfl)

theorem outlined_resultText {result : Option TypeRef} {synchrony : Synchrony}
    (hnamed : ∀ type, result = some type → type.NamedBy nameOf) :
    Outlined (resultText nameOf o result synchrony) ['|'] [] 0 := by
  have hvalue : Outlined (resultText nameOf o result .sync) ['|'] [] 0 := by
    cases result with
    | none =>
      have hvoid : Outlined "void" ['|'] [] 0 := Outlined.signs rfl
      exact hvoid
    | some type => exact (outlined_typeText type (hnamed type rfl)).mono (typeMarks_subset type)
  cases synchrony with
  | sync => exact hvalue
  | async =>
    rw [resultText_async]
    exact (Outlined.signs rfl : Outlined "Promise" ['|'] [] 0).append (hvalue.angle rfl)

theorem outlined_emptyObject : Outlined emptyObject marks [[]] 0 := by
  have hnone : Keyed "" [] [] [] := Keyed.nil
  exact hnone.curly rfl

theorem outlined_flattenedText {type : TypeRef} (hnamed : type.NamedBy nameOf) :
    Outlined (flattenedText nameOf o type) [] (if type.isOption then [[]] else []) 0 := by
  have htype := outlined_typeText (o := o) type hnamed
  cases type with
  | option inner =>
    have hinner := outlined_typeText (o := o) inner fun id hmention => hnamed id (.option hmention)
    have hor : Outlined " | " ['|'] [] 0 := Outlined.signs rfl
    have hunion := ((hinner.mono (typeMarks_subset inner)).append hor).append outlined_emptyObject
    have hround : Outlined (flattenedText nameOf o (.option inner)) [] [[]] 0 := by
      simpa [flattenedText, String.append_assoc] using hunion.round rfl
    exact hround
  | _ => exact htype

theorem keyed_propertyText {field : Field} (htype : field.type.NamedBy nameOf) :
    Keyed (propertyText nameOf o field) [propertyKey field.name] [';', ':', '|'] [] := by
  have hvalue : ∀ type separator, type.NamedBy nameOf → separator = ": " ∨ separator = "?: " →
      Keyed (propertyKey field.name ++ separator ++ typeText nameOf o type)
        [propertyKey field.name] [';', ':', '|'] [] := by
    intro type separator hnamed hseparator
    have hone := (outlined_typeText (o := o) type hnamed).mono (typeMarks_subset type)
    exact (Keyed.property field.name hseparator hone (by decide)).mono
      (List.subset_cons_self _ _)
  unfold propertyText
  split
  . next inner heq _ =>
    rw [heq] at htype
    exact hvalue inner "?: " (fun id hmention => htype id (.option hmention)) (Or.inr rfl)
  . exact hvalue _ ": " htype (Or.inl rfl)

theorem exists_flattened {fields : List Field}
    (hfields : ∀ field ∈ fields, field.type.NamedBy nameOf) :
    ∃ parts : List (String × List (List String)),
      flattenedParts nameOf o fields = parts.map (·.1)
        ∧ (flattenedObjects fields).map (·.map propertyKey) = parts.flatMap (·.2)
        ∧ (fields.filter (·.flatten)).isEmpty = parts.isEmpty
        ∧ ∀ part ∈ parts, Outlined part.1 [] part.2 0 := by
  refine ⟨(fields.filter (·.flatten)).map fun field =>
    (flattenedText nameOf o field.type, if field.type.isOption then [[]] else []), ?_, ?_, ?_, ?_⟩
  . simp [flattenedParts]
  . rw [flattenedObjects, List.flatMap_map, List.map_flatMap]
    congr 1
    funext field
    dsimp only
    split
    . rfl
    . rfl
  . rw [List.isEmpty_map]
  . intro part hmem
    obtain ⟨field, hfield, rfl⟩ := List.mem_map.1 hmem
    exact outlined_flattenedText (hfields field (List.mem_filter.1 hfield).1)

theorem holds_append (before part after : List Char) :
    holds (before ++ part ++ after) part = true := by
  induction before with
  | nil =>
    unfold holds
    rw [List.nil_append, List.isPrefixOf_iff_prefix.2 (List.prefix_append _ _), Bool.true_or]
  | cons c cs ih =>
    rw [List.cons_append, List.cons_append, holds, ih, Bool.or_true]

section Objects

variable {leading : List (String × String)} {fields : List Field}
variable (hleading : ∀ property ∈ leading,
  Keyed property.2 [propertyKey property.1] [';', ':', '|'] [])
variable (hfields : ∀ field ∈ fields, field.type.NamedBy nameOf)

include hleading hfields

theorem exists_members :
    ∃ members : List (String × String),
      leading.map (·.2) ++ properties nameOf o fields = members.map (·.2)
        ∧ leading.map (·.1) ++ propertyNames fields = members.map (·.1)
        ∧ ∀ property ∈ members, Keyed property.2 [propertyKey property.1] [';', ':', '|'] [] := by
  refine ⟨leading ++ (fields.filter (!·.flatten)).map fun field =>
    (field.name, propertyText nameOf o field), ?_, ?_, ?_⟩
  . simp [properties]
  . simp [propertyNames]
  . intro property hmem
    cases List.mem_append.1 hmem with
    | inl hmem => exact hleading property hmem
    | inr hmem =>
      obtain ⟨field, hfield, rfl⟩ := List.mem_map.1 hmem
      exact keyed_propertyText (hfields field (List.mem_filter.1 hfield).1)

theorem exists_parts :
    ∃ parts : List (String × List (List String)),
      objectText nameOf o (leading.map (·.2)) fields = joinWith " & " (parts.map (·.1))
        ∧ (fieldObjects (leading.map (·.1)) fields).map (·.map propertyKey) = parts.flatMap (·.2)
        ∧ ∀ part ∈ parts, Outlined part.1 [] part.2 0 := by
  obtain ⟨members, htexts, hnames, hmembers⟩ := exists_members (o := o) hleading hfields
  obtain ⟨flattened, hparts, hobjects, hempty, hflattened⟩ := exists_flattened (o := o) hfields
  have hobject : Outlined (braced (joinWith "; " (members.map (·.2)))) []
      [members.map fun property => propertyKey property.1] 0 :=
    (Keyed.joinWith hmembers).braced rfl
  unfold objectText fieldObjects
  dsimp only
  rw [htexts, hnames, hparts, hempty, List.isEmpty_map, List.isEmpty_map, List.isEmpty_map,
    List.map_append, hobjects]
  cases members with
  | nil =>
    cases flattened with
    | nil =>
      exact ⟨[(emptyObject, [[]])], rfl, rfl, List.forall_mem_singleton.2 outlined_emptyObject⟩
    | cons part parts => exact ⟨part :: parts, rfl, rfl, hflattened⟩
  | cons member members =>
    refine ⟨(braced (joinWith "; " ((member :: members).map (·.2))),
      [(member :: members).map fun property => propertyKey property.1]) :: flattened, ?_, ?_, ?_⟩
    . simp
    . simp
    . exact List.forall_mem_cons.2 ⟨hobject, hflattened⟩

theorem outlined_objectText :
    Outlined (objectText nameOf o (leading.map (·.2)) fields) ['&']
      ((fieldObjects (leading.map (·.1)) fields).map (·.map propertyKey)) 0 := by
  obtain ⟨parts, htext, hobjects, hparts⟩ := exists_parts (o := o) hleading hfields
  have hand : Outlined " & " ['&'] [] 0 := Outlined.signs rfl
  have hjoined := Outlined.joinWith hand fun part hmem =>
    (hparts part hmem).mono (List.nil_subset _)
  rw [htext, hobjects]
  simpa using hjoined

theorem outlined_parenthesize :
    Outlined (parenthesize (objectText nameOf o (leading.map (·.2)) fields)) []
      ((fieldObjects (leading.map (·.1)) fields).map (·.map propertyKey)) 0 := by
  have hobject := outlined_objectText (o := o) hleading hfields
  unfold parenthesize
  split
  . exact hobject.round rfl
  . next hholds =>
    obtain ⟨parts, htext, hobjects, hparts⟩ := exists_parts (o := o) hleading hfields
    rw [htext] at hholds
    rw [htext, hobjects]
    -- Two parts would have been joined by the sign of an intersection.
    match parts with
    | [] => exact Outlined.signs rfl
    | [part] => simpa using hparts part List.mem_cons_self
    | part :: next :: parts =>
      refine absurd ?_ hholds
      rw [List.map_cons, List.map_cons, joinWith_cons_cons, String.toList_append,
        String.toList_append]
      exact holds_append _ _ _

end Objects

theorem exists_or_mem {inner : TypeRef} (hnamed : inner.NamedBy nameOf) :
    ∃ trees, Reads (typeText nameOf o (.option inner)) trees ∧ .sign '|' ∈ trees := by
  obtain ⟨first, hfirst, _⟩ := outlined_typeText (o := o) inner hnamed
  obtain ⟨last, hlast, _⟩ : Outlined o.absence.keyword [] [] 0 :=
    Outlined.identifier (isIdentifier_absence o.absence)
  have hor : Reads " | " [.sign ' ', .sign '|', .sign ' '] := Reads.signs rfl
  rw [typeText]
  exact ⟨_, (hfirst.append hor).append hlast, by simp⟩

theorem keyed_tag (tag name : String) {marks : List Char} (hmarks : ';' ∉ marks) :
    Keyed (propertyKey tag ++ ": " ++ Quoted.encode name) [propertyKey tag] (':' :: marks) [] :=
  Keyed.property tag (Or.inl rfl) (Outlined.quoted name) hmarks

theorem outlined_tagged {type : TypeRef} (tag name : String) (hnamed : type.NamedBy nameOf) :
    Outlined ("(" ++ braced (propertyKey tag ++ ": " ++ Quoted.encode name) ++ " & "
      ++ typeText nameOf o type ++ ")") marks [[propertyKey tag]]
        (if type.isOption then 1 else 0) := by
  have hobject : ∀ {marks}, Outlined (braced (propertyKey tag ++ ": " ++ Quoted.encode name)) marks
      [[propertyKey tag]] 0 :=
    (keyed_tag tag name List.not_mem_nil).braced rfl
  have htype := outlined_typeText (o := o) type hnamed
  rw [joined_eq]
  cases type with
  | option inner =>
    -- The tag is joined to only one side of the union that the type is.
    have hinner : inner.NamedBy nameOf := fun id hmention => hnamed id (.option hmention)
    have hand : Outlined " & " ['&', '|'] [] 0 := Outlined.signs rfl
    have hmixture := (hobject.append hand).append
      (htype.mono (List.subset_cons_of_subset _ (typeMarks_subset _)))
    obtain ⟨object, hreads, _⟩ : Outlined _ [] _ _ := hobject
    obtain ⟨union, hunion, hor⟩ := exists_or_mem (o := o) hinner
    have hsigns : Reads " & " [.sign ' ', .sign '&', .sign ' '] := Reads.signs rfl
    exact hmixture.mixing ⟨_, (hreads.append hsigns).append hunion, by simp, by simp [hor]⟩
  | _ =>
    have hand : Outlined " & " ['&'] [] 0 := Outlined.signs rfl
    exact ((hobject.append hand).append (htype.mono (List.nil_subset _))).round rfl

theorem outlined_beside {text : String} {objects : List (List String)} (tag content name : String)
    (h : Outlined text marks objects 0) (hmarks : ';' ∉ marks) (hclear : isClear marks = true) :
    Outlined (braced (propertyKey tag ++ ": " ++ Quoted.encode name ++ "; " ++ propertyKey content
      ++ ": " ++ text)) others ([propertyKey tag, propertyKey content] :: objects) 0 := by
  have hsubset : ':' :: marks ⊆ ';' :: ':' :: marks := List.subset_cons_self _ _
  have hcontent := (Keyed.property content (Or.inl rfl) h hmarks).mono hsubset
  have hpair := ((keyed_tag tag name hmarks).mono hsubset).beside hcontent
  rw [beside_eq]
  exact hpair.braced hclear

theorem outlined_boxed {text : String} {objects : List (List String)} (name : String)
    (h : Outlined text marks objects 0) (hmarks : ';' ∉ marks) (hclear : isClear marks = true) :
    Outlined (braced (propertyKey name ++ ": " ++ text)) others ([propertyKey name] :: objects) 0 :=
  (Keyed.property name (Or.inl rfl) h hmarks).braced hclear

theorem outlined_fields {fields : List Field}
    (hfields : ∀ field ∈ fields, field.type.NamedBy nameOf) :
    Outlined (objectText nameOf o [] fields) ['&']
      ((fieldObjects [] fields).map (·.map propertyKey)) 0 := by
  have hnone : ∀ property ∈ ([] : List (String × String)),
      Keyed property.2 [propertyKey property.1] [';', ':', '|'] [] := List.forall_mem_nil _
  have hobject := outlined_objectText (o := o) hnone hfields
  rwa [List.map_nil, List.map_nil] at hobject

theorem outlined_memberText {quotable : String → Prop} {variant : Variant} (tagging : Tagging)
    (hvariant : variant.Writable quotable nameOf) :
    Outlined (memberText nameOf o tagging variant) ['|']
      ((variant.objects tagging).map (·.map propertyKey))
      (if variant.isAmbiguous tagging then 1 else 0) := by
  obtain ⟨name, payload, doc⟩ := variant
  obtain ⟨_, hpayload⟩ := hvariant
  have htype : ∀ type, type.NamedBy nameOf → Outlined (typeText nameOf o type) ['|'] [] 0 :=
    fun type hnamed => (outlined_typeText type hnamed).mono (typeMarks_subset type)
  have hfields : ∀ fields, payload = .struct fields →
      ∀ field ∈ fields, field.type.NamedBy nameOf := by
    rintro fields rfl field hmem
    exact (hpayload field hmem).type
  unfold memberText tupleText
  dsimp only
  cases tagging with
  | external =>
    cases payload with
    | unit => exact Outlined.quoted name
    | newtype type => exact outlined_boxed name (htype type hpayload) (by decide) rfl
    | tuple elements =>
      exact outlined_boxed name (htype (.tuple elements) hpayload) (by decide) rfl
    | struct fields =>
      exact outlined_boxed name (outlined_fields (hfields fields rfl)) (by decide) rfl
  | internal tag =>
    have htag : Keyed (propertyKey tag ++ ": " ++ Quoted.encode name) [propertyKey tag] [':'] [] :=
      keyed_tag tag name List.not_mem_nil
    cases payload with
    | unit => exact htag.braced rfl
    | newtype type => exact outlined_tagged tag name hpayload
    | tuple elements => exact outlined_tagged tag name hpayload
    | struct fields =>
      have hleading : ∀ property ∈ [(tag, propertyKey tag ++ ": " ++ Quoted.encode name)],
          Keyed property.2 [propertyKey property.1] [';', ':', '|'] [] := by
        rw [List.forall_mem_singleton]
        exact htag.mono (by decide)
      exact (outlined_parenthesize hleading (hfields fields rfl)).mono (List.nil_subset _)
  | adjacent tag content =>
    cases payload with
    | unit =>
      have htag := keyed_tag tag name (List.not_mem_nil (a := ';'))
      exact htag.braced rfl
    | newtype type =>
      exact outlined_beside tag content name (htype type hpayload) (by decide) rfl
    | tuple elements =>
      exact outlined_beside tag content name (htype (.tuple elements) hpayload) (by decide) rfl
    | struct fields =>
      exact outlined_beside tag content name (outlined_fields (hfields fields rfl)) (by decide) rfl
  | untagged =>
    cases payload with
    | unit => exact Outlined.identifier (isIdentifier_absence o.absence)
    | newtype type => exact htype type hpayload
    | tuple elements => exact htype (.tuple elements) hpayload
    | struct fields =>
      have hnone : ∀ property ∈ ([] : List (String × String)),
          Keyed property.2 [propertyKey property.1] [';', ':', '|'] [] := List.forall_mem_nil _
      exact (outlined_parenthesize hnone (hfields fields rfl)).mono (List.nil_subset _)

end Types

end Artifact

end Bindings
