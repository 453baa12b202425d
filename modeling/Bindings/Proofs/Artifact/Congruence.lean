import Bindings.Artifact.Block
import Bindings.Proofs.Artifact.Texture
import Bindings.Proofs.Reference
import Mathlib.Data.List.Forall2

/-!
This module contains what the texts of an artifact depend on: how the identifiers that stand in a
type are named, and those options that write the parts which stand in it. Texts that depend on the
same have the same lines, apart from the declarator and the margin.
-/

namespace Bindings

inductive TypeRef.PartOf (part : TypeRef) : TypeRef → Prop
  | self : PartOf part part
  | vector : PartOf part element → PartOf part (.vector element)
  | option {inner : TypeRef} : PartOf part inner → PartOf part (.option inner)
  | tuple : element ∈ elements → PartOf part element → PartOf part (.tuple elements)
  | mapKey : PartOf part key → PartOf part (.map key value)
  | mapValue : PartOf part value → PartOf part (.map key value)

def Payload.fields : Payload → List Field
  | struct fields => fields
  | unit | newtype _ | tuple _ => []

def Body.fields : Body → List Field
  | struct fields => fields
  | enum _ variants => variants.flatMap (·.payload.fields)
  | typeAlias _ => []

namespace Artifact

section Writing

variable (nameOf nameOf' : String → String) (o o' : Options)

def SameWord : TypeRef → Prop
  | .scalar kind => kind.text o.largeIntegers = kind.text o'.largeIntegers
  | .named id => nameOf id = nameOf' id
  | .vector _ | .tuple _ => True
  | .option _ => o.absence = o'.absence
  | .map _ _ => o.mapType = o'.mapType

def SameWords (type : TypeRef) : Prop :=
  ∀ part, part.PartOf type → SameWord nameOf nameOf' o o' part

def SameMark (field : Field) : Prop :=
  field.flatten = false → field.type.isOption = true → o.optionalFields = o'.optionalFields

def SameUnit (tagging : Tagging) (variant : Variant) : Prop :=
  tagging = .untagged → variant.payload = .unit → o.absence = o'.absence

structure SameBody (body : Body) : Prop where
  types : ∀ type ∈ body.types, SameWords nameOf nameOf' o o' type
  fields : ∀ field ∈ body.fields, SameMark o o' field
  units : ∀ tagging variants, body = .enum tagging variants →
    ∀ variant ∈ variants, SameUnit o o' tagging variant

end Writing

variable {nameOf nameOf' : String → String} {o o' : Options}

theorem typeText_congr : (type : TypeRef) → SameWords nameOf nameOf' o o' type →
    typeText nameOf o type = typeText nameOf' o' type
  | .scalar kind, h => by
    simp only [typeText]
    exact h _ .self
  | .named id, h => by
    simp only [typeText]
    exact h _ .self
  | .vector element, h => by
    have helement := typeText_congr element fun part hpart => h part (.vector hpart)
    rw [typeText_vector, typeText_vector, helement]
  | .option inner, h => by
    have hinner := typeText_congr inner fun part hpart => h part (.option hpart)
    have habsence : o.absence = o'.absence := h _ .self
    simp only [typeText, hinner, habsence]
  | .tuple elements, h => by
    have helements : elements.map (typeText nameOf o) = elements.map (typeText nameOf' o') := by
      apply List.map_congr_left
      intro element hmem
      exact typeText_congr element fun part hpart => h part (.tuple hmem hpart)
    simp only [typeText, typeText.go_eq_map, helements]
  | .map key value, h => by
    have hkey := typeText_congr key fun part hpart => h part (.mapKey hpart)
    have hvalue := typeText_congr value fun part hpart => h part (.mapValue hpart)
    have hmap : o.mapType = o'.mapType := h _ .self
    simp only [typeText, hkey, hvalue, hmap]

theorem SameWords.inner {inner : TypeRef} (h : SameWords nameOf nameOf' o o' (.option inner)) :
    SameWords nameOf nameOf' o o' inner :=
  fun part hpart => h part (.option hpart)

theorem SameWords.tuple {elements : List TypeRef}
    (h : ∀ element ∈ elements, SameWords nameOf nameOf' o o' element) :
    SameWords nameOf nameOf' o o' (.tuple elements) := by
  intro part hpart
  cases hpart with
  | self => exact trivial
  | tuple hmem hpart => exact h _ hmem part hpart

theorem resultText_congr {result : Option TypeRef} {synchrony : Synchrony}
    (h : ∀ type, result = some type → SameWords nameOf nameOf' o o' type) :
    resultText nameOf o result synchrony = resultText nameOf' o' result synchrony := by
  cases result with
  | none => rfl
  | some type => simp only [resultText, typeText_congr type (h type rfl)]

theorem flattenedText_congr {type : TypeRef} (h : SameWords nameOf nameOf' o o' type) :
    flattenedText nameOf o type = flattenedText nameOf' o' type := by
  unfold flattenedText
  split
  . next inner => rw [typeText_congr inner h.inner]
  . exact typeText_congr type h

theorem propertyText_congr {field : Field} (htype : SameWords nameOf nameOf' o o' field.type)
    (hmark : field.type.isOption = true → o.optionalFields = o'.optionalFields) :
    propertyText nameOf o field = propertyText nameOf' o' field := by
  obtain ⟨name, type, doc, flatten⟩ := field
  have htext := typeText_congr type htype
  cases type with
  | option inner =>
    have hinner := typeText_congr inner htype.inner
    unfold propertyText
    rw [hmark rfl]
    cases o'.optionalFields with
    | true => simp only [hinner]
    | false => simp only [htext]
  | scalar kind => simp only [propertyText, htext]
  | named id => simp only [propertyText, htext]
  | vector element => simp only [propertyText, htext]
  | tuple elements => simp only [propertyText, htext]
  | map key value => simp only [propertyText, htext]

section Fields

variable {fields : List Field} (htypes : ∀ field ∈ fields, SameWords nameOf nameOf' o o' field.type)

include htypes

theorem flattenedParts_congr :
    flattenedParts nameOf o fields = flattenedParts nameOf' o' fields := by
  apply List.map_congr_left
  intro field hmem
  exact flattenedText_congr (htypes field (List.mem_filter.1 hmem).1)

variable (hmarks : ∀ field ∈ fields, SameMark o o' field)

include hmarks

theorem propertyText_congr_of_mem {field : Field} (hmem : field ∈ fields.filter (!·.flatten)) :
    propertyText nameOf o field = propertyText nameOf' o' field := by
  obtain ⟨hmem, hkept⟩ := List.mem_filter.1 hmem
  rw [Bool.not_eq_true'] at hkept
  exact propertyText_congr (htypes field hmem) (hmarks field hmem hkept)

theorem properties_congr : properties nameOf o fields = properties nameOf' o' fields :=
  List.map_congr_left fun _ hmem => propertyText_congr_of_mem htypes hmarks hmem

theorem objectText_congr (leading : List String) :
    objectText nameOf o leading fields = objectText nameOf' o' leading fields := by
  unfold objectText
  rw [properties_congr htypes hmarks, flattenedParts_congr htypes]

end Fields

theorem memberText_congr {tagging : Tagging} {variant : Variant}
    (htypes : ∀ type ∈ variant.payload.types, SameWords nameOf nameOf' o o' type)
    (hmarks : ∀ field ∈ variant.payload.fields, SameMark o o' field)
    (hunit : SameUnit o o' tagging variant) :
    memberText nameOf o tagging variant = memberText nameOf' o' tagging variant := by
  obtain ⟨name, payload, doc⟩ := variant
  cases payload with
  | unit =>
    cases tagging with
    | external => rfl
    | internal tag => rfl
    | adjacent tag content => rfl
    | untagged => simp only [memberText, hunit rfl rfl]
  | newtype type =>
    have htype := typeText_congr type (htypes type List.mem_cons_self)
    simp only [memberText, htype]
  | tuple elements =>
    have htuple : tupleText nameOf o elements = tupleText nameOf' o' elements :=
      typeText_congr _ (.tuple htypes)
    simp only [memberText, htuple]
  | struct fields =>
    have hfields : ∀ field ∈ fields, SameWords nameOf nameOf' o o' field.type := by
      intro field hmem
      exact htypes _ (List.mem_map_of_mem hmem)
    simp only [memberText, objectText_congr hfields hmarks]

inductive SameInside (o o' : Options) : String → String → Prop
  | plain (line : String) : SameInside o o' line line
  | indented (text : String) : SameInside o o' (o.margin ++ text) (o'.margin ++ text)

/--
Two blocks have the same lines, of which one declares something, apart from the declarator and the
margin.
-/
inductive SameBlock (o o' : Options) : List String → List String → Prop
  | intro {before before' after after' : List String} (text : String)
    (hbefore : List.Forall₂ (SameInside o o') before before')
    (hafter : List.Forall₂ (SameInside o o') after after') :
    SameBlock o o' (before ++ (o.declarator ++ text) :: after)
      (before' ++ (o'.declarator ++ text) :: after')

theorem forall₂_flatMap {R : β → γ → Prop} {elements : List α} {lines : α → List β}
    {lines' : α → List γ}
    (h : ∀ element ∈ elements, List.Forall₂ R (lines element) (lines' element)) :
    List.Forall₂ R (elements.flatMap lines) (elements.flatMap lines') := by
  induction elements with
  | nil => exact .nil
  | cons element elements ih =>
    rw [List.forall_mem_cons] at h
    rw [List.flatMap_cons, List.flatMap_cons]
    exact List.rel_append h.1 (ih h.2)

theorem SameInside.eq_of_forall₂ (hmargin : o.margin = o'.margin) {lines lines' : List String}
    (h : List.Forall₂ (SameInside o o') lines lines') : lines = lines' := by
  induction h with
  | nil => rfl
  | cons hline _ ih =>
    rw [ih]
    cases hline with
    | plain => rfl
    | indented text => rw [hmargin]

theorem sameInside_refl (lines : List String) : List.Forall₂ (SameInside o o') lines lines :=
  List.forall₂_same.2 fun line _ => .plain line

theorem sameInside_docLine (line : String) :
    SameInside o o' (docLine o.margin line) (docLine o'.margin line) := by
  unfold docLine
  split
  . exact .indented _
  . rw [String.append_assoc, String.append_assoc]
    exact .indented _

theorem sameInside_docLines (doc : Option String) :
    List.Forall₂ (SameInside o o') (docLines o.margin doc) (docLines o'.margin doc) := by
  cases doc with
  | none => exact .nil
  | some doc =>
    have hlines : List.Forall₂ (SameInside o o') ((Text.lines doc).map (docLine o.margin))
        ((Text.lines doc).map (docLine o'.margin)) := by
      rw [List.forall₂_map_left_iff, List.forall₂_map_right_iff, List.forall₂_same]
      exact fun line _ => sameInside_docLine line
    exact List.rel_append (.cons (.indented _) hlines) (.cons (.indented _) .nil)

namespace SameBlock

theorem head (text : String) {after after' : List String}
    (hafter : List.Forall₂ (SameInside o o') after after') :
    SameBlock o o' ((o.declarator ++ text) :: after) ((o'.declarator ++ text) :: after') :=
  .intro text .nil hafter

theorem line (text : String) : SameBlock o o' [o.declarator ++ text] [o'.declarator ++ text] :=
  .head text .nil

theorem eq {lines lines' : List String} (h : SameBlock o o' lines lines')
    (hdeclarator : o.declarator = o'.declarator) (hmargin : o.margin = o'.margin) :
    lines = lines' := by
  cases h with
  | intro text hbefore hafter =>
    rw [SameInside.eq_of_forall₂ hmargin hbefore, SameInside.eq_of_forall₂ hmargin hafter,
      hdeclarator]

theorem below (before : List String) {lines lines' : List String}
    (h : SameBlock o o' lines lines') : SameBlock o o' (before ++ lines) (before ++ lines') := by
  cases h with
  | intro text hbefore hafter =>
    rw [← List.append_assoc, ← List.append_assoc]
    exact .intro text (List.rel_append (sameInside_refl before) hbefore) hafter

end SameBlock

theorem sameBlock_structLines {name : String} {fields : List Field}
    (htypes : ∀ field ∈ fields, SameWords nameOf nameOf' o o' field.type)
    (hmarks : ∀ field ∈ fields, SameMark o o' field) :
    SameBlock o o' (structLines nameOf o name fields) (structLines nameOf' o' name fields) := by
  have hmembers : List.Forall₂ (SameInside o o')
      ((fields.filter (!·.flatten)).flatMap fun field =>
        docLines o.margin field.doc ++ [o.margin ++ (propertyText nameOf o field ++ ";")])
      ((fields.filter (!·.flatten)).flatMap fun field =>
        docLines o'.margin field.doc ++ [o'.margin ++ (propertyText nameOf' o' field ++ ";")]) := by
    apply forall₂_flatMap
    intro field hmem
    rw [propertyText_congr_of_mem htypes hmarks hmem]
    exact List.rel_append (sameInside_docLines field.doc) (.cons (.indented _) .nil)
  unfold structLines
  dsimp only
  rw [flattenedParts_congr htypes]
  simp only [String.append_assoc]
  split
  . exact .line _
  . exact .line _
  . exact .head _ (List.rel_append hmembers (sameInside_refl _))
  . exact .head _ (List.rel_append hmembers (sameInside_refl _))

theorem sameInside_unionLines {tagging : Tagging} {variants : List Variant}
    (h : ∀ variant ∈ variants,
      memberText nameOf o tagging variant = memberText nameOf' o' tagging variant) :
    List.Forall₂ (SameInside o o') (unionLines nameOf o tagging variants)
      (unionLines nameOf' o' tagging variants) := by
  induction variants using unionLines.induct with
  | case1 => exact .nil
  | case2 variant =>
    rw [List.forall_mem_singleton] at h
    rw [unionLines, unionLines, h]
    simp only [String.append_assoc]
    exact List.rel_append (sameInside_docLines variant.doc) (.cons (.indented _) .nil)
  | case3 variant variants hnil ih =>
    rw [List.forall_mem_cons] at h
    rw [unionLines, unionLines, h.1]
    . simp only [String.append_assoc]
      exact List.rel_append (List.rel_append (sameInside_docLines variant.doc)
        (.cons (.indented _) .nil)) (ih h.2)
    . exact hnil
    . exact hnil

theorem sameBlock_enumLines {name : String} {tagging : Tagging} {variants : List Variant}
    (h : ∀ variant ∈ variants,
      memberText nameOf o tagging variant = memberText nameOf' o' tagging variant) :
    SameBlock o o' (enumLines nameOf o name tagging variants)
      (enumLines nameOf' o' name tagging variants) := by
  unfold enumLines
  dsimp only
  rw [List.map_congr_left h]
  simp only [String.append_assoc]
  split
  . exact .line _
  . split
    . exact .line _
    . exact .head _ (sameInside_unionLines h)

theorem sameBlock_typeLines {decl : TypeDecl} (h : SameBody nameOf nameOf' o o' decl.body) :
    SameBlock o o' (typeLines nameOf o decl) (typeLines nameOf' o' decl) := by
  unfold typeLines
  apply SameBlock.below
  cases hbody : decl.body with
  | struct fields =>
    rw [hbody] at h
    exact sameBlock_structLines (fun field hmem => h.types _ (List.mem_map_of_mem hmem)) h.fields
  | enum tagging variants =>
    rw [hbody] at h
    apply sameBlock_enumLines
    intro variant hmem
    apply memberText_congr
    . exact fun type htype => h.types type (List.mem_flatMap.2 ⟨variant, hmem, htype⟩)
    . exact fun field hfield => h.fields field (List.mem_flatMap.2 ⟨variant, hmem, hfield⟩)
    . exact h.units tagging variants rfl variant hmem
  | typeAlias target =>
    rw [hbody] at h
    dsimp only [aliasLines]
    rw [typeText_congr target (h.types target (List.mem_singleton_self target))]
    simp only [String.append_assoc]
    exact .line _

section Function

variable {function : FunctionDecl}
variable (htypes : ∀ type site, function.Makes type site → SameWords nameOf nameOf' o o' type)

include htypes

theorem paramText_congr {param : Param} (hmem : param ∈ function.params) :
    typeText nameOf o param.type = typeText nameOf' o' param.type := by
  obtain ⟨index, hparam⟩ := List.mem_iff_getElem?.1 hmem
  exact typeText_congr _ (htypes _ _ (.param hparam))

theorem functionResult_congr :
    resultText nameOf o function.result function.synchrony
      = resultText nameOf' o' function.result function.synchrony :=
  resultText_congr fun _ hresult => htypes _ _ (.result hresult)

theorem functionTags_congr (hjsdoc : o.jsdoc = o'.jsdoc) :
    functionTags nameOf o function = functionTags nameOf' o' function := by
  have htags : ∀ param ∈ function.params, paramTag nameOf o param = paramTag nameOf' o' param := by
    intro param hmem
    simp only [paramTag, paramText_congr htypes hmem]
  unfold functionTags
  rw [List.map_congr_left htags, functionResult_congr htypes, hjsdoc]

theorem sameBlock_functionLines (hjsdoc : o.jsdoc = o'.jsdoc) :
    SameBlock o o' (functionLines nameOf o function) (functionLines nameOf' o' function) := by
  have hlist : ∀ param ∈ function.params, param.name ++ ": " ++ typeText nameOf o param.type
      = param.name ++ ": " ++ typeText nameOf' o' param.type := by
    intro param hmem
    rw [paramText_congr htypes hmem]
  unfold functionLines
  dsimp only
  rw [functionTags_congr htypes hjsdoc, List.map_congr_left hlist, functionResult_congr htypes]
  simp only [String.append_assoc]
  exact (SameBlock.line _).below _

end Function

end Artifact

end Bindings
