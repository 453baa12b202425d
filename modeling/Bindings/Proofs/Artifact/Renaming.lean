import Bindings.Proofs.Artifact.Texture
import Bindings.Proofs.Renaming

/-!
This module contains what identifiers are to the texts of an artifact: a way to name types. Renamed
identifiers, named by what they stood for, give the same texts.
-/

namespace Bindings.Artifact

variable (nameOf : String → String) (o : Options) (s : String → String)

theorem typeText_mapIds : (type : TypeRef) →
    typeText nameOf o (type.mapIds s) = typeText (nameOf ∘ s) o type
  | .scalar kind => by simp [TypeRef.mapIds, typeText]
  | .named id => by simp [TypeRef.mapIds, typeText]
  | .vector element => by
    rw [TypeRef.mapIds, typeText_vector, typeText_vector, TypeRef.isOption_mapIds,
      typeText_mapIds element]
  | .option inner => by simp [TypeRef.mapIds, typeText, typeText_mapIds inner]
  | .tuple elements => by
    have helements : elements.map (fun element => typeText nameOf o (element.mapIds s))
        = elements.map (typeText (nameOf ∘ s) o) := by
      apply List.map_congr_left
      intro element hmem
      exact typeText_mapIds element
    simp only [TypeRef.mapIds, typeText, typeText.go_eq_map, TypeRef.mapIds.go_eq_map,
      List.map_map, Function.comp_def, helements]
  | .map key value => by
    simp [TypeRef.mapIds, typeText, typeText_mapIds key, typeText_mapIds value]

theorem propertyText_mapIds (field : Field) :
    propertyText nameOf o (field.mapIds s) = propertyText (nameOf ∘ s) o field := by
  obtain ⟨name, type, doc, flatten⟩ := field
  have htype := typeText_mapIds nameOf o s type
  cases type with
  | option inner =>
    cases hoptional : o.optionalFields with
    | true =>
      simp [propertyText, Field.mapIds, TypeRef.mapIds, hoptional, typeText_mapIds nameOf o s inner]
    | false => simpa [propertyText, Field.mapIds, TypeRef.mapIds, hoptional] using htype
  | scalar kind => simpa [propertyText, Field.mapIds, TypeRef.mapIds] using htype
  | named id => simpa [propertyText, Field.mapIds, TypeRef.mapIds] using htype
  | vector element => simpa [propertyText, Field.mapIds, TypeRef.mapIds] using htype
  | tuple elements => simpa [propertyText, Field.mapIds, TypeRef.mapIds] using htype
  | map key value => simpa [propertyText, Field.mapIds, TypeRef.mapIds] using htype

theorem flattenedText_mapIds (type : TypeRef) :
    flattenedText nameOf o (type.mapIds s) = flattenedText (nameOf ∘ s) o type := by
  cases type with
  | option inner => simp [flattenedText, TypeRef.mapIds, typeText_mapIds nameOf o s inner]
  | scalar kind => exact typeText_mapIds nameOf o s (.scalar kind)
  | named id => exact typeText_mapIds nameOf o s (.named id)
  | vector element => exact typeText_mapIds nameOf o s (.vector element)
  | tuple elements => exact typeText_mapIds nameOf o s (.tuple elements)
  | map key value => exact typeText_mapIds nameOf o s (.map key value)

theorem properties_mapIds (fields : List Field) :
    properties nameOf o (fields.map (Field.mapIds s)) = properties (nameOf ∘ s) o fields := by
  unfold properties
  rw [List.filter_map, List.map_map]
  apply List.map_congr_left
  intro field _
  exact propertyText_mapIds nameOf o s field

theorem flattenedParts_mapIds (fields : List Field) :
    flattenedParts nameOf o (fields.map (Field.mapIds s))
      = flattenedParts (nameOf ∘ s) o fields := by
  unfold flattenedParts
  rw [List.filter_map, List.map_map]
  apply List.map_congr_left
  intro field _
  exact flattenedText_mapIds nameOf o s field.type

theorem objectText_mapIds (leading : List String) (fields : List Field) :
    objectText nameOf o leading (fields.map (Field.mapIds s))
      = objectText (nameOf ∘ s) o leading fields := by
  unfold objectText
  rw [properties_mapIds, flattenedParts_mapIds]

theorem tupleText_mapIds (elements : List TypeRef) :
    tupleText nameOf o (elements.map (TypeRef.mapIds s)) = tupleText (nameOf ∘ s) o elements := by
  have htuple := typeText_mapIds nameOf o s (.tuple elements)
  rw [TypeRef.mapIds, TypeRef.mapIds.go_eq_map] at htuple
  exact htuple

theorem memberText_mapIds (tagging : Tagging) (variant : Variant) :
    memberText nameOf o tagging (variant.mapIds s) = memberText (nameOf ∘ s) o tagging variant := by
  obtain ⟨name, payload, doc⟩ := variant
  cases payload with
  | unit => rfl
  | newtype type =>
    simp only [memberText, Variant.mapIds, Payload.mapIds, typeText_mapIds]
  | tuple elements =>
    simp only [memberText, Variant.mapIds, Payload.mapIds, tupleText_mapIds]
  | struct fields =>
    simp only [memberText, Variant.mapIds, Payload.mapIds, objectText_mapIds]

theorem structLines_mapIds (name : String) (fields : List Field) :
    structLines nameOf o name (fields.map (Field.mapIds s))
      = structLines (nameOf ∘ s) o name fields := by
  have hkept : (fields.map (Field.mapIds s)).filter (!·.flatten)
      = (fields.filter (!·.flatten)).map (Field.mapIds s) := by
    rw [List.filter_map]
    rfl
  unfold structLines
  dsimp only
  rw [flattenedParts_mapIds, hkept, List.isEmpty_map, List.flatMap_map]
  simp only [propertyText_mapIds]
  rfl

theorem unionLines_mapIds (tagging : Tagging) (variants : List Variant) :
    unionLines nameOf o tagging (variants.map (Variant.mapIds s))
      = unionLines (nameOf ∘ s) o tagging variants := by
  induction variants using unionLines.induct with
  | case1 => rfl
  | case2 variant =>
    simp only [List.map_cons, List.map_nil, unionLines, memberText_mapIds]
    rfl
  | case3 variant variants hnil ih =>
    rw [List.map_cons, unionLines, unionLines, ih, memberText_mapIds]
    . rfl
    . exact hnil
    . simpa using hnil

theorem enumLines_mapIds (name : String) (tagging : Tagging) (variants : List Variant) :
    enumLines nameOf o name tagging (variants.map (Variant.mapIds s))
      = enumLines (nameOf ∘ s) o name tagging variants := by
  have hplain : (variants.map (Variant.mapIds s)).all (·.doc.isNone)
      = variants.all (·.doc.isNone) := by
    rw [List.all_map]
    rfl
  have hmembers : (variants.map (Variant.mapIds s)).map (memberText nameOf o tagging)
      = variants.map (memberText (nameOf ∘ s) o tagging) := by
    rw [List.map_map]
    apply List.map_congr_left
    intro variant _
    exact memberText_mapIds nameOf o s tagging variant
  unfold enumLines
  rw [List.isEmpty_map, hplain, hmembers, unionLines_mapIds]

theorem typeLines_of_renamed {decl other : TypeDecl} (h : decl.Renamed s other) :
    typeLines nameOf o other = typeLines (nameOf ∘ s) o decl := by
  unfold typeLines
  rw [h.doc, h.body, h.declaredName]
  congr 1
  cases decl.body with
  | struct fields => exact structLines_mapIds nameOf o s decl.declaredName fields
  | enum tagging variants => exact enumLines_mapIds nameOf o s decl.declaredName tagging variants
  | typeAlias target => simp only [Body.mapIds, aliasLines, typeText_mapIds]

theorem resultText_mapIds (result : Option TypeRef) (synchrony : Synchrony) :
    resultText nameOf o (result.map (TypeRef.mapIds s)) synchrony
      = resultText (nameOf ∘ s) o result synchrony := by
  cases result with
  | none => rfl
  | some type => simp only [Option.map_some, resultText, typeText_mapIds]

theorem functionTags_mapIds (function : FunctionDecl) :
    functionTags nameOf o (function.mapIds s) = functionTags (nameOf ∘ s) o function := by
  have htags : (function.params.map (Param.mapIds s)).map (paramTag nameOf o)
      = function.params.map (paramTag (nameOf ∘ s) o) := by
    rw [List.map_map]
    apply List.map_congr_left
    intro param _
    simp only [Function.comp_apply, paramTag, Param.mapIds, typeText_mapIds]
    rfl
  unfold functionTags
  dsimp only [FunctionDecl.mapIds]
  rw [htags, resultText_mapIds]

theorem functionLines_mapIds (function : FunctionDecl) :
    functionLines nameOf o (function.mapIds s) = functionLines (nameOf ∘ s) o function := by
  have hparams : (function.params.map (Param.mapIds s)).map
        (fun param => param.name ++ ": " ++ typeText nameOf o param.type)
      = function.params.map fun param =>
        param.name ++ ": " ++ typeText (nameOf ∘ s) o param.type := by
    rw [List.map_map]
    apply List.map_congr_left
    intro param _
    simp only [Function.comp_apply, Param.mapIds, typeText_mapIds]
  unfold functionLines
  rw [functionTags_mapIds]
  dsimp only [FunctionDecl.mapIds]
  rw [hparams, resultText_mapIds]

end Bindings.Artifact
