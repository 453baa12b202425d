import Bindings.Codec.Description
import Bindings.Proofs.Codec.TypeRef

/-!
This module contains that descriptions are decoded from what they are encoded to.
-/

namespace Bindings

open Json (Lawful Restores Inscribed lawful_text lawful_flag lawful_optional_text record_settled)

theorem Field.lawful_decode (budget : Nat) :
    Lawful budget (Field.decode budget) Field.toJson := by
  refine Lawful.record ?_ ?_ ?_
  . show ["name", "type", "doc", "flatten"].Nodup
    decide
  . intro field
    exact .set (lawful_text _) field.name (.set (TypeRef.lawful_decode _) field.type
      (.set (lawful_optional_text _) field.doc (.set (lawful_flag _) field.flatten (.nil _))))
  . intro r field hok
    have htype := record_settled hok "type" (·.type.toJson.nesting ≤ budget - 1)
      (.keep (by decide) (fun _ _ h => h) <|
        .give (TypeRef.lawful_decode _) (fun _ _ h => h) <|
        .keep (by decide) (fun _ _ h => h) <|
        .keep (by decide) (fun _ _ h => h) .nil)
      (.inr ⟨_, .tail _ (.head _), rfl, rfl, List.not_mem_nil⟩)
    simp [htype]

theorem Payload.lawful_decode (budget : Nat) :
    Lawful budget (Payload.decode budget) Payload.toJson := by
  have htypes := (TypeRef.lawful_decode (budget - 2)).list
  have hfields := (Field.lawful_decode (budget - 2)).list
  apply Lawful.oneOf
  . intro payload
    cases payload with
    | unit => exact .bare rfl
    | newtype type => exact .payload rfl (((TypeRef.lawful_decode _).restores type).map newtype)
    | tuple elements => exact .payload rfl ((htypes.restores elements).map tuple)
    | struct fields => exact .payload rfl ((hfields.restores fields).map struct)
  . intro p hmem
    simp only [List.mem_cons, List.not_mem_nil, or_false] at hmem
    rcases hmem with rfl | rfl | rfl | rfl
    . exact .unit rfl
    . exact .newtype_map (TypeRef.lawful_decode _) fun _ => rfl
    . exact .newtype_map htypes fun _ => rfl
    . exact .newtype_map hfields fun _ => rfl

theorem Variant.lawful_decode (budget : Nat) :
    Lawful budget (Variant.decode budget) Variant.toJson := by
  refine Lawful.record ?_ ?_ ?_
  . show ["name", "shape", "doc"].Nodup
    decide
  . intro variant
    exact .set (lawful_text _) variant.name (.set (Payload.lawful_decode _) variant.payload
      (.set (lawful_optional_text _) variant.doc (.nil _)))
  . intro r variant hok
    have hpayload := record_settled hok "shape" (·.payload.toJson.nesting ≤ budget - 1)
      (.keep (by decide) (fun _ _ h => h) <|
        .give (Payload.lawful_decode _) (fun _ _ h => h) <|
        .keep (by decide) (fun _ _ h => h) .nil)
      (.inr ⟨_, .tail _ (.head _), rfl, rfl, List.not_mem_nil⟩)
    simp [hpayload]

namespace Tagging

theorem lawful_internal (budget : Nat) :
    Lawful budget
      (Json.Decoder.record "struct variant EnumRepr::Internal" budget "" internalSlots)
      fun tag => .object [("tag", .string tag)] := by
  refine Lawful.record ?_ ?_ ?_
  . show ["tag"].Nodup
    decide
  . intro tag
    exact .set (lawful_text _) tag (.nil _)
  . simp

theorem lawful_adjacent (budget : Nat) :
    Lawful budget
      (Json.Decoder.record "struct variant EnumRepr::Adjacent" budget ("", "") adjacentSlots)
      fun names => .object [("tag", .string names.1), ("content", .string names.2)] := by
  refine Lawful.record ?_ ?_ ?_
  . show ["tag", "content"].Nodup
    decide
  . intro names
    exact .set (lawful_text _) names.1 (.set (lawful_text _) names.2 (.nil _))
  . simp

theorem lawful_decode (budget : Nat) :
    Lawful budget (decode budget) toJson := by
  apply Lawful.oneOf
  . intro tagging
    cases tagging with
    | external => exact .bare rfl
    | internal tag => exact .payload rfl (((lawful_internal _).restores tag).map internal)
    | adjacent tag content =>
      exact .payload rfl (((lawful_adjacent _).restores (tag, content)).map _)
    | untagged => exact .bare rfl
  . intro p hmem
    simp only [List.mem_cons, List.not_mem_nil, or_false] at hmem
    rcases hmem with rfl | rfl | rfl | rfl
    . exact .unit rfl
    . exact .struct_map (lawful_internal _) fun _ => rfl
    . exact .struct_map (lawful_adjacent _) fun _ => rfl
    . exact .unit rfl

end Tagging

namespace TypeDecl

def bodyNesting : Body → Nat
  | .struct fields => (Json.array (fields.map Field.toJson)).nesting
  | .enum tagging variants =>
    max (Json.array (variants.map Variant.toJson)).nesting tagging.toJson.nesting
  | .typeAlias target => target.toJson.nesting

theorem nesting_toJson (decl : TypeDecl) : decl.toJson.nesting = bodyNesting decl.body + 2 := by
  obtain ⟨id, rename, body, doc, exported⟩ := decl
  cases body with
  | struct fields => simp [toJson, bodyNesting, Json.nesting, Json.nesting.ofMembers]
  | enum tagging variants => simp [toJson, bodyNesting, Json.nesting, Json.nesting.ofMembers]
  | typeAlias target => simp [toJson, bodyNesting, Json.nesting, Json.nesting.ofMembers]

theorem restores_toJson (budget : Nat) (decl : TypeDecl) :
    Restores budget (decode budget) decl.toJson decl := by
  obtain ⟨id, rename, body, doc, exported⟩ := decl
  cases body with
  | struct fields =>
    have h : Inscribed (budget - 2) (structSlots (budget - 2)) _ (blank (.struct []))
        ⟨id, rename, .struct fields, doc, exported⟩ :=
      .set (lawful_text _) id (.set (lawful_optional_text _) rename
        (.set (Field.lawful_decode _).list fields (.set (lawful_optional_text _) doc
          (.set (lawful_flag _) exported (.nil _)))))
    refine .payload rfl (h.restores ?_ _)
    show ["id", "rename", "fields", "doc", "exported"].Nodup
    decide
  | enum tagging variants =>
    have h : Inscribed (budget - 2) (enumSlots (budget - 2)) _ (blank (.enum .external []))
        ⟨id, rename, .enum tagging variants, doc, exported⟩ :=
      .set (lawful_text _) id (.set (lawful_optional_text _) rename
        (.set (Variant.lawful_decode _).list variants (.set (Tagging.lawful_decode _) tagging
          (.set (lawful_optional_text _) doc (.set (lawful_flag _) exported (.nil _))))))
    refine .payload rfl (h.restores ?_ _)
    show ["id", "rename", "variants", "repr", "doc", "exported"].Nodup
    decide
  | typeAlias target =>
    have h : Inscribed (budget - 2) (aliasSlots (budget - 2)) _ (blank (.typeAlias default))
        ⟨id, rename, .typeAlias target, doc, exported⟩ :=
      .set (lawful_text _) id (.set (lawful_optional_text _) rename
        (.set (TypeRef.lawful_decode _) target (.set (lawful_optional_text _) doc
          (.set (lawful_flag _) exported (.nil _)))))
    refine .payload rfl (h.restores ?_ _)
    show ["id", "rename", "target", "doc", "exported"].Nodup
    decide

theorem bodyNesting_setVariants_le {budget : Nat} (variants : List Variant) (decl : TypeDecl)
    (hvariants : (Json.array (variants.map Variant.toJson)).nesting ≤ budget)
    (hbody : bodyNesting decl.body ≤ budget) :
    bodyNesting (setVariants variants decl).body ≤ budget := by
  unfold setVariants
  split
  . next tagging _ heq =>
    rw [heq, bodyNesting] at hbody
    rw [withBody, bodyNesting]
    omega
  . exact hbody

theorem bodyNesting_setTagging_le {budget : Nat} (tagging : Tagging) (decl : TypeDecl)
    (htagging : tagging.toJson.nesting ≤ budget) (hbody : bodyNesting decl.body ≤ budget) :
    bodyNesting (setTagging tagging decl).body ≤ budget := by
  unfold setTagging
  split
  . next _ variants heq =>
    rw [heq, bodyNesting] at hbody
    rw [withBody, bodyNesting]
    omega
  . exact hbody

theorem lawful_decode {budget : Nat} (h : 3 ≤ budget) :
    Lawful budget (decode budget) toJson := by
  apply Lawful.oneOf (restores_toJson budget)
  intro p hmem
  simp only [List.mem_cons, List.not_mem_nil, or_false] at hmem
  rcases hmem with rfl | rfl | rfl
  . refine .newtype fun _ hok => ?_
    have hbody := record_settled hok none (bodyNesting ·.body ≤ budget - 2)
      (.keep (by decide) (fun _ _ h => h) <|
        .keep (by decide) (fun _ _ h => h) <|
        .give (Field.lawful_decode _).list (fun _ _ h => h) <|
        .keep (by decide) (fun _ _ h => h) <|
        .keep (by decide) (fun _ _ h => h) .nil)
      (.inl (show 1 ≤ budget - 2 by omega))
    rw [nesting_toJson]
    omega
  . refine .newtype fun _ hok => ?_
    have hbody := record_settled hok none (bodyNesting ·.body ≤ budget - 2)
      (.keep (by decide) (fun _ _ h => h) <|
        .keep (by decide) (fun _ _ h => h) <|
        .change (Variant.lawful_decode _).list (by decide) bodyNesting_setVariants_le <|
        .change (Tagging.lawful_decode _) (by decide) bodyNesting_setTagging_le <|
        .keep (by decide) (fun _ _ h => h) <|
        .keep (by decide) (fun _ _ h => h) .nil)
      (.inl (show 1 ≤ budget - 2 by omega))
    rw [nesting_toJson]
    omega
  . refine .newtype fun _ hok => ?_
    have hbody := record_settled hok "target" (bodyNesting ·.body ≤ budget - 2)
      (.keep (by decide) (fun _ _ h => h) <|
        .keep (by decide) (fun _ _ h => h) <|
        .give (TypeRef.lawful_decode _) (fun _ _ h => h) <|
        .keep (by decide) (fun _ _ h => h) <|
        .keep (by decide) (fun _ _ h => h) .nil)
      (.inr ⟨_, .tail _ (.tail _ (.head _)), rfl, rfl, List.not_mem_nil⟩)
    rw [nesting_toJson]
    omega

end TypeDecl

theorem Ownership.lawful_decode (budget : Nat) :
    Lawful budget (Ownership.decode budget) fun ownership => .string ownership.name := by
  apply Lawful.oneOf
  . intro ownership
    cases ownership <;> exact .bare rfl
  . intro p hmem
    simp only [List.mem_cons, List.not_mem_nil, or_false] at hmem
    rcases hmem with rfl | rfl <;> exact .unit rfl

theorem Synchrony.lawful_decode (budget : Nat) :
    Lawful budget (Synchrony.decode budget) fun synchrony => .string synchrony.name := by
  apply Lawful.oneOf
  . intro synchrony
    cases synchrony <;> exact .bare rfl
  . intro p hmem
    simp only [List.mem_cons, List.not_mem_nil, or_false] at hmem
    rcases hmem with rfl | rfl <;> exact .unit rfl

theorem Param.lawful_decode (budget : Nat) :
    Lawful budget (Param.decode budget) Param.toJson := by
  refine Lawful.record ?_ ?_ ?_
  . show ["name", "type", "ownership"].Nodup
    decide
  . intro param
    exact .set (lawful_text _) param.name (.set (TypeRef.lawful_decode _) param.type
      (.set (Ownership.lawful_decode _) param.ownership (.nil _)))
  . intro r param hok
    have htype := record_settled hok "type" (·.type.toJson.nesting ≤ budget - 1)
      (.keep (by decide) (fun _ _ h => h) <|
        .give (TypeRef.lawful_decode _) (fun _ _ h => h) <|
        .keep (by decide) (fun _ _ h => h) .nil)
      (.inr ⟨_, .tail _ (.head _), rfl, rfl, List.not_mem_nil⟩)
    simp [htype]

namespace FunctionDecl

theorem lawful_decodeResult (budget : Nat) :
    Lawful budget (decodeResult budget) resultToJson := by
  apply Lawful.oneOf
  . intro result
    cases result with
    | none => exact .bare rfl
    | some type => exact .payload rfl (((TypeRef.lawful_decode _).restores type).map some)
  . intro p hmem
    simp only [List.mem_cons, List.not_mem_nil, or_false] at hmem
    rcases hmem with rfl | rfl
    . exact .unit rfl
    . exact .newtype_map (TypeRef.lawful_decode _) fun _ => rfl

theorem lawful_decode {budget : Nat} (h : 2 ≤ budget) :
    Lawful budget (decode budget) toJson := by
  refine Lawful.record ?_ ?_ ?_
  . show ["name", "params", "return", "synchrony", "doc"].Nodup
    decide
  . intro function
    exact .set (lawful_text _) function.name (.set (Param.lawful_decode _).list function.params
      (.set (lawful_decodeResult _) function.result
        (.set (Synchrony.lawful_decode _) function.synchrony
          (.set (lawful_optional_text _) function.doc (.nil _)))))
  . intro r function hok
    have hparams := record_settled hok none
      (fun function => (Json.array (function.params.map Param.toJson)).nesting ≤ budget - 1)
      (.keep (by decide) (fun _ _ h => h) <|
        .give (Param.lawful_decode _).list (fun _ _ h => h) <|
        .keep (by decide) (fun _ _ h => h) <|
        .keep (by decide) (fun _ _ h => h) <|
        .keep (by decide) (fun _ _ h => h) .nil)
      (.inl (show 1 ≤ budget - 1 by omega))
    have hresult := record_settled hok none
      (fun function => (resultToJson function.result).nesting ≤ budget - 1)
      (.keep (by decide) (fun _ _ h => h) <|
        .keep (by decide) (fun _ _ h => h) <|
        .give (lawful_decodeResult _) (fun _ _ h => h) <|
        .keep (by decide) (fun _ _ h => h) <|
        .keep (by decide) (fun _ _ h => h) .nil)
      (.inl (Nat.zero_le _))
    simp [hparams, hresult]

end FunctionDecl

namespace Description

theorem lawful_decode {budget : Nat} (h : 5 ≤ budget) :
    Lawful budget (decode budget) toJson := by
  have htypes := (TypeDecl.lawful_decode (show 3 ≤ budget - 2 by omega)).list
  have hfunctions := (FunctionDecl.lawful_decode (show 2 ≤ budget - 2 by omega)).list
  refine Lawful.record ?_ ?_ ?_
  . show ["types", "functions"].Nodup
    decide
  . intro description
    exact .set htypes description.types (.set hfunctions description.functions (.nil _))
  . intro r description hok
    have htypes := record_settled hok none
      (fun description => (Json.array (description.types.map TypeDecl.toJson)).nesting ≤ budget - 1)
      (.give htypes (fun _ _ h => h) (.keep (by decide) (fun _ _ h => h) .nil))
      (.inl (show 1 ≤ budget - 1 by omega))
    have hfunctions := record_settled hok none
      (fun description =>
        (Json.array (description.functions.map FunctionDecl.toJson)).nesting ≤ budget - 1)
      (.keep (by decide) (fun _ _ h => h) (.give hfunctions (fun _ _ h => h) .nil))
      (.inl (show 1 ≤ budget - 1 by omega))
    simp [htypes, hfunctions]

end Description

end Bindings
