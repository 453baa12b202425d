import Bindings.Codec.TypeRef
import Bindings.Proofs.Json.Record

/-!
This module contains that type references are decoded from what they are encoded to.
-/

namespace Bindings

open Json (Lawful Restores Fits record_settled)

theorem Scalar.lawful_decode (budget : Nat) :
    Lawful budget (Scalar.decode budget) Scalar.toJson := by
  apply Lawful.oneOf
  . intro kind
    apply Restores.bare
    cases kind <;> rfl
  . intro p hmem
    obtain ⟨kind, _, rfl⟩ := List.mem_map.1 hmem
    exact Fits.unit rfl

namespace TypeRef

@[simp]
theorem toJson.go_eq_map (elements : List TypeRef) : toJson.go elements = elements.map toJson := by
  induction elements with
  | nil => rfl
  | cons element elements ih => rw [go, ih, List.map_cons]

variable {budget : Nat} {payload inside : Json.Decoder TypeRef}

theorem lawful_map (h : Lawful (budget - 1) inside toJson) :
    Lawful budget
      (Json.Decoder.record "struct variant TypeRef::Map" budget default (mapSlots inside))
      fun pair => .object [("key", pair.1.toJson), ("value", pair.2.toJson)] := by
  refine Lawful.record ?_ ?_ ?_
  . show ["key", "value"].Nodup
    decide
  . intro pair
    exact .set h pair.1 (.set h pair.2 (.nil _))
  . intro r pair hok
    have hkey := record_settled hok "key" (·.1.toJson.nesting ≤ budget - 1)
      (.give h (fun _ _ h => h) (.keep (by decide) (fun _ _ h => h) .nil))
      (.inr ⟨_, .head _, rfl, rfl, List.not_mem_nil⟩)
    have hvalue := record_settled hok "value" (·.2.toJson.nesting ≤ budget - 1)
      (.keep (by decide) (fun _ _ h => h) (.give h (fun _ _ h => h) .nil))
      (.inr ⟨_, .tail _ (.head _), rfl, rfl, List.not_mem_nil⟩)
    simp [hkey, hvalue]

theorem lawful_alternatives (hpayload : Lawful (budget - 1) payload toJson)
    (hinside : Lawful (budget - 1 - 1) inside toJson) :
    Lawful budget
      (Json.Decoder.oneOf budget (alternatives (budget - 1) payload inside)) toJson := by
  apply Lawful.oneOf
  . intro type
    cases type with
    | scalar kind => exact .payload rfl (((Scalar.lawful_decode _).restores kind).map scalar)
    | named id => exact .payload rfl (((Json.lawful_text _).restores id).map named)
    | vector element => exact .payload rfl ((hpayload.restores element).map vector)
    | option inner => exact .payload rfl ((hpayload.restores inner).map option)
    | tuple elements =>
      rw [toJson, toJson.go_eq_map]
      exact .payload rfl ((hinside.list.restores elements).map tuple)
    | map key value => exact .payload rfl (((lawful_map hinside).restores (key, value)).map _)
  . intro p hmem
    simp only [alternatives, List.mem_cons, List.not_mem_nil, or_false] at hmem
    rcases hmem with rfl | rfl | rfl | rfl | rfl | rfl
    . exact .newtype_map (Scalar.lawful_decode _) fun _ => rfl
    . exact .newtype_map (Json.lawful_text _) fun _ => rfl
    . exact .newtype_map hpayload fun _ => rfl
    . exact .newtype_map hpayload fun _ => rfl
    . exact .newtype_map hinside.list fun elements => by rw [toJson, toJson.go_eq_map]
    . exact .struct_map (lawful_map hinside) fun _ => rfl

theorem toJson_nesting_pos (type : TypeRef) : 0 < type.toJson.nesting := by
  cases type <;> simp [toJson]

theorem lawful_unread : Lawful 0 decode.unread toJson where
  restores type := by
    constructor
    . intro hle
      have := type.toJson_nesting_pos
      omega
    . exact fun _ => rfl
  nesting_le := nofun

theorem lawful_decode (budget : Nat) : Lawful budget (decode budget) toJson := by
  -- The keys and values of a map are two brackets deeper than the map itself.
  induction budget using Nat.strongRecOn with
  | ind budget ih =>
    match budget with
    | 0 => exact lawful_alternatives lawful_unread lawful_unread
    | 1 => exact lawful_alternatives (ih 0 (by decide)) lawful_unread
    | budget + 2 =>
      exact lawful_alternatives (ih (budget + 1) (by omega)) (ih budget (by omega))

end TypeRef

end Bindings
