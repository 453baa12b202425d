import Bindings.Json.Decoder
import Bindings.Json.Value
import Bindings.TypeRef

/-!
This module contains the JSON form of type references.
-/

namespace Bindings

open Json (Decoder)
open Json.Decoder (Slot Alternative)

namespace Scalar

def toJson (kind : Scalar) : Json :=
  .string kind.name

def decode (budget : Nat) : Decoder Scalar :=
  Decoder.oneOf budget (all.map fun kind => (kind.name, .unit kind))

end Scalar

namespace TypeRef

def toJson : TypeRef → Json
  | scalar kind => .object [("Primitive", kind.toJson)]
  | named id => .object [("Named", .string id)]
  | vector element => .object [("Vector", element.toJson)]
  | option inner => .object [("Option", inner.toJson)]
  | tuple elements => .object [("Tuple", .array (go elements))]
  | map key value => .object [("Map", .object [("key", key.toJson), ("value", value.toJson)])]
where
  go : List TypeRef → List Json
    | [] => []
    | element :: elements => element.toJson :: go elements

def mapSlots (decode : Decoder TypeRef) : List (Slot (TypeRef × TypeRef)) :=
  [.required "key" decode fun key pair => (key, pair.2),
    .required "value" decode fun value pair => (pair.1, value)]

/--
The forms of a reference whose payloads have a budget, by a decoder for types as payloads and one
for types inside payloads.
-/
def alternatives (budget : Nat) (payload inside : Decoder TypeRef) :
    List (String × Alternative TypeRef) :=
  [("Primitive", .newtype fun r => scalar <$> Scalar.decode budget r),
    ("Named", .newtype fun r => named <$> Decoder.text r),
    ("Vector", .newtype fun r => vector <$> payload r),
    ("Option", .newtype fun r => option <$> payload r),
    ("Tuple", .newtype fun r => tuple <$> Decoder.list budget inside r),
    ("Map", .struct fun r =>
      (fun pair => map pair.1 pair.2) <$>
        Decoder.record "struct variant TypeRef::Map" budget default (mapSlots inside) r)]

def decode : Nat → Decoder TypeRef
  | 0 => Decoder.oneOf 0 (alternatives 0 unread unread)
  | 1 => Decoder.oneOf 1 (alternatives 0 (decode 0) unread)
  | budget + 2 =>
    Decoder.oneOf (budget + 2) (alternatives (budget + 1) (decode (budget + 1)) (decode budget))
where
  unread : Decoder TypeRef := fun _ => .error .unreadable

end TypeRef

end Bindings
