import Bindings.Codec.TypeRef
import Bindings.Declaration
import Bindings.Fault

/-!
This module contains the JSON form of descriptions.
-/

namespace Bindings

open Json (Decoder)
open Json.Decoder (Slot)

namespace Field

def toJson (field : Field) : Json :=
  .object [("name", .string field.name), ("type", field.type.toJson), ("doc", .ofOption field.doc),
    ("flatten", .bool field.flatten)]

def slots (budget : Nat) : List (Slot Field) :=
  [.required "name" Decoder.text fun name field => { field with name },
    .required "type" (TypeRef.decode budget) fun type field => { field with type },
    .defaulted "doc" (Decoder.optional Decoder.text) fun doc field => { field with doc },
    .defaulted "flatten" Decoder.flag fun flatten field => { field with flatten }]

def decode (budget : Nat) : Decoder Field :=
  Decoder.record "struct FieldDecl" budget ⟨"", default, none, false⟩ (slots (budget - 1))

end Field

namespace Payload

def toJson : Payload → Json
  | unit => .string "Unit"
  | newtype type => .object [("Newtype", type.toJson)]
  | tuple elements => .object [("Tuple", .array (elements.map TypeRef.toJson))]
  | struct fields => .object [("Struct", .array (fields.map Field.toJson))]

def decode (budget : Nat) : Decoder Payload :=
  Decoder.oneOf budget
    [("Unit", .unit unit),
      ("Newtype", .newtype fun r => newtype <$> TypeRef.decode (budget - 1) r),
      ("Tuple", .newtype fun r =>
        tuple <$> Decoder.list (budget - 1) (TypeRef.decode (budget - 2)) r),
      ("Struct", .newtype fun r =>
        struct <$> Decoder.list (budget - 1) (Field.decode (budget - 2)) r)]

end Payload

namespace Variant

def toJson (variant : Variant) : Json :=
  .object [("name", .string variant.name), ("shape", variant.payload.toJson),
    ("doc", .ofOption variant.doc)]

def slots (budget : Nat) : List (Slot Variant) :=
  [.required "name" Decoder.text fun name variant => { variant with name },
    .required "shape" (Payload.decode budget) fun payload variant => { variant with payload },
    .defaulted "doc" (Decoder.optional Decoder.text) fun doc variant => { variant with doc }]

def decode (budget : Nat) : Decoder Variant :=
  Decoder.record "struct VariantDecl" budget ⟨"", .unit, none⟩ (slots (budget - 1))

end Variant

namespace Tagging

def toJson : Tagging → Json
  | external => .string "External"
  | internal tag => .object [("Internal", .object [("tag", .string tag)])]
  | adjacent tag content =>
    .object [("Adjacent", .object [("tag", .string tag), ("content", .string content)])]
  | untagged => .string "Untagged"

def internalSlots : List (Slot String) :=
  [.required "tag" Decoder.text fun tag _ => tag]

def adjacentSlots : List (Slot (String × String)) :=
  [.required "tag" Decoder.text fun tag names => (tag, names.2),
    .required "content" Decoder.text fun content names => (names.1, content)]

def decode (budget : Nat) : Decoder Tagging :=
  Decoder.oneOf budget
    [("External", .unit external),
      ("Internal", .struct fun r =>
        internal <$>
          Decoder.record "struct variant EnumRepr::Internal" (budget - 1) "" internalSlots r),
      ("Adjacent", .struct fun r =>
        (fun names => adjacent names.1 names.2) <$>
          Decoder.record "struct variant EnumRepr::Adjacent" (budget - 1) ("", "")
            adjacentSlots r),
      ("Untagged", .unit untagged)]

end Tagging

namespace TypeDecl

def toJson (decl : TypeDecl) : Json :=
  let id : String × Json := ("id", .string decl.id)
  let rename : String × Json := ("rename", .ofOption decl.rename)
  let doc : String × Json := ("doc", .ofOption decl.doc)
  let exported : String × Json := ("exported", .bool decl.exported)
  match decl.body with
  | .struct fields =>
    .object [("Struct", .object
      [id, rename, ("fields", .array (fields.map Field.toJson)), doc, exported])]
  | .enum tagging variants =>
    .object [("Enum", .object
      [id, rename, ("variants", .array (variants.map Variant.toJson)), ("repr", tagging.toJson),
        doc, exported])]
  | .typeAlias target =>
    .object [("Alias", .object [id, rename, ("target", target.toJson), doc, exported])]

def withBody (body : Body) (decl : TypeDecl) : TypeDecl :=
  { decl with body }

def idSlot : Slot TypeDecl :=
  .required "id" Decoder.text fun id decl => { decl with id }

def renameSlot : Slot TypeDecl :=
  .defaulted "rename" (Decoder.optional Decoder.text) fun rename decl => { decl with rename }

def docSlot : Slot TypeDecl :=
  .defaulted "doc" (Decoder.optional Decoder.text) fun doc decl => { decl with doc }

def exportedSlot : Slot TypeDecl :=
  .defaulted "exported" Decoder.flag fun exported decl => { decl with exported }

def structSlots (budget : Nat) : List (Slot TypeDecl) :=
  [idSlot, renameSlot,
    .defaulted "fields" (Decoder.list budget (Field.decode (budget - 1))) fun fields =>
      withBody (.struct fields),
    docSlot, exportedSlot]

/--
The variants and the tagging of an enum come in any order.
-/
def setVariants (variants : List Variant) (decl : TypeDecl) : TypeDecl :=
  match decl.body with
  | .enum tagging _ => decl.withBody (.enum tagging variants)
  | _ => decl

def setTagging (tagging : Tagging) (decl : TypeDecl) : TypeDecl :=
  match decl.body with
  | .enum _ variants => decl.withBody (.enum tagging variants)
  | _ => decl

def enumSlots (budget : Nat) : List (Slot TypeDecl) :=
  [idSlot, renameSlot,
    .defaulted "variants" (Decoder.list budget (Variant.decode (budget - 1))) setVariants,
    .defaulted "repr" (Tagging.decode budget) setTagging,
    docSlot, exportedSlot]

def aliasSlots (budget : Nat) : List (Slot TypeDecl) :=
  [idSlot, renameSlot,
    .required "target" (TypeRef.decode budget) fun target => withBody (.typeAlias target),
    docSlot, exportedSlot]

def blank (body : Body) : TypeDecl :=
  { id := "", body }

def decode (budget : Nat) : Decoder TypeDecl :=
  Decoder.oneOf budget
    [("Struct", .newtype
        (Decoder.record "struct StructDecl" (budget - 1) (blank (.struct []))
          (structSlots (budget - 2)))),
      ("Enum", .newtype
        (Decoder.record "struct EnumDecl" (budget - 1) (blank (.enum .external []))
          (enumSlots (budget - 2)))),
      ("Alias", .newtype
        (Decoder.record "struct AliasDecl" (budget - 1) (blank (.typeAlias default))
          (aliasSlots (budget - 2))))]

end TypeDecl

namespace Ownership

def name : Ownership → String
  | owned => "Owned"
  | borrowed => "Borrowed"

def decode (budget : Nat) : Decoder Ownership :=
  Decoder.oneOf budget [("Owned", .unit owned), ("Borrowed", .unit borrowed)]

end Ownership

namespace Param

def toJson (param : Param) : Json :=
  .object [("name", .string param.name), ("type", param.type.toJson),
    ("ownership", .string param.ownership.name)]

def slots (budget : Nat) : List (Slot Param) :=
  [.required "name" Decoder.text fun name param => { param with name },
    .required "type" (TypeRef.decode budget) fun type param => { param with type },
    .defaulted "ownership" (Ownership.decode budget) fun ownership param =>
      { param with ownership }]

def decode (budget : Nat) : Decoder Param :=
  Decoder.record "struct ParamDecl" budget ⟨"", default, .owned⟩ (slots (budget - 1))

end Param

namespace Synchrony

def name : Synchrony → String
  | sync => "Sync"
  | async => "Async"

def decode (budget : Nat) : Decoder Synchrony :=
  Decoder.oneOf budget [("Sync", .unit sync), ("Async", .unit async)]

end Synchrony

namespace FunctionDecl

def resultToJson : Option TypeRef → Json
  | none => .string "Unit"
  | some type => .object [("Value", type.toJson)]

def decodeResult (budget : Nat) : Decoder (Option TypeRef) :=
  Decoder.oneOf budget
    [("Unit", .unit none), ("Value", .newtype fun r => some <$> TypeRef.decode (budget - 1) r)]

def toJson (function : FunctionDecl) : Json :=
  .object [("name", .string function.name), ("params", .array (function.params.map Param.toJson)),
    ("return", resultToJson function.result), ("synchrony", .string function.synchrony.name),
    ("doc", .ofOption function.doc)]

def slots (budget : Nat) : List (Slot FunctionDecl) :=
  [.required "name" Decoder.text fun name function => { function with name },
    .defaulted "params" (Decoder.list budget (Param.decode (budget - 1))) fun params function =>
      { function with params },
    .defaulted "return" (decodeResult budget) fun result function => { function with result },
    .defaulted "synchrony" (Synchrony.decode budget) fun synchrony function =>
      { function with synchrony },
    .defaulted "doc" (Decoder.optional Decoder.text) fun doc function => { function with doc }]

def decode (budget : Nat) : Decoder FunctionDecl :=
  Decoder.record "struct FunctionDecl" budget { name := "" } (slots (budget - 1))

end FunctionDecl

namespace Description

def toJson (description : Description) : Json :=
  .object [("types", .array (description.types.map TypeDecl.toJson)),
    ("functions", .array (description.functions.map FunctionDecl.toJson))]

def slots (budget : Nat) : List (Slot Description) :=
  [.defaulted "types" (Decoder.list budget (TypeDecl.decode (budget - 1))) fun types description =>
      { description with types },
    .defaulted "functions" (Decoder.list budget (FunctionDecl.decode (budget - 1)))
      fun functions description => { description with functions }]

def decode (budget : Nat) : Decoder Description :=
  Decoder.record "struct NativeDescription" budget {} (slots (budget - 1))

def ofText (text : String) : Except Fault Description :=
  ((decode Json.bracketBudget).run text).mapError .description

def toText (description : Description) : String :=
  description.toJson.pretty

end Description

end Bindings
