import Bindings.Proofs.WellFormed

/-!
This module contains the replacement of the identifiers that a description refers to by others. It
changes what is mentioned in the expected way and nothing that validation looks at.
-/

namespace Bindings

namespace TypeRef

def mapIds (s : String → String) : TypeRef → TypeRef
  | scalar kind => scalar kind
  | named id => named (s id)
  | vector element => vector (element.mapIds s)
  | option inner => option (inner.mapIds s)
  | tuple elements => tuple (go elements)
  | map key value => map (key.mapIds s) (value.mapIds s)
where
  go : List TypeRef → List TypeRef
    | [] => []
    | element :: elements => element.mapIds s :: go elements

variable (s : String → String)

theorem mapIds.go_eq_map (elements : List TypeRef) : go s elements = elements.map (mapIds s) := by
  induction elements with
  | nil => rfl
  | cons element elements ih => rw [go, ih, List.map_cons]

theorem mapIds_id : (type : TypeRef) → type.mapIds id = type
  | scalar kind => by rw [mapIds]
  | named name => by rw [mapIds, id]
  | vector element => by rw [mapIds, mapIds_id element]
  | option inner => by rw [mapIds, mapIds_id inner]
  | tuple elements => by
    have helements : elements.map (mapIds id) = elements.map id := by
      apply List.map_congr_left
      intro element hmem
      exact mapIds_id element
    rw [mapIds, mapIds.go_eq_map, helements, List.map_id]
  | map key value => by rw [mapIds, mapIds_id key, mapIds_id value]

theorem names_mapIds : (type : TypeRef) → (type.mapIds s).names = type.names.map s
  | scalar kind => by simp [mapIds, names]
  | named name => by simp [mapIds, names]
  | vector element => by simp [mapIds, names, names_mapIds element]
  | option inner => by simp [mapIds, names, names_mapIds inner]
  | tuple elements => by
    have helements : elements.flatMap (fun element => (element.mapIds s).names)
        = elements.flatMap fun element => element.names.map s := by
      apply List.flatMap_congr
      intro element hmem
      exact names_mapIds element
    simp only [mapIds, names, mapIds.go_eq_map, names.go_eq_flatMap, List.flatMap_map, helements,
      List.map_flatMap]
  | map key value => by simp [mapIds, names, names_mapIds key, names_mapIds value]

@[simp]
theorem isOption_mapIds (type : TypeRef) : (type.mapIds s).isOption = type.isOption := by
  cases type <;> simp [mapIds, isOption]

@[simp]
theorem isFlattenable_mapIds (type : TypeRef) :
    (type.mapIds s).isFlattenable = type.isFlattenable := by
  cases type with
  | option inner => cases inner <;> simp [mapIds, isFlattenable]
  | scalar kind => simp [mapIds, isFlattenable]
  | named id => simp [mapIds, isFlattenable]
  | vector element => simp [mapIds, isFlattenable]
  | tuple elements => simp [mapIds, isFlattenable]
  | map key value => simp [mapIds, isFlattenable]

end TypeRef

section MapIds

variable (s : String → String)

def Field.mapIds (field : Field) : Field :=
  { field with type := field.type.mapIds s }

def Payload.mapIds : Payload → Payload
  | unit => unit
  | newtype type => newtype (type.mapIds s)
  | tuple elements => tuple (elements.map (TypeRef.mapIds s))
  | struct fields => struct (fields.map (Field.mapIds s))

def Variant.mapIds (variant : Variant) : Variant :=
  { variant with payload := variant.payload.mapIds s }

def Body.mapIds : Body → Body
  | struct fields => struct (fields.map (Field.mapIds s))
  | enum tagging variants => enum tagging (variants.map (Variant.mapIds s))
  | typeAlias target => typeAlias (target.mapIds s)

/--
The declaration under a new identifier. It keeps its name in the artifact.
-/
def TypeDecl.mapIds (decl : TypeDecl) : TypeDecl :=
  { decl with
    id := s decl.id
    rename := some decl.declaredName
    body := decl.body.mapIds s }

def Param.mapIds (param : Param) : Param :=
  { param with type := param.type.mapIds s }

def FunctionDecl.mapIds (function : FunctionDecl) : FunctionDecl :=
  { function with
    params := function.params.map (Param.mapIds s)
    result := function.result.map (TypeRef.mapIds s) }

def Description.mapIds (d : Description) : Description where
  types := d.types.map (TypeDecl.mapIds s)
  functions := d.functions.map (FunctionDecl.mapIds s)

end MapIds

theorem Field.mapIds_id : Field.mapIds id = id := by
  funext field
  simp [Field.mapIds, TypeRef.mapIds_id]

theorem Payload.mapIds_id : Payload.mapIds id = id := by
  have htype : TypeRef.mapIds id = id := by
    funext type
    exact type.mapIds_id
  funext payload
  cases payload <;> simp [Payload.mapIds, htype, Field.mapIds_id]

theorem Variant.mapIds_id : Variant.mapIds id = id := by
  funext variant
  simp [Variant.mapIds, Payload.mapIds_id]

theorem Body.mapIds_id (body : Body) : body.mapIds id = body := by
  cases body <;>
    simp [Body.mapIds, Field.mapIds_id, Variant.mapIds_id, TypeRef.mapIds_id]

theorem FunctionDecl.mapIds_id : FunctionDecl.mapIds id = id := by
  have htype : TypeRef.mapIds id = id := by
    funext type
    exact type.mapIds_id
  have hparam : Param.mapIds id = id := by
    funext param
    simp [Param.mapIds, htype]
  funext function
  simp [FunctionDecl.mapIds, htype, hparam]

section Laws

variable (s : String → String)

theorem Payload.types_mapIds (payload : Payload) :
    (payload.mapIds s).types = payload.types.map (TypeRef.mapIds s) := by
  cases payload <;> simp [mapIds, types, Field.mapIds]

theorem Body.types_mapIds (body : Body) :
    (body.mapIds s).types = body.types.map (TypeRef.mapIds s) := by
  cases body <;>
    simp [mapIds, types, Field.mapIds, Variant.mapIds, Payload.types_mapIds, List.map_flatMap,
      List.flatMap_map]

theorem FunctionDecl.types_mapIds (function : FunctionDecl) :
    (function.mapIds s).references.map (·.1)
      = (function.references.map (·.1)).map (TypeRef.mapIds s) := by
  simp only [map_fst_references, mapIds, List.map_map, List.map_append]
  congr 1
  cases function.result <;> rfl

@[simp]
theorem propertyNames_mapIds (fields : List Field) :
    propertyNames (fields.map (Field.mapIds s)) = propertyNames fields := by
  simp [propertyNames, List.filter_map, Function.comp_def, Field.mapIds]

variable {s}

theorem WellFormedFields.mapIds {fields : List Field} (h : WellFormedFields fields) :
    WellFormedFields (fields.map (Field.mapIds s)) where
  each := by
    intro field hmem
    obtain ⟨other, hother, heq⟩ := List.mem_map.1 hmem
    subst heq
    have hfield := h.each other hother
    exact ⟨hfield.name, by simpa [Field.mapIds] using hfield.flattenable⟩
  nodup := by simpa using h.nodup

theorem Payload.WellFormed.mapIds {payload : Payload} (h : payload.WellFormed) :
    (payload.mapIds s).WellFormed := by
  cases payload with
  | struct fields => exact WellFormedFields.mapIds h
  | unit => trivial
  | newtype type => trivial
  | tuple elements => trivial

theorem Tagging.Admits.mapIds {tagging : Tagging} {payload : Payload}
    (h : tagging.Admits payload) : tagging.Admits (payload.mapIds s) := by
  cases tagging with
  | internal tag =>
    cases payload with
    | struct fields => simpa [Payload.mapIds, Admits] using h
    | unit => trivial
    | newtype type => trivial
    | tuple elements => exact h
  | external => trivial
  | adjacent tag content => trivial
  | untagged => trivial

theorem Body.WellFormed.mapIds {body : Body} (h : body.WellFormed) :
    (body.mapIds s).WellFormed := by
  cases body with
  | struct fields => exact WellFormedFields.mapIds h
  | enum tagging variants =>
    obtain ⟨htagging, heach, hnodup⟩ := h
    refine ⟨htagging, ?_, ?_⟩
    . intro variant hmem
      obtain ⟨other, hother, heq⟩ := List.mem_map.1 hmem
      subst heq
      have hvariant := heach other hother
      exact ⟨hvariant.name, hvariant.admitted.mapIds, hvariant.payload.mapIds⟩
    . simpa [Function.comp_def, Variant.mapIds] using hnodup
  | typeAlias target => trivial

theorem FunctionDecl.WellFormed.mapIds {function : FunctionDecl} (h : function.WellFormed) :
    (function.mapIds s).WellFormed where
  name := h.name
  params := by
    intro param hmem
    obtain ⟨other, hother, heq⟩ := List.mem_map.1 hmem
    subst heq
    exact h.params other hother
  nodup := by simpa [FunctionDecl.mapIds, Function.comp_def, Param.mapIds] using h.nodup

end Laws

structure TypeDecl.Renamed (s : String → String) (decl other : TypeDecl) : Prop where
  id : other.id = s decl.id
  declaredName : other.declaredName = decl.declaredName
  body : other.body = decl.body.mapIds s
  doc : other.doc = decl.doc
  exported : other.exported = decl.exported

theorem TypeDecl.renamed_refl (decl : TypeDecl) : decl.Renamed (fun id => id) decl where
  id := rfl
  declaredName := rfl
  body := (decl.body.mapIds_id).symm
  doc := rfl
  exported := rfl

theorem TypeDecl.renamed_mapIds (s : String → String) (decl : TypeDecl) :
    decl.Renamed s (decl.mapIds s) where
  id := rfl
  declaredName := rfl
  body := rfl
  doc := rfl
  exported := rfl

end Bindings
