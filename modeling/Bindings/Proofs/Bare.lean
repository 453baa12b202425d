import Bindings.Proofs.Acceptance
import Bindings.Proofs.Walk.Embedding

/-!
This module contains changes to declarations that no stage before the texts can tell, and the two
that matter: leaving documentation out and taking every parameter as owned.
-/

namespace Bindings

theorem mapIdx_map_of_same {f : α → α} {g : Nat → α → β} (h : ∀ index a, g index (f a) = g index a)
    (elements : List α) : (elements.map f).mapIdx g = elements.mapIdx g := by
  apply List.ext_getElem
  . simp
  . simp [h]

theorem checkEach.go_map_of_same {check : α → Nat → Except Fault Unit} {f : α → α}
    (h : ∀ a position, check (f a) position = check a position) (elements : List α)
    (position : Nat) : go check position (elements.map f) = go check position elements := by
  induction elements generalizing position with
  | nil => rfl
  | cons element elements ih =>
    rw [List.map_cons]
    unfold go
    rw [h]
    simp only [ih]

theorem checkEach_map_of_same {check : α → Nat → Except Fault Unit} {f : α → α}
    (h : ∀ a position, check (f a) position = check a position) (elements : List α) :
    checkEach check (elements.map f) = checkEach check elements :=
  checkEach.go_map_of_same h elements 0

/--
Changes to types and to functions that are seen neither by validation nor by resolving.
-/
structure Cosmetic (onType : TypeDecl → TypeDecl) (onFunction : FunctionDecl → FunctionDecl) :
    Prop where
  type_id : ∀ decl, (onType decl).id = decl.id
  type_declaredName : ∀ decl, (onType decl).declaredName = decl.declaredName
  type_exported : ∀ decl, (onType decl).exported = decl.exported
  type_site : ∀ decl position, (onType decl).site position = decl.site position
  type_references : ∀ decl position, (onType decl).references position = decl.references position
  type_validate : ∀ decl position, (onType decl).validate position = decl.validate position
  function_name : ∀ function, (onFunction function).name = function.name
  function_references : ∀ function, (onFunction function).references = function.references
  function_validate : ∀ function position,
    (onFunction function).validate position = function.validate position

def Description.map (onType : TypeDecl → TypeDecl) (onFunction : FunctionDecl → FunctionDecl)
    (d : Description) : Description where
  types := d.types.map onType
  functions := d.functions.map onFunction

namespace Cosmetic

variable {onType : TypeDecl → TypeDecl} {onFunction : FunctionDecl → FunctionDecl}
variable (h : Cosmetic onType onFunction)

include h

theorem validate_map (d : Description) : (d.map onType onFunction).validate = d.validate := by
  unfold Description.validate Description.map
  rw [checkEach_map_of_same h.type_validate, checkEach_map_of_same h.function_validate]

theorem idClaims_map (decls : List TypeDecl) :
    Universe.idClaims (decls.map onType) = Universe.idClaims decls := by
  apply mapIdx_map_of_same
  intro position decl
  rw [h.type_id, h.type_site]

def mapUniverse (u : Universe) : Universe where
  decls := u.decls.map onType
  nodup_ids := by
    rw [← Universe.map_fst_idClaims, h.idClaims_map, Universe.map_fst_idClaims]
    exact u.nodup_ids

theorem ofDecls_map_cases (decls : List TypeDecl) :
    (∃ u, Universe.ofDecls decls = .ok u
        ∧ Universe.ofDecls (decls.map onType) = .ok (h.mapUniverse u))
      ∨ ∃ fault, Universe.ofDecls decls = .error fault
        ∧ Universe.ofDecls (decls.map onType) = .error fault := by
  cases hdeclared : Universe.ofDecls decls with
  | error fault =>
    refine Or.inr ⟨fault, rfl, ?_⟩
    rw [Universe.ofDecls_eq_error_iff] at hdeclared ⊢
    rw [h.idClaims_map, hdeclared]
  | ok u =>
    refine Or.inl ⟨u, rfl, ?_⟩
    rw [Universe.ofDecls_eq_ok_iff, ← Universe.ofDecls_eq_ok_iff.1 hdeclared]
    rfl

def index (u : Universe) : u.Id → (h.mapUniverse u).Id :=
  Fin.cast (List.length_map onType).symm

theorem get_index (u : Universe) (i : u.Id) :
    (h.mapUniverse u).get (h.index u i) = onType (u.get i) := by
  simp [Universe.get, mapUniverse, index]

theorem lookup_mapUniverse (u : Universe) (name : String) :
    (h.mapUniverse u).lookup name = (u.lookup name).map (h.index u) := by
  have hid : ∀ i, ((h.mapUniverse u).get (h.index u i)).id = (u.get i).id := by
    intro i
    rw [get_index, h.type_id]
  cases hlookup : u.lookup name with
  | some i =>
    rw [Option.map_some, Universe.lookup_eq_some_iff, hid]
    exact Universe.lookup_eq_some_iff.1 hlookup
  | none =>
    rw [Option.map_none, Universe.lookup_eq_none_iff]
    intro j
    have hj := Universe.lookup_eq_none_iff.1 hlookup (Fin.cast (List.length_map onType) j)
    rw [← hid] at hj
    exact hj

theorem nameOf_mapUniverse (u : Universe) : (h.mapUniverse u).nameOf = u.nameOf := by
  funext name
  unfold Universe.nameOf
  rw [h.lookup_mapUniverse]
  cases u.lookup name with
  | some i =>
    dsimp only [Option.map_some]
    rw [h.get_index, h.type_declaredName]
  | none => rfl

def embedding (u : Universe) (functions : List FunctionDecl) :
    u.Embedding (fun name => name) Eq functions (functions.map onFunction) (h.mapUniverse u) where
  index := h.index u
  injective := by
    intro i j heq
    rw [Fin.ext_iff] at heq ⊢
    exact heq
  id_get i := by rw [h.get_index, h.type_id]
  references i := by
    have hsame : (h.mapUniverse u).references (h.index u i) = u.references i := by
      unfold Universe.references
      rw [h.get_index, h.type_references]
      rfl
    rw [hsame, List.forall₂_same]
    intro mention _
    exact ⟨rfl, rfl⟩
  roots := by
    have hsame : (functions.map onFunction).flatMap FunctionDecl.references
        = functions.flatMap FunctionDecl.references := by
      simp only [List.flatMap_map, h.function_references]
    rw [hsame, List.forall₂_same]
    intro mention _
    exact ⟨rfl, rfl⟩
  exported := by
    -- The positions are the same numbers, but below a length that is the same only by a proof.
    have hcast : ∀ m n, (heq : m = n) → List.finRange n = (List.finRange m).map (Fin.cast heq) := by
      rintro m _ rfl
      simp
    have hids : (h.mapUniverse u).ids = u.ids.map (h.index u) := hcast _ _ _
    rw [hids, List.filter_map]
    simp only [Function.comp_def, h.get_index, h.type_exported]
  undeclared name site _ hlookup := by rw [h.lookup_mapUniverse, hlookup, Option.map_none]

def mapResolution (r : Resolution u) : Resolution (h.mapUniverse u) where
  order := r.order.map (h.index u)
  functions := r.functions.map onFunction

theorem decls_mapResolution (r : Resolution u) :
    (h.mapResolution r).decls = r.decls.map onType := by
  simp only [Resolution.decls, mapResolution, List.map_map, Function.comp_def, h.get_index]

theorem nameClaims_mapResolution (r : Resolution u) :
    (h.mapResolution r).nameClaims = r.nameClaims := by
  unfold Resolution.nameClaims mapResolution
  congr 1
  . rw [List.map_map]
    apply List.map_congr_left
    intro i _
    have hsite : (h.mapUniverse u).site (h.index u i) = u.site i := by
      unfold Universe.site
      rw [h.get_index, h.type_site]
      rfl
    simp only [Function.comp_apply, h.get_index, h.type_declaredName, hsite]
  . apply mapIdx_map_of_same
    intro position function
    unfold FunctionDecl.site
    rw [h.function_name]

theorem resolve_map_cases (u : Universe) (functions : List FunctionDecl) :
    (∃ r, (Resolution.resolve u functions).result = .ok r
        ∧ (Resolution.resolve (h.mapUniverse u) (functions.map onFunction)).result
          = .ok (h.mapResolution r)
        ∧ (h.mapResolution r).check = r.check)
      ∨ ∃ fault, (Resolution.resolve u functions).result = .error fault
        ∧ (Resolution.resolve (h.mapUniverse u) (functions.map onFunction)).result
          = .error fault := by
  rcases Resolution.resolve_embedding_cases (h.embedding u functions)
    with ⟨r, hresolved, hother⟩ | ⟨unresolved, unresolved', herror, hother, hid, hsite⟩
  . have hresolved' : (Resolution.resolve (h.mapUniverse u) (functions.map onFunction)).result
        = .ok (h.mapResolution r) := by
      unfold mapResolution
      rw [hother, Resolution.functions_of_resolve hresolved]
      rfl
    refine Or.inl ⟨r, hresolved, hresolved', ?_⟩
    rw [Resolution.check_of_resolve hresolved, Resolution.check_of_resolve hresolved',
      h.nameClaims_mapResolution]
  . have hsame : unresolved' = unresolved := by
      cases unresolved
      cases unresolved'
      dsimp only at hid hsite
      rw [hid, hsite]
    rw [hsame] at hother
    exact Or.inr ⟨_, herror, hother⟩

theorem generate_cases (d : Description) :
    (∃ fault, ∀ o, (d.generate o).result = .error fault
        ∧ ((d.map onType onFunction).generate o).result = .error fault)
      ∨ ∃ u, ∃ r : Resolution u, d.Accepted u r
        ∧ (d.map onType onFunction).Accepted (h.mapUniverse u) (h.mapResolution r) := by
  simp only [Description.generate_result, h.validate_map]
  cases hvalid : d.validate with
  | error fault => exact Or.inl ⟨fault, fun o => ⟨rfl, rfl⟩⟩
  | ok =>
    rcases h.ofDecls_map_cases d.types with ⟨u, hdeclared, hdeclared'⟩ | ⟨fault, herror, herror'⟩
    . rcases h.resolve_map_cases u d.functions
        with ⟨r, hresolved, hresolved', hchecked⟩ | ⟨fault, herror, herror'⟩
      . cases hcheck : r.check with
        | error fault =>
          refine Or.inl ⟨fault, fun o => ?_⟩
          rw [hcheck] at hchecked
          simp only [Description.map, hdeclared, hdeclared', Except.bind, hresolved, hresolved',
            hcheck, hchecked]
          exact ⟨trivial, trivial⟩
        | ok =>
          rw [hcheck] at hchecked
          have hvalid' := h.validate_map d
          rw [hvalid] at hvalid'
          exact Or.inr ⟨u, r, ⟨hvalid, hdeclared, hresolved, hcheck⟩,
            ⟨hvalid', hdeclared', hresolved', hchecked⟩⟩
      . refine Or.inl ⟨fault, fun o => ?_⟩
        simp only [Description.map, hdeclared, hdeclared', Except.bind, herror, herror']
        exact ⟨trivial, trivial⟩
    . refine Or.inl ⟨fault, fun o => ?_⟩
      simp only [Description.map, herror, herror', Except.bind]
      exact ⟨trivial, trivial⟩

end Cosmetic

def Field.bare (field : Field) : Field :=
  { field with doc := none }

def Payload.bare : Payload → Payload
  | unit => unit
  | newtype type => newtype type
  | tuple elements => tuple elements
  | struct fields => struct (fields.map Field.bare)

def Variant.bare (variant : Variant) : Variant :=
  { variant with payload := variant.payload.bare, doc := none }

def Body.bare : Body → Body
  | struct fields => struct (fields.map Field.bare)
  | enum tagging variants => enum tagging (variants.map Variant.bare)
  | typeAlias target => typeAlias target

def TypeDecl.bare (decl : TypeDecl) : TypeDecl :=
  { decl with body := decl.body.bare, doc := none }

def Param.owned (param : Param) : Param :=
  { param with ownership := .owned }

def FunctionDecl.owned (function : FunctionDecl) : FunctionDecl :=
  { function with params := function.params.map Param.owned }

def FunctionDecl.bare (function : FunctionDecl) : FunctionDecl :=
  { function.owned with doc := none }

namespace Description

def owned (d : Description) : Description :=
  d.map (fun decl => decl) FunctionDecl.owned

def bare (d : Description) : Description :=
  d.map TypeDecl.bare FunctionDecl.bare

end Description

def Options.bare (o : Options) : Options :=
  { o with jsdoc := false }

theorem Payload.types_bare (payload : Payload) : payload.bare.types = payload.types := by
  cases payload with
  | struct fields => simp [bare, types, Field.bare]
  | unit => rfl
  | newtype type => rfl
  | tuple elements => rfl

theorem checkFields_bare (owner : String) (fields : List Field) :
    checkFields owner (fields.map Field.bare) = checkFields owner fields := by
  unfold checkFields
  rw [mapIdx_map_of_same]
  intro index field
  rfl

theorem Payload.validate_bare (payload : Payload) (owner : String) :
    payload.bare.validate owner = payload.validate owner := by
  cases payload with
  | struct fields => exact checkFields_bare owner fields
  | unit => rfl
  | newtype type => rfl
  | tuple elements => rfl

theorem Tagging.admits_bare (tagging : Tagging) (payload : Payload) (site : Site) :
    tagging.admits payload.bare site = tagging.admits payload site := by
  cases payload with
  | struct fields =>
    cases tagging with
    | internal tag => simp [Payload.bare, admits, Field.bare]
    | external => rfl
    | adjacent tag content => rfl
    | untagged => rfl
  | unit => rfl
  | newtype type => rfl
  | tuple elements => rfl

theorem Variant.obligations_bare (owner : String) (tagging : Tagging) (index : Nat)
    (variant : Variant) :
    variant.bare.obligations owner tagging index = variant.obligations owner tagging index := by
  unfold obligations bare
  dsimp only
  rw [Tagging.admits_bare, Payload.validate_bare]

theorem TypeDecl.site_bare (decl : TypeDecl) (position : Nat) :
    decl.bare.site position = decl.site position := by
  unfold site kind bare
  cases decl.body <;> rfl

theorem TypeDecl.references_bare (decl : TypeDecl) (position : Nat) :
    decl.bare.references position = decl.references position := by
  obtain ⟨id, rename, body, doc, exported⟩ := decl
  unfold references bare
  cases body with
  | struct fields =>
    dsimp only [Body.bare]
    apply mapIdx_map_of_same
    intro index field
    rfl
  | enum tagging variants =>
    dsimp only [Body.bare]
    congr 1
    apply mapIdx_map_of_same
    intro index variant
    simp only [Variant.bare, Payload.types_bare]
  | typeAlias target => rfl

theorem TypeDecl.validate_bare (decl : TypeDecl) (position : Nat) :
    decl.bare.validate position = decl.validate position := by
  unfold validate
  rw [decl.site_bare]
  obtain ⟨id, rename, body, doc, exported⟩ := decl
  cases body with
  | struct fields =>
    dsimp only [bare, Body.bare]
    rw [checkFields_bare]
    rfl
  | enum tagging variants =>
    dsimp only [bare, Body.bare]
    rw [mapIdx_map_of_same (Variant.obligations_bare id tagging)]
    rfl
  | typeAlias target => rfl

namespace FunctionDecl

theorem references_owned (function : FunctionDecl) :
    function.owned.references = function.references := by
  unfold references owned
  rw [mapIdx_map_of_same]
  intro index param
  rfl

theorem validate_owned (function : FunctionDecl) (position : Nat) :
    function.owned.validate position = function.validate position := by
  unfold validate owned
  rw [mapIdx_map_of_same]
  . rfl
  . intro index param
    rfl

end FunctionDecl

theorem cosmetic_owned : Cosmetic (fun decl => decl) FunctionDecl.owned where
  type_id _ := rfl
  type_declaredName _ := rfl
  type_exported _ := rfl
  type_site _ _ := rfl
  type_references _ _ := rfl
  type_validate _ _ := rfl
  function_name _ := rfl
  function_references := FunctionDecl.references_owned
  function_validate := FunctionDecl.validate_owned

theorem cosmetic_bare : Cosmetic TypeDecl.bare FunctionDecl.bare where
  type_id _ := rfl
  type_declaredName _ := rfl
  type_exported _ := rfl
  type_site := TypeDecl.site_bare
  type_references := TypeDecl.references_bare
  type_validate := TypeDecl.validate_bare
  function_name _ := rfl
  function_references := FunctionDecl.references_owned
  function_validate := FunctionDecl.validate_owned

end Bindings
