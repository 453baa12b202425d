import Bindings.Proofs.Generation
import Bindings.Proofs.Validity

/-!
This module contains which declarations are well formed on their own, said without the places that
messages point at. Validation accepts exactly these, wherever they stand in a description.
-/

namespace Bindings

namespace Identifier

variable {c : Char} {name : String}

def Leading (c : Char) : Prop :=
  'A' ≤ c ∧ c ≤ 'Z' ∨ 'a' ≤ c ∧ c ≤ 'z' ∨ c = '_' ∨ c = '$'

def Unquoted (name : String) : Prop :=
  ∃ first rest, name.toList = first :: rest ∧ Leading first ∧
    ∀ c ∈ rest, Leading c ∨ '0' ≤ c ∧ c ≤ '9'

structure Declarable (name : String) : Prop where
  unquoted : Unquoted name
  not_mem : name ∉ ["await", "break", "case", "catch", "class", "const", "continue", "debugger",
    "default", "delete", "do", "else", "enum", "export", "extends", "false", "finally", "for",
    "function", "if", "implements", "import", "in", "instanceof", "interface", "let", "new",
    "null", "package", "private", "protected", "public", "return", "static", "super", "switch",
    "this", "throw", "true", "try", "typeof", "var", "void", "while", "with", "yield"]

theorem isStart_iff : isStart c = true ↔ Leading c := by
  unfold isStart Char.isAlpha Char.isUpper Char.isLower Leading
  simp only [Bool.or_eq_true, Bool.and_eq_true, decide_eq_true_eq, beq_iff_eq, ge_iff_le,
    Char.le_def, or_assoc]

theorem isContinue_iff : isContinue c = true ↔ Leading c ∨ '0' ≤ c ∧ c ≤ '9' := by
  have hsplit : isContinue c = (isStart c || c.isDigit) := by
    unfold isContinue isStart Char.isAlphanum
    ac_rfl
  rw [hsplit, Bool.or_eq_true, isStart_iff]
  unfold Char.isDigit
  simp only [Bool.and_eq_true, decide_eq_true_eq, ge_iff_le, Char.le_def]

theorem isIdentifier_iff : isIdentifier name = true ↔ Unquoted name := by
  unfold isIdentifier Unquoted
  cases name.toList with
  | nil => simp
  | cons first rest =>
    simp only [Bool.and_eq_true, List.all_eq_true, isStart_iff, isContinue_iff]
    constructor
    . rintro ⟨hfirst, hrest⟩
      exact ⟨first, rest, rfl, hfirst, hrest⟩
    . rintro ⟨_, _, ⟨⟩, hfirst, hrest⟩
      exact ⟨hfirst, hrest⟩

theorem declarable_iff : Declarable name ↔ isIdentifier name = true ∧ isReserved name = false := by
  have hreserved : isReserved name = false ↔ name ∉ reservedWords := by
    simp only [isReserved, ← Bool.not_eq_true, List.contains_iff_mem]
  rw [isIdentifier_iff, hreserved]
  constructor
  . intro h
    exact ⟨h.unquoted, h.not_mem⟩
  . rintro ⟨hunquoted, hmem⟩
    exact ⟨hunquoted, hmem⟩

theorem Declarable.isIdentifier (h : Declarable name) : isIdentifier name = true :=
  (declarable_iff.1 h).1

instance : Decidable (Declarable name) :=
  decidable_of_iff' _ declarable_iff

end Identifier

theorem checkIdentifier_eq_ok_iff {name : String} {site : Site} :
    checkIdentifier name site = .ok () ↔ Identifier.Declarable name := by
  have hempty : name.isEmpty = true → Identifier.isIdentifier name = false := by
    intro h
    rw [String.isEmpty_iff] at h
    subst h
    decide
  rw [Identifier.declarable_iff]
  unfold checkIdentifier
  split
  . next h => simp [hempty h]
  . split
    . next h =>
      rw [Bool.not_eq_true'] at h
      simp [h]
    . next h =>
      rw [Bool.not_eq_true', Bool.not_eq_false] at h
      split
      . next hreserved => simp [hreserved]
      . next hreserved => simp [h, hreserved]

namespace Obligation

def name? : Obligation → Option String
  | passes _ => none
  | claims name _ => some name

@[simp]
theorem name?_passes (outcome : Except Fault Unit) : (passes outcome).name? = none := rfl

@[simp]
theorem name?_claims (name : String) (site : Site) : (claims name site).name? = some name := rfl

@[simp]
theorem name?_require (condition : Bool) (site : Site) (reason : Malformation) :
    (require condition site reason).name? = none := rfl

@[simp]
theorem passes_eq_require_iff {condition : Bool} {site : Site} {reason : Malformation}
    {outcome : Except Fault Unit} :
    passes outcome = require condition site reason
      ↔ outcome = if condition then .ok () else .error (.malformed ⟨site, reason⟩) := by
  simp [require]

end Obligation

theorem checkScope.go_eq_ok_iff {claimed : List (String × Site)} {obligations : List Obligation} :
    go claimed obligations = .ok ()
      ↔ (∀ outcome, .passes outcome ∈ obligations → outcome = .ok ())
        ∧ (obligations.filterMap Obligation.name?).Nodup
        ∧ ∀ name ∈ obligations.filterMap Obligation.name?, name ∉ claimed.map (·.1) := by
  induction obligations generalizing claimed with
  | nil => simp [go]
  | cons obligation obligations ih =>
    cases obligation with
    | passes outcome =>
      cases outcome with
      | error fault => simp [go]
      | ok => simp [go, ih, List.filterMap_cons]
    | claims name site =>
      rw [go]
      cases hlookup : claimed.lookup name with
      | some first =>
        have hclaimed : name ∈ claimed.map (·.1) := by
          by_contra hnone
          rw [lookup_eq_none_iff_not_mem.2 hnone] at hlookup
          cases hlookup
        simp only [reduceCtorEq, false_iff]
        intro h
        apply h.2.2 name _ hclaimed
        simp
      | none =>
        have hfresh := lookup_eq_none_iff_not_mem.1 hlookup
        simp only [ih, List.mem_cons, reduceCtorEq, false_or, List.map_cons,
          List.filterMap_cons, Obligation.name?, List.nodup_cons]
        grind

theorem checkScope_eq_ok_iff {obligations : List Obligation} :
    checkScope obligations = .ok ()
      ↔ (∀ outcome, .passes outcome ∈ obligations → outcome = .ok ())
        ∧ (obligations.filterMap Obligation.name?).Nodup := by
  simp [checkScope, checkScope.go_eq_ok_iff]

theorem checkScope_members_eq_ok_iff {obligations : Nat → α → List Obligation}
    {p : α → Prop} {names : α → List String} (members : List α)
    (hpasses : ∀ index member,
      (∀ outcome, .passes outcome ∈ obligations index member → outcome = .ok ()) ↔ p member)
    (hnames : ∀ index member,
      (obligations index member).filterMap Obligation.name? = names member) :
    checkScope (members.mapIdx obligations).flatten = .ok ()
      ↔ (∀ member ∈ members, p member) ∧ (members.flatMap names).Nodup := by
  have hall : (∀ outcome, .passes outcome ∈ (members.mapIdx obligations).flatten → outcome = .ok ())
      ↔ ∀ member ∈ members, p member := by
    simp only [List.mem_flatten, List.mem_mapIdx]
    constructor
    . intro h member hmem
      obtain ⟨index, hlt, heq⟩ := List.mem_iff_getElem.1 hmem
      apply (hpasses index member).1
      intro outcome hpass
      apply h
      exact ⟨_, ⟨index, hlt, rfl⟩, by rw [heq]; exact hpass⟩
    . rintro h outcome ⟨_, ⟨index, hlt, rfl⟩, hpass⟩
      exact (hpasses index _).2 (h _ (List.getElem_mem hlt)) outcome hpass
  have hclaimed : (members.mapIdx obligations).flatten.filterMap Obligation.name?
      = members.flatMap names := by
    rw [List.filterMap_flatten, List.flatMap_def]
    congr 1
    apply List.ext_getElem
    . simp
    . simp [hnames]
  rw [checkScope_eq_ok_iff, hall, hclaimed]

def propertyNames (fields : List Field) : List String :=
  (fields.filter (!·.flatten)).map (·.name)

structure Field.WellFormed (field : Field) : Prop where
  name : field.name ≠ ""
  flattenable : field.flatten = true → field.type.isFlattenable = true

structure WellFormedFields (fields : List Field) : Prop where
  each : ∀ field ∈ fields, field.WellFormed
  nodup : (propertyNames fields).Nodup

theorem Field.passes_obligations_iff (owner : String) (index : Nat) (field : Field) :
    (∀ outcome, .passes outcome ∈ field.obligations owner index → outcome = .ok ())
      ↔ field.WellFormed := by
  have hand : (∀ outcome, .passes outcome ∈ field.obligations owner index → outcome = .ok ())
      ↔ field.name ≠ "" ∧ (field.flatten = true → field.type.isFlattenable = true) := by
    unfold obligations
    cases field.flatten <;> simp
  rw [hand]
  constructor
  . rintro ⟨hname, hflattenable⟩
    exact ⟨hname, hflattenable⟩
  . intro h
    exact ⟨h.name, h.flattenable⟩

theorem flatMap_names_eq_propertyNames (fields : List Field) :
    fields.flatMap (fun field => if field.flatten then [] else [field.name])
      = propertyNames fields := by
  unfold propertyNames
  induction fields with
  | nil => rfl
  | cons field fields ih => cases hflatten : field.flatten <;> simp [hflatten, ih]

theorem checkFields_eq_ok_iff {owner : String} {fields : List Field} :
    checkFields owner fields = .ok () ↔ WellFormedFields fields := by
  have hnames : ∀ index (field : Field), (field.obligations owner index).filterMap Obligation.name?
      = if field.flatten then [] else [field.name] := by
    intro index field
    unfold Field.obligations
    cases field.flatten <;> simp [List.filterMap_cons]
  unfold checkFields
  rw [checkScope_members_eq_ok_iff fields (Field.passes_obligations_iff owner) hnames,
    flatMap_names_eq_propertyNames]
  constructor
  . rintro ⟨heach, hnodup⟩
    exact ⟨heach, hnodup⟩
  . intro h
    exact ⟨h.each, h.nodup⟩

namespace Tagging

def WellFormed : Tagging → Prop
  | external | untagged => True
  | internal tag => tag ≠ ""
  | adjacent tag content => tag ≠ "" ∧ content ≠ "" ∧ tag ≠ content

def Admits : Tagging → Payload → Prop
  | internal _, .tuple _ => False
  | internal tag, .struct fields => tag ∉ propertyNames fields
  | _, _ => True

theorem validate_eq_ok_iff {tagging : Tagging} {site : Site} :
    tagging.validate site = .ok () ↔ tagging.WellFormed := by
  cases tagging with
  | external => simp [validate, WellFormed]
  | internal tag => simp [validate, WellFormed]
  | adjacent tag content =>
    simp only [validate, WellFormed, String.isEmpty_iff, Bool.or_eq_true, beq_iff_eq]
    grind
  | untagged => simp [validate, WellFormed]

theorem admits_eq_ok_iff {tagging : Tagging} {payload : Payload} {site : Site} :
    tagging.admits payload site = .ok () ↔ tagging.Admits payload := by
  cases tagging with
  | internal tag =>
    cases payload with
    | struct fields =>
      simp only [admits, Admits, propertyNames]
      grind
    | unit => simp [admits, Admits]
    | newtype type => simp [admits, Admits]
    | tuple elements => simp [admits, Admits]
  | external => simp [admits, Admits]
  | adjacent tag content => simp [admits, Admits]
  | untagged => simp [admits, Admits]

end Tagging

def Payload.WellFormed : Payload → Prop
  | struct fields => WellFormedFields fields
  | _ => True

theorem Payload.validate_eq_ok_iff {payload : Payload} {owner : String} :
    payload.validate owner = .ok () ↔ payload.WellFormed := by
  cases payload with
  | struct fields => exact checkFields_eq_ok_iff
  | unit => simp [validate, WellFormed]
  | newtype type => simp [validate, WellFormed]
  | tuple elements => simp [validate, WellFormed]

structure Variant.WellFormed (tagging : Tagging) (variant : Variant) : Prop where
  name : variant.name ≠ ""
  admitted : tagging.Admits variant.payload
  payload : variant.payload.WellFormed

theorem Variant.passes_obligations_iff (owner : String) (tagging : Tagging) (index : Nat)
    (variant : Variant) :
    (∀ outcome, .passes outcome ∈ variant.obligations owner tagging index → outcome = .ok ())
      ↔ variant.WellFormed tagging := by
  unfold obligations
  simp only [List.mem_cons, Obligation.passes_eq_require_iff, Obligation.passes.injEq, reduceCtorEq,
    false_or, List.not_mem_nil, or_false, forall_eq_or_imp, forall_eq, Tagging.admits_eq_ok_iff,
    Payload.validate_eq_ok_iff]
  constructor
  . rintro ⟨hname, hadmitted, hpayload⟩
    refine ⟨?_, hadmitted, hpayload⟩
    simpa using hname
  . intro h
    refine ⟨?_, h.admitted, h.payload⟩
    simpa using h.name

def Body.WellFormed : Body → Prop
  | struct fields => WellFormedFields fields
  | enum tagging variants =>
    tagging.WellFormed ∧ (∀ variant ∈ variants, variant.WellFormed tagging)
      ∧ (variants.map (·.name)).Nodup
  | typeAlias _ => True

theorem checkVariants_eq_ok_iff {owner : String} {tagging : Tagging} {variants : List Variant} :
    checkScope (variants.mapIdx (Variant.obligations owner tagging)).flatten = .ok ()
      ↔ (∀ variant ∈ variants, variant.WellFormed tagging) ∧ (variants.map (·.name)).Nodup := by
  have hnames : ∀ index (variant : Variant),
      (variant.obligations owner tagging index).filterMap Obligation.name? = [variant.name] := by
    intro index variant
    simp [Variant.obligations, List.filterMap_cons]
  rw [checkScope_members_eq_ok_iff variants (Variant.passes_obligations_iff owner tagging) hnames,
    ← List.map_eq_flatMap]

structure TypeDecl.WellFormed (decl : TypeDecl) : Prop where
  id : Identifier.Declarable decl.id
  declaredName : Identifier.Declarable decl.declaredName
  body : decl.body.WellFormed

theorem bind_eq_ok_iff {x : Except ε Unit} {f : Unit → Except ε α} {a : α} :
    (x >>= f) = .ok a ↔ x = .ok () ∧ f () = .ok a := by
  cases x with
  | error => simp [bind, Except.bind]
  | ok => simp [bind, Except.bind]

theorem TypeDecl.validate_eq_ok_iff {decl : TypeDecl} {position : Nat} :
    decl.validate position = .ok () ↔ decl.WellFormed := by
  have hbody : (match decl.body with
      | .struct fields => checkFields decl.id fields
      | .enum tagging variants => do
        tagging.validate (decl.site position)
        checkScope (variants.mapIdx (Variant.obligations decl.id tagging)).flatten
      | .typeAlias _ => .ok ()) = .ok () ↔ decl.body.WellFormed := by
    cases decl.body with
    | struct fields => exact checkFields_eq_ok_iff
    | enum tagging variants =>
      simp only [bind_eq_ok_iff, Tagging.validate_eq_ok_iff, checkVariants_eq_ok_iff,
        Body.WellFormed]
    | typeAlias target => simp [Body.WellFormed]
  unfold validate
  simp only [bind_eq_ok_iff, checkIdentifier_eq_ok_iff]
  by_cases hsame : decl.declaredName = decl.id
  . -- The identifier is the declared name, so it is checked once.
    simp only [hsame, bne_self_eq_false, Bool.false_eq_true, if_false]
    constructor
    . rintro ⟨hid, hrules⟩
      exact ⟨hid, by rw [hsame]; exact hid, hbody.1 hrules⟩
    . intro h
      exact ⟨h.id, hbody.2 h.body⟩
  . simp only [bne_iff_ne.2 hsame, if_true, bind_eq_ok_iff, checkIdentifier_eq_ok_iff]
    constructor
    . rintro ⟨hid, hname, hrules⟩
      exact ⟨hid, hname, hbody.1 hrules⟩
    . intro h
      exact ⟨h.id, h.declaredName, hbody.2 h.body⟩

structure FunctionDecl.WellFormed (function : FunctionDecl) : Prop where
  name : Identifier.Declarable function.name
  params : ∀ param ∈ function.params, Identifier.Declarable param.name
  nodup : (function.params.map (·.name)).Nodup

theorem FunctionDecl.validate_eq_ok_iff {function : FunctionDecl} {position : Nat} :
    function.validate position = .ok () ↔ function.WellFormed := by
  have hparams : checkScope (function.params.mapIdx (Param.obligations function.name)).flatten
      = .ok () ↔ (∀ param ∈ function.params, Identifier.Declarable param.name)
        ∧ (function.params.map (·.name)).Nodup := by
    have hpasses : ∀ index (param : Param),
        (∀ outcome, .passes outcome ∈ param.obligations function.name index → outcome = .ok ())
          ↔ Identifier.Declarable param.name := by
      intro index param
      simp [Param.obligations, checkIdentifier_eq_ok_iff]
    have hnames : ∀ index (param : Param),
        (param.obligations function.name index).filterMap Obligation.name? = [param.name] := by
      intro index param
      simp [Param.obligations, List.filterMap_cons]
    rw [checkScope_members_eq_ok_iff function.params hpasses hnames, ← List.map_eq_flatMap]
  unfold validate
  simp only [bind_eq_ok_iff, checkIdentifier_eq_ok_iff, hparams]
  constructor
  . rintro ⟨hname, heach, hnodup⟩
    exact ⟨hname, heach, hnodup⟩
  . intro h
    exact ⟨h.name, h.params, h.nodup⟩

theorem Description.validate_eq_ok_iff_wellFormed {d : Description} :
    d.validate = .ok ()
      ↔ (∀ decl ∈ d.types, decl.WellFormed) ∧ ∀ function ∈ d.functions, function.WellFormed := by
  rw [validate_eq_ok_iff]
  constructor
  . intro h
    constructor
    . intro decl hmem
      obtain ⟨position, hdecl⟩ := List.mem_iff_getElem?.1 hmem
      exact TypeDecl.validate_eq_ok_iff.1 (h.types position decl hdecl)
    . intro function hmem
      obtain ⟨position, hfunction⟩ := List.mem_iff_getElem?.1 hmem
      exact FunctionDecl.validate_eq_ok_iff.1 (h.functions position function hfunction)
  . rintro ⟨htypes, hfunctions⟩
    constructor
    . intro position decl hdecl
      apply TypeDecl.validate_eq_ok_iff.2
      exact htypes decl (List.mem_of_getElem? hdecl)
    . intro position function hfunction
      apply FunctionDecl.validate_eq_ok_iff.2
      exact hfunctions function (List.mem_of_getElem? hfunction)

end Bindings
