import Bindings.Native.ItemMeaning
import Bindings.Proofs.Native.TypeParts

/-!
This module contains which types of an item are part of what is declared for it: a declaration
mentions whatever their meanings mention.
-/

namespace Bindings.Native

theorem TypeExpr.meaning_of_meaningAt {type : TypeExpr} {site : Site} {reference : TypeRef}
    (h : type.meaningAt site = .ok reference) : type.meaning = .ok reference := by
  unfold meaningAt at h
  cases hmeaning : type.meaning with
  | error refusal =>
    rw [hmeaning] at h
    cases h
  | ok meaning =>
    rw [hmeaning] at h
    cases h
    rfl

def Skipped (attributes : List Attribute) : Prop :=
  ∃ directives, Directives.read attributes = .ok directives ∧ directives.skip = true

namespace FieldItem

theorem exists_of_meaning {field : FieldItem} {owner : String} {rule : Option RenameRule}
    {index : Nat} {declared? : Option Field} (h : field.meaning owner rule index = .ok declared?)
    (hskip : ¬ Skipped field.attributes) :
    ∃ declared, declared? = some declared ∧ field.type.meaning = .ok declared.type := by
  unfold meaning at h
  obtain ⟨directives, hdirectives, hfield⟩ := exists_of_bind_eq_ok h
  have hkept : directives.skip = false :=
    Bool.eq_false_iff.2 fun htrue => hskip ⟨directives, hdirectives, htrue⟩
  rw [hkept, if_neg Bool.false_ne_true] at hfield
  obtain ⟨type, htype, hdeclared⟩ := exists_of_bind_eq_ok hfield
  cases hdeclared
  exact ⟨_, rfl, TypeExpr.meaning_of_meaningAt htype⟩

theorem mem_of_meanings {fields : List FieldItem} {owner : String} {rule : Option RenameRule}
    {index : Nat} {declared : List Field} (h : meanings owner rule index fields = .ok declared)
    {field : FieldItem} (hmem : field ∈ fields) (hskip : ¬ Skipped field.attributes) :
    ∃ type ∈ declared.map (·.type), field.type.meaning = .ok type := by
  induction fields generalizing index declared with
  | nil => cases hmem
  | cons first fields ih =>
    rw [meanings] at h
    obtain ⟨first?, hfirst, hrest⟩ := exists_of_bind_eq_ok h
    obtain ⟨rest, hmeanings, hdeclared⟩ := exists_of_bind_eq_ok hrest
    cases hdeclared
    rw [List.map_append]
    cases hmem with
    | head =>
      obtain ⟨found, rfl, htype⟩ := exists_of_meaning hfirst hskip
      exact ⟨found.type, List.mem_append_left _ List.mem_cons_self, htype⟩
    | tail _ hmem =>
      obtain ⟨type, htype, hmeaning⟩ := ih hmeanings hmem
      exact ⟨type, List.mem_append_right _ htype, hmeaning⟩

theorem mem_of_types {fields : List FieldItem} {site : Site} {references : List TypeRef}
    (h : types site fields = .ok references) {field : FieldItem} (hmem : field ∈ fields) :
    ∃ type ∈ references, field.type.meaning = .ok type := by
  induction fields generalizing references with
  | nil => cases hmem
  | cons first fields ih =>
    rw [types, List.mapM_cons] at h
    obtain ⟨reference, hfirst, hrest⟩ := exists_of_bind_eq_ok h
    obtain ⟨rest, htypes, hreferences⟩ := exists_of_bind_eq_ok hrest
    cases hreferences
    cases hmem with
    | head => exact ⟨reference, List.mem_cons_self, TypeExpr.meaning_of_meaningAt hfirst⟩
    | tail _ hmem =>
      obtain ⟨type, htype, hmeaning⟩ := ih htypes hmem
      exact ⟨type, List.mem_cons_of_mem _ htype, hmeaning⟩

end FieldItem

/--
A type stands among fields and is not skipped. Fields that have no names cannot be skipped.
-/
inductive FieldItems.Exposes : FieldItems → TypeExpr → Prop
  | tuple {fields : List FieldItem} {field : FieldItem} (hmem : field ∈ fields) :
    Exposes (.tuple fields) field.type
  | named {fields : List FieldItem} {field : FieldItem} (hmem : field ∈ fields)
    (hskip : ¬ Skipped field.attributes) : Exposes (.named fields) field.type

namespace VariantItem

theorem mem_of_payload {owner ownName : String} {index : Nat} {rule : Option RenameRule}
    {fields : FieldItems} {declared : Payload}
    (h : payload owner ownName index rule fields = .ok declared) {type : TypeExpr}
    (hexposes : fields.Exposes type) :
    ∃ reference ∈ declared.types, type.meaning = .ok reference := by
  cases hexposes with
  | tuple hmem =>
    rw [payload] at h
    obtain ⟨references, hreferences, hdeclared⟩ := exists_of_bind_eq_ok h
    have htypes : declared.types = references := by
      split at hdeclared
      . cases hdeclared
        rfl
      . cases hdeclared
        rfl
    rw [htypes]
    exact FieldItem.mem_of_types hreferences hmem
  | named hmem hskip =>
    rw [payload] at h
    obtain ⟨fields, hfields, rfl⟩ := exists_of_map_eq_ok h
    exact FieldItem.mem_of_meanings hfields hmem hskip

theorem exists_of_meaning {variant : VariantItem} {owner : String} {rule : Option RenameRule}
    {index : Nat} {declared? : Option Variant}
    (h : variant.meaning owner rule index = .ok declared?) (hskip : ¬ Skipped variant.attributes)
    {type : TypeExpr} (hexposes : variant.fields.Exposes type) :
    ∃ declared, declared? = some declared
      ∧ ∃ reference ∈ declared.payload.types, type.meaning = .ok reference := by
  unfold meaning at h
  obtain ⟨directives, hdirectives, hvariant⟩ := exists_of_bind_eq_ok h
  have hkept : directives.skip = false :=
    Bool.eq_false_iff.2 fun htrue => hskip ⟨directives, hdirectives, htrue⟩
  rw [hkept, if_neg Bool.false_ne_true] at hvariant
  obtain ⟨payload, hpayload, hdeclared⟩ := exists_of_bind_eq_ok hvariant
  cases hdeclared
  exact ⟨_, rfl, mem_of_payload hpayload hexposes⟩

theorem mem_of_meanings {variants : List VariantItem} {owner : String} {rule : Option RenameRule}
    {index : Nat} {declared : List Variant} (h : meanings owner rule index variants = .ok declared)
    {variant : VariantItem} (hmem : variant ∈ variants) (hskip : ¬ Skipped variant.attributes)
    {type : TypeExpr} (hexposes : variant.fields.Exposes type) :
    ∃ found ∈ declared, ∃ reference ∈ found.payload.types, type.meaning = .ok reference := by
  induction variants generalizing index declared with
  | nil => cases hmem
  | cons first variants ih =>
    rw [meanings] at h
    obtain ⟨first?, hfirst, hrest⟩ := exists_of_bind_eq_ok h
    obtain ⟨rest, hmeanings, hdeclared⟩ := exists_of_bind_eq_ok hrest
    cases hdeclared
    cases hmem with
    | head =>
      obtain ⟨found, rfl, hfound⟩ := exists_of_meaning hfirst hskip hexposes
      exact ⟨found, List.mem_append_left _ List.mem_cons_self, hfound⟩
    | tail _ hmem =>
      obtain ⟨found, hfound, htype⟩ := ih hmeanings hmem
      exact ⟨found, List.mem_append_right _ hfound, htype⟩

end VariantItem

/--
A type has a meaning, and references mention whatever it mentions.
-/
def TypeExpr.IsMentionedIn (type : TypeExpr) (references : List TypeRef) : Prop :=
  ∃ reference, type.meaning = .ok reference
    ∧ ∀ id, reference.Mentions id → ∃ whole ∈ references, whole.Mentions id

theorem TypeExpr.IsMentionedIn.of_mem {type : TypeExpr} {references : List TypeRef}
    (h : ∃ reference ∈ references, type.meaning = .ok reference) :
    type.IsMentionedIn references := by
  obtain ⟨reference, hmem, hmeaning⟩ := h
  exact ⟨reference, hmeaning, fun id hid => ⟨reference, hmem, hid⟩⟩

namespace TypeItemHead

variable {head : TypeItemHead} {position : Nat} {decl : TypeDecl} {type : TypeExpr}

theorem structMeaning_spec {fields : FieldItems}
    (h : head.structMeaning position fields = .ok decl) :
    decl.id = head.id ∧ ∀ type, fields.Exposes type → type.IsMentionedIn decl.body.types := by
  unfold structMeaning at h
  obtain ⟨directives, -, h⟩ := exists_of_bind_eq_ok h
  cases fields with
  | tuple fields =>
    obtain ⟨_, -, h⟩ := exists_of_bind_eq_ok h
    obtain ⟨references, hreferences, h⟩ := exists_of_bind_eq_ok h
    split at h
    . cases h
      refine ⟨rfl, ?_⟩
      rintro type (hmem | _)
      exact .of_mem (FieldItem.mem_of_types hreferences hmem)
    . cases h
      refine ⟨rfl, ?_⟩
      rintro type (hmem | _)
      obtain ⟨reference, hreference, hmeaning⟩ := FieldItem.mem_of_types hreferences hmem
      exact ⟨reference, hmeaning, fun id hid =>
        ⟨.tuple references, List.mem_singleton_self _, .tuple hreference hid⟩⟩
  | named fields =>
    obtain ⟨_, -, h⟩ := exists_of_bind_eq_ok h
    obtain ⟨declared, hdeclared, h⟩ := exists_of_bind_eq_ok h
    cases h
    refine ⟨rfl, ?_⟩
    rintro type (_ | ⟨hmem, hskip⟩)
    exact .of_mem (FieldItem.mem_of_meanings hdeclared hmem hskip)
  | unit =>
    obtain ⟨_, -, h⟩ := exists_of_bind_eq_ok h
    cases h
    refine ⟨rfl, ?_⟩
    rintro type ⟨⟩

theorem enumMeaning_spec {variants : List VariantItem}
    (h : head.enumMeaning position variants = .ok decl) :
    decl.id = head.id ∧ ∀ variant ∈ variants, ¬ Skipped variant.attributes →
      ∀ type, variant.fields.Exposes type → type.IsMentionedIn decl.body.types := by
  unfold enumMeaning at h
  obtain ⟨_, -, h⟩ := exists_of_bind_eq_ok h
  obtain ⟨directives, -, h⟩ := exists_of_bind_eq_ok h
  split at h
  . cases h
  . obtain ⟨declared, hdeclared, h⟩ := exists_of_bind_eq_ok h
    cases h
    refine ⟨rfl, fun variant hmem hskip type hexposes => ?_⟩
    obtain ⟨found, hfound, reference, hreference, hmeaning⟩ :=
      VariantItem.mem_of_meanings hdeclared hmem hskip hexposes
    exact .of_mem ⟨reference, List.mem_flatMap.2 ⟨found, hfound, hreference⟩, hmeaning⟩

theorem aliasMeaning_spec (h : head.aliasMeaning position type = .ok decl) :
    decl.id = head.id ∧ type.IsMentionedIn decl.body.types := by
  unfold aliasMeaning at h
  obtain ⟨_, -, h⟩ := exists_of_bind_eq_ok h
  obtain ⟨reference, hreference, h⟩ := exists_of_bind_eq_ok h
  cases h
  exact ⟨rfl, .of_mem
    ⟨reference, List.mem_singleton_self _, TypeExpr.meaning_of_meaningAt hreference⟩⟩

end TypeItemHead

namespace FunctionItem

variable {function : FunctionItem} {position index : Nat} {type : TypeExpr}

theorem meaning_of_param {name : Option String} {declared : Param}
    (h : function.param position index (.typed name type) = .ok declared) :
    type.meaning = .ok declared.type := by
  cases name with
  | none => cases h
  | some name =>
    unfold param at h
    dsimp only at h
    split at h
    . obtain ⟨reference, hreference, h⟩ := exists_of_bind_eq_ok h
      cases h
      rw [TypeExpr.meaning]
      exact TypeExpr.meaning_of_meaningAt hreference
    . obtain ⟨reference, hreference, h⟩ := exists_of_bind_eq_ok h
      cases h
      exact TypeExpr.meaning_of_meaningAt hreference

theorem mem_of_params {inputs : List InputItem} {declared : List Param}
    (h : function.params position index inputs = .ok declared) {name : Option String}
    (hmem : .typed name type ∈ inputs) :
    ∃ reference ∈ declared.map (·.type), type.meaning = .ok reference := by
  induction inputs generalizing index declared with
  | nil => cases hmem
  | cons input inputs ih =>
    rw [params] at h
    obtain ⟨first, hfirst, h⟩ := exists_of_bind_eq_ok h
    obtain ⟨rest, hrest, h⟩ := exists_of_bind_eq_ok h
    cases h
    cases hmem with
    | head => exact ⟨first.type, List.mem_cons_self, meaning_of_param hfirst⟩
    | tail _ hmem =>
      obtain ⟨reference, hreference, hmeaning⟩ := ih hrest hmem
      exact ⟨reference, List.mem_cons_of_mem _ hreference, hmeaning⟩

theorem isMentionedIn_of_result {declared : Option TypeRef} (h : function.result = .ok declared)
    (houtput : function.output = some type) : type.IsMentionedIn declared.toList := by
  unfold result at h
  rw [houtput] at h
  obtain ⟨reference, hreference, h⟩ := exists_of_bind_eq_ok h
  refine ⟨reference, TypeExpr.meaning_of_meaningAt hreference, fun id hid => ?_⟩
  split at h
  . cases hid with
    | tuple hmem => cases hmem
  . cases h
    exact ⟨reference, List.mem_singleton_self _, hid⟩

theorem meaning_spec {declared : FunctionDecl} (h : function.meaning position = .ok declared) :
    function.params position 0 function.inputs = .ok declared.params
      ∧ function.result = .ok declared.result := by
  unfold meaning at h
  obtain ⟨_, -, h⟩ := exists_of_bind_eq_ok h
  obtain ⟨params, hparams, h⟩ := exists_of_bind_eq_ok h
  obtain ⟨result, hresult, h⟩ := exists_of_bind_eq_ok h
  cases h
  exact ⟨hparams, hresult⟩

end FunctionItem

namespace Item

def head? : Item → Option TypeItemHead
  | struct head _ | enum head _ | typeAlias head _ => some head
  | function _ | module _ | other => none

def declaration? (item : Item) (position : Nat) : Option (Except Fault TypeDecl) :=
  match item with
  | struct head fields => some (head.structMeaning position fields)
  | enum head variants => some (head.enumMeaning position variants)
  | typeAlias head target => some (head.aliasMeaning position target)
  | function _ | module _ | other => none

def DeclaredAs (item : Item) (d : Description) (decl : TypeDecl) (position : Nat) : Prop :=
  item.declaration? position = some (.ok decl) ∧ d.types[position]? = some decl

inductive Makes (d : Description) : Item → List Reference → Prop
  | function {function : FunctionItem} {position : Nat} {declared : FunctionDecl}
    (hmeaning : function.meaning position = .ok declared)
    (hmem : d.functions[position]? = some declared) :
    Makes d (.function function) declared.references
  | type {item : Item} {decl : TypeDecl} {position : Nat} (h : item.DeclaredAs d decl position) :
    Makes d item (decl.references position)

/--
A type stands in an item where it is part of what is declared: in the signature of a public
function, in a field or a variant that is not skipped, or as a target.
-/
inductive Exposes : Item → TypeExpr → Prop
  | param {function : FunctionItem} {name : Option String} {type : TypeExpr}
    (hpublic : function.visibility.isPublic = true) (hmem : .typed name type ∈ function.inputs) :
    Exposes (.function function) type
  | result {function : FunctionItem} {type : TypeExpr}
    (hpublic : function.visibility.isPublic = true) (houtput : function.output = some type) :
    Exposes (.function function) type
  | field {head : TypeItemHead} {fields : FieldItems} {type : TypeExpr}
    (hfields : fields.Exposes type) : Exposes (.struct head fields) type
  | variant {head : TypeItemHead} {variants : List VariantItem} {variant : VariantItem}
    {type : TypeExpr} (hmem : variant ∈ variants) (hskip : ¬ Skipped variant.attributes)
    (hfields : variant.fields.Exposes type) : Exposes (.enum head variants) type
  | target {head : TypeItemHead} {target : TypeExpr} : Exposes (.typeAlias head target) target

theorem DeclaredAs.id_eq {item : Item} {d : Description} {decl : TypeDecl} {position : Nat}
    (h : item.DeclaredAs d decl position) {head : TypeItemHead} (hhead : item.head? = some head) :
    decl.id = head.id := by
  obtain ⟨hmeaning, -⟩ := h
  cases item with
  | struct other fields =>
    cases hhead
    exact (TypeItemHead.structMeaning_spec (Option.some.inj hmeaning)).1
  | enum other variants =>
    cases hhead
    exact (TypeItemHead.enumMeaning_spec (Option.some.inj hmeaning)).1
  | typeAlias other target =>
    cases hhead
    exact (TypeItemHead.aliasMeaning_spec (Option.some.inj hmeaning)).1
  | function => cases hhead
  | module => cases hhead
  | other => cases hhead

theorem Makes.isMentionedIn {item : Item} {d : Description} {references : List Reference}
    (h : item.Makes d references) {type : TypeExpr} (hexposes : item.Exposes type) :
    type.IsMentionedIn (references.map (·.1)) := by
  cases h with
  | @function function position declared hmeaning hmem =>
    obtain ⟨hparams, hresult⟩ := FunctionItem.meaning_spec hmeaning
    rw [FunctionDecl.map_fst_references]
    cases hexposes with
    | param _ hmem =>
      obtain ⟨reference, hreference, hmeaning⟩ := FunctionItem.mem_of_params hparams hmem
      exact .of_mem ⟨reference, List.mem_append_left _ hreference, hmeaning⟩
    | result _ houtput =>
      obtain ⟨reference, hmeaning, hmentions⟩ :=
        FunctionItem.isMentionedIn_of_result hresult houtput
      refine ⟨reference, hmeaning, fun id hid => ?_⟩
      obtain ⟨whole, hwhole, hid⟩ := hmentions id hid
      exact ⟨whole, List.mem_append_right _ hwhole, hid⟩
  | @type _ decl position h =>
    rw [TypeDecl.map_fst_references]
    have hmeaning := h.1
    cases hexposes with
    | param => cases hmeaning
    | result => cases hmeaning
    | field hfields =>
      exact (TypeItemHead.structMeaning_spec (Option.some.inj hmeaning)).2 _ hfields
    | variant hmem hskip hfields =>
      exact (TypeItemHead.enumMeaning_spec (Option.some.inj hmeaning)).2 _ hmem hskip _ hfields
    | target => exact (TypeItemHead.aliasMeaning_spec (Option.some.inj hmeaning)).2

end Item

end Bindings.Native
