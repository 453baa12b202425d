import Bindings.Proofs.Native.Accounting

/-!
This module contains that skipped fields and variants have no part in what is declared: they can be
anything, or be left out. Fields without names are never skipped, since their attributes are not
looked at.
-/

namespace Bindings.Native

/--
One field is another one as far as it is looked at: it may have any type if it is skipped.
-/
inductive FieldItem.Alike : FieldItem → FieldItem → Prop
  | same (field : FieldItem) : Alike field field
  | skipped {field : FieldItem} (type : TypeExpr) (hskip : Skipped field.attributes) :
    Alike field { field with type }

inductive FieldItems.Alike : FieldItems → FieldItems → Prop
  | unit : Alike .unit .unit
  | named {fields fields' : List FieldItem} (h : List.Forall₂ FieldItem.Alike fields fields') :
    Alike (.named fields) (.named fields')
  | tuple {fields fields' : List FieldItem} (h : fields'.map (·.type) = fields.map (·.type)) :
    Alike (.tuple fields) (.tuple fields')

inductive VariantItem.Alike : VariantItem → VariantItem → Prop
  | kept {variant : VariantItem} {fields : FieldItems} (h : variant.fields.Alike fields) :
    Alike variant { variant with fields }
  | skipped {variant : VariantItem} (fields : FieldItems) (hskip : Skipped variant.attributes) :
    Alike variant { variant with fields }

inductive Item.Alike : Item → Item → Prop
  | same (item : Item) : Alike item item
  | struct (head : TypeItemHead) {fields fields' : FieldItems} (h : fields.Alike fields') :
    Alike (.struct head fields) (.struct head fields')
  | enum (head : TypeItemHead) {variants variants' : List VariantItem}
    (h : List.Forall₂ VariantItem.Alike variants variants') :
    Alike (.enum head variants) (.enum head variants')

namespace FieldItem

variable {owner : String} {rule : Option RenameRule} {index : Nat}

theorem meaning_of_skipped {field : FieldItem} (h : Skipped field.attributes) :
    field.meaning owner rule index = .ok none := by
  obtain ⟨directives, hdirectives, hskip⟩ := h
  unfold meaning
  rw [hdirectives]
  show (if directives.skip = true then _ else _) = _
  rw [if_pos hskip]
  rfl

theorem Alike.meaning_eq {field field' : FieldItem} (h : field.Alike field') :
    field'.meaning owner rule index = field.meaning owner rule index := by
  cases h with
  | same => rfl
  | skipped type hskip =>
    rw [meaning_of_skipped hskip]
    exact meaning_of_skipped hskip

theorem meanings_eq_of_alike {fields fields' : List FieldItem}
    (h : List.Forall₂ Alike fields fields') :
    meanings owner rule index fields' = meanings owner rule index fields := by
  induction h generalizing index with
  | nil => rfl
  | cons hfield _ ih => rw [meanings, meanings, hfield.meaning_eq, ih]

theorem types_eq_of_map_eq {site : Site} {fields fields' : List FieldItem}
    (h : fields'.map (·.type) = fields.map (·.type)) : types site fields' = types site fields := by
  have hmap : ∀ fields : List FieldItem,
      types site fields = (fields.map (·.type)).mapM (TypeExpr.meaningAt site) := by
    intro fields
    rw [List.mapM_map]
    rfl
  rw [hmap, hmap, h]

end FieldItem

namespace VariantItem

variable {owner : String} {rule : Option RenameRule} {index : Nat}

theorem meaning_of_skipped {variant : VariantItem} (h : Skipped variant.attributes) :
    variant.meaning owner rule index = .ok none := by
  obtain ⟨directives, hdirectives, hskip⟩ := h
  unfold meaning
  rw [hdirectives]
  show (if directives.skip = true then _ else _) = _
  rw [if_pos hskip]
  rfl

theorem payload_eq_of_alike {ownName : String} {fields fields' : FieldItems}
    (h : fields.Alike fields') :
    payload owner ownName index rule fields' = payload owner ownName index rule fields := by
  cases h with
  | unit => rfl
  | named h => rw [payload, payload, FieldItem.meanings_eq_of_alike h]
  | tuple h => rw [payload, payload, FieldItem.types_eq_of_map_eq h]

theorem Alike.meaning_eq {variant variant' : VariantItem} (h : variant.Alike variant') :
    variant'.meaning owner rule index = variant.meaning owner rule index := by
  cases h with
  | kept h =>
    unfold meaning
    simp only [payload_eq_of_alike h]
  | skipped fields hskip =>
    rw [meaning_of_skipped hskip]
    exact meaning_of_skipped hskip

theorem meanings_eq_of_alike {variants variants' : List VariantItem}
    (h : List.Forall₂ Alike variants variants') :
    meanings owner rule index variants' = meanings owner rule index variants := by
  induction h generalizing index with
  | nil => rfl
  | cons hvariant _ ih => rw [meanings, meanings, hvariant.meaning_eq, ih]

end VariantItem

theorem TypeItemHead.structMeaning_eq_of_alike {head : TypeItemHead} {position : Nat}
    {fields fields' : FieldItems} (h : fields.Alike fields') :
    head.structMeaning position fields' = head.structMeaning position fields := by
  cases h with
  | unit => rfl
  | named h =>
    unfold structMeaning
    simp only [FieldItem.meanings_eq_of_alike h]
  | tuple h =>
    unfold structMeaning
    simp only [FieldItem.types_eq_of_map_eq h]

theorem TypeItemHead.enumMeaning_eq_of_alike {head : TypeItemHead} {position : Nat}
    {variants variants' : List VariantItem}
    (h : List.Forall₂ VariantItem.Alike variants variants') :
    head.enumMeaning position variants' = head.enumMeaning position variants := by
  unfold enumMeaning
  simp only [VariantItem.meanings_eq_of_alike h]

namespace Collection

theorem add_eq_of_alike {c : Collection} {item item' : Item} (h : item.Alike item') :
    c.add item' = c.add item := by
  cases h with
  | same => rfl
  | struct head h => rw [add, add, head.structMeaning_eq_of_alike h]
  | enum head h => rw [add, add, head.enumMeaning_eq_of_alike h]

theorem addAll_eq_of_alike {c : Collection} {items items' : List Item}
    (h : List.Forall₂ Item.Alike items items') : c.addAll items' = c.addAll items := by
  induction h generalizing c with
  | nil => rfl
  | cons hitem _ ih =>
    rw [addAll, addAll, add_eq_of_alike hitem]
    congr 1
    funext next
    exact ih

end Collection

def skips (attributes : List Attribute) : Bool :=
  match Directives.read attributes with
  | .ok directives => directives.skip
  | .error _ => false

theorem skips_iff {attributes : List Attribute} : skips attributes = true ↔ Skipped attributes := by
  unfold skips Skipped
  cases Directives.read attributes with
  | ok directives => simp
  | error fault => simp

def FieldItems.kept : FieldItems → FieldItems
  | .named fields => .named (fields.filter fun field => !skips field.attributes)
  | .tuple fields => .tuple fields
  | .unit => .unit

def VariantItem.keptOf (variants : List VariantItem) : List VariantItem :=
  (variants.filter fun variant => !skips variant.attributes).map fun variant =>
    { variant with fields := variant.fields.kept }

def Item.kept : Item → Item
  | .struct head fields => .struct head fields.kept
  | .enum head variants => .enum head (VariantItem.keptOf variants)
  | .function f => .function f
  | .typeAlias head target => .typeAlias head target
  | .module items => .module items
  | .other => .other

section Kept

variable {owner : String} {rule : Option RenameRule}

theorem FieldItem.toOption_meaning (index index' : Nat) (field : FieldItem) :
    (field.meaning owner rule index).toOption = (field.meaning owner rule index').toOption := by
  unfold meaning
  simp only [toOption_bind]
  congr 1
  funext directives
  cases directives.skip with
  | true => rfl
  | false =>
    simp only [Bool.false_eq_true, if_false, toOption_bind]
    rw [TypeExpr.toOption_meaningAt]

theorem FieldItem.toOption_meanings_filter (index index' : Nat) (fields : List FieldItem) :
    (meanings owner rule index (fields.filter fun field => !skips field.attributes)).toOption
      = (meanings owner rule index' fields).toOption := by
  induction fields generalizing index index' with
  | nil => rfl
  | cons field fields ih =>
    cases hskip : skips field.attributes with
    | true =>
      rw [List.filter_cons_of_neg (by simp [hskip]), ih index (index' + 1), meanings,
        meaning_of_skipped (skips_iff.1 hskip)]
      cases meanings owner rule (index' + 1) fields <;> rfl
    | false =>
      rw [List.filter_cons_of_pos (by simp [hskip]), meanings, meanings]
      simp only [toOption_bind, toOption_meaning index index', ih (index + 1) (index' + 1)]

theorem VariantItem.toOption_payload_kept {ownName : String} (index index' : Nat)
    (fields : FieldItems) :
    (payload owner ownName index rule fields.kept).toOption
      = (payload owner ownName index' rule fields).toOption := by
  cases fields with
  | unit => rfl
  | named fields =>
    simp only [FieldItems.kept, payload, toOption_map, FieldItem.toOption_meanings_filter 0 0]
  | tuple fields =>
    simp only [FieldItems.kept, payload, toOption_bind]
    rw [FieldItem.toOption_types]

theorem VariantItem.toOption_meaning_kept (index index' : Nat) (variant : VariantItem) :
    (meaning owner rule index { variant with fields := variant.fields.kept }).toOption
      = (variant.meaning owner rule index').toOption := by
  unfold meaning
  simp only [toOption_bind]
  congr 1
  funext directives
  cases directives.skip with
  | true => rfl
  | false =>
    simp only [Bool.false_eq_true, if_false, toOption_bind]
    rw [toOption_payload_kept index index']

theorem VariantItem.toOption_meanings_keptOf (index index' : Nat) (variants : List VariantItem) :
    (meanings owner rule index (keptOf variants)).toOption
      = (meanings owner rule index' variants).toOption := by
  induction variants generalizing index index' with
  | nil => rfl
  | cons variant variants ih =>
    unfold keptOf at ih ⊢
    cases hskip : skips variant.attributes with
    | true =>
      rw [List.filter_cons_of_neg (by simp [hskip]), ih index (index' + 1), meanings,
        meaning_of_skipped (skips_iff.1 hskip)]
      cases meanings owner rule (index' + 1) variants <;> rfl
    | false =>
      rw [List.filter_cons_of_pos (by simp [hskip]), List.map_cons, meanings, meanings]
      simp only [toOption_bind, toOption_meaning_kept index index', ih (index + 1) (index' + 1)]

theorem TypeItemHead.toOption_structMeaning_kept (head : TypeItemHead) (position : Nat)
    (fields : FieldItems) : (head.structMeaning position fields.kept).toOption
      = (head.structMeaning position fields).toOption := by
  cases fields with
  | unit => rfl
  | tuple fields => rfl
  | named fields =>
    simp only [FieldItems.kept, structMeaning, toOption_bind,
      FieldItem.toOption_meanings_filter 0 0]

theorem TypeItemHead.toOption_enumMeaning_kept (head : TypeItemHead) (position : Nat)
    (variants : List VariantItem) :
    (head.enumMeaning position (VariantItem.keptOf variants)).toOption
      = (head.enumMeaning position variants).toOption := by
  unfold enumMeaning
  simp only [toOption_bind]
  congr 2
  funext _
  congr 1
  funext directives
  cases directives.tagging? with
  | none => rfl
  | some tagging => simp only [toOption_bind, VariantItem.toOption_meanings_keptOf 0 0]

end Kept

namespace Collection

theorem toOption_add_kept (c : Collection) (item : Item) :
    (c.add item.kept).result.toOption = (c.add item).result.toOption := by
  cases item with
  | struct head fields =>
    simp only [Item.kept, add, Traced.bind_result]
    show Except.toOption (_ >>= _) = Except.toOption (_ >>= _)
    rw [toOption_bind, toOption_bind]
    exact congrArg (Option.bind · _) (head.toOption_structMeaning_kept _ fields)
  | enum head variants =>
    simp only [Item.kept, add, Traced.bind_result]
    show Except.toOption (_ >>= _) = Except.toOption (_ >>= _)
    rw [toOption_bind, toOption_bind]
    exact congrArg (Option.bind · _) (head.toOption_enumMeaning_kept _ variants)
  | function => rfl
  | typeAlias => rfl
  | module => rfl
  | other => rfl

theorem toOption_addAll_kept (c : Collection) (items : List Item) :
    (c.addAll (items.map Item.kept)).result.toOption = (c.addAll items).result.toOption := by
  induction items generalizing c with
  | nil => rfl
  | cons item items ih =>
    rw [List.map_cons, addAll, addAll, Traced.bind_result, Traced.bind_result]
    show Except.toOption (_ >>= _) = Except.toOption (_ >>= _)
    rw [toOption_bind, toOption_bind, toOption_add_kept]
    simp only [ih]

end Collection

/--
A source whose items are those of another one but for the types of skipped fields and what skipped
variants hold stands for the same, and so does one without skipped fields and variants, if anything.
Fields without names are read whatever their attributes are.
-/
theorem ofSource_skipped {source source' : String} {items items' standing standing' : List Item}
    (hfile : Grammar.file source = some items) (hfile' : Grammar.file source' = some items')
    (hstanding : Item.Standing items standing) (hstanding' : Item.Standing items' standing') :
    (List.Forall₂ Item.Alike standing standing' →
        Description.ofSource source' = Description.ofSource source)
      ∧ (standing' = standing.map Item.kept →
        (Description.ofSource source').result.toOption
          = (Description.ofSource source).result.toOption) := by
  have hitems : Collection.ofItems items = Collection.addAll {} standing :=
    Collection.addAll_standing hstanding {}
  have hitems' : Collection.ofItems items' = Collection.addAll {} standing' :=
    Collection.addAll_standing hstanding' {}
  unfold Description.ofSource
  rw [hfile, hfile']
  simp only [hitems, hitems']
  refine ⟨fun halike => ?_, fun hkept => ?_⟩
  . rw [Collection.addAll_eq_of_alike halike]
  . simp only [Traced.bind_result, hkept]
    show Except.toOption (_ >>= _) = Except.toOption (_ >>= _)
    rw [toOption_bind, toOption_bind, Collection.toOption_addAll_kept]

def point (others : List FieldItem) : Item :=
  .struct ⟨[], .everywhere, "Point", []⟩
    (.named (⟨[], some "x", .path false [.plain "i32"]⟩ :: others))

def cache (type : TypeExpr) : FieldItem :=
  ⟨[⟨false, ["serde"], ⟨1, 26⟩, .list [.word "skip" ⟨1, 32⟩] ⟨1, 36⟩⟩], some "cache", type⟩

def otherFields? : Option (List Item) → Option (List FieldItem)
  | some [.struct ⟨[], .everywhere, name, []⟩
      (.named (⟨[], some first, .path false [.plain scalar]⟩ :: others))] =>
    if name = "Point" ∧ first = "x" ∧ scalar = "i32" then some others else none
  | _ => none

def isCache : Option (List FieldItem) → Bool
  | some [⟨[⟨false, [path], position, .list [.word text start] closed⟩], some name, _⟩] =>
    path = "serde" ∧ text = "skip" ∧ name = "cache" ∧ position = ⟨1, 26⟩ ∧ start = ⟨1, 32⟩
      ∧ closed = ⟨1, 36⟩
  | _ => false

theorem eq_point_of_otherFields? {items : Option (List Item)} {others : List FieldItem}
    (h : otherFields? items = some others) : items = some [point others] := by
  unfold otherFields? at h
  split at h
  . split at h
    . next hnames =>
      obtain ⟨rfl, rfl, rfl⟩ := hnames
      cases h
      rfl
    . cases h
  . cases h

theorem exists_cache_of_isCache {items : Option (List Item)}
    (h : isCache (otherFields? items) = true) : ∃ type, items = some [point [cache type]] := by
  unfold isCache at h
  split at h
  . next hfields =>
    obtain ⟨rfl, rfl, rfl, rfl, rfl, rfl⟩ := of_decide_eq_true h
    exact ⟨_, eq_point_of_otherFields? hfields⟩
  . cases h

theorem skipped_cache (type : TypeExpr) : Skipped (cache type).attributes := by
  refine ⟨{ skip := true }, ?_, rfl⟩
  show Directives.read (cache (.tuple [] false)).attributes = _
  decide +kernel

def pointSource : String :=
  "pub struct Point\x7bx:i32\x7d"

def cachedSource : String :=
  "pub struct Point\x7bx:i32,#[serde(skip)] cache:u8\x7d"

def objectSource : String :=
  "pub struct Point\x7bx:i32,#[serde(skip)] cache:dyn Shape\x7d"

/--
The type of the skipped field has no declaration in one source, and another one is without the
field.
-/
theorem ofSource_objectSource : ∃ items items' items'' standing standing' standing'',
    Grammar.file cachedSource = some items ∧ Grammar.file objectSource = some items'
      ∧ Grammar.file pointSource = some items''
      ∧ Item.Standing items standing ∧ Item.Standing items' standing'
      ∧ Item.Standing items'' standing''
      ∧ List.Forall₂ Item.Alike standing standing' ∧ standing'' = standing.map Item.kept
      ∧ Description.ofSource objectSource = Description.ofSource cachedSource
      ∧ (Description.ofSource pointSource).result.toOption
        = (Description.ofSource cachedSource).result.toOption := by
  have hcached : isCache (otherFields? (Grammar.file cachedSource)) = true := by decide +kernel
  have hobject : isCache (otherFields? (Grammar.file objectSource)) = true := by decide +kernel
  have hpoint : (otherFields? (Grammar.file pointSource)).map List.isEmpty = some true := by
    decide +kernel
  obtain ⟨byte, hcached⟩ := exists_cache_of_isCache hcached
  obtain ⟨object, hobject⟩ := exists_cache_of_isCache hobject
  obtain ⟨others, hothers, hempty⟩ := Option.map_eq_some_iff.1 hpoint
  rw [List.isEmpty_iff] at hempty
  subst hempty
  have hpoint := eq_point_of_otherFields? hothers
  have hstanding : ∀ fields, Item.Standing [point fields] [point fields] :=
    fun _ => .item (by rintro inner ⟨⟩) .nil
  have halike : List.Forall₂ Item.Alike [point [cache byte]] [point [cache object]] :=
    .cons (.struct _ (.named (.cons (.same _) (.cons (.skipped object (skipped_cache byte)) .nil))))
      .nil
  have hkept : [point []] = [point [cache byte]].map Item.kept := by
    have hfield : skips [] = false := by decide +kernel
    have hskip : skips (cache byte).attributes = true := skips_iff.2 (skipped_cache byte)
    simp [point, Item.kept, FieldItems.kept, hfield, hskip]
  exact ⟨_, _, _, _, _, _, hcached, hobject, hpoint, hstanding _, hstanding _, hstanding _, halike,
    hkept, (ofSource_skipped hcached hobject (hstanding _) (hstanding _)).1 halike,
    (ofSource_skipped hcached hpoint (hstanding _) (hstanding _)).2 hkept⟩

/--
A field without a name is declared although it is to be skipped.
-/
theorem ofSource_pair :
    (Description.ofSource "pub struct Pair(u8,#[serde(skip)] u16,u32);").result.toOption
      ≠ (Description.ofSource "pub struct Pair(u8,#[serde(skip)] bool,u32);").result.toOption := by
  decide +kernel

end Bindings.Native
