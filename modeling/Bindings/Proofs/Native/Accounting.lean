import Bindings.Proofs.Native.Collection
import Bindings.Proofs.Native.Respelling

/-!
This module contains how a collection is made up of what its items add to it: items one behind
another add one behind another, modules are transparent, and every item that is none has exactly one
part, at any depth. What an item adds does not depend on what is there before it, only its fault
does.
-/

namespace Bindings.Native

theorem toOption_bind (x : Except ε α) (f : α → Except ε β) :
    (x >>= f).toOption = x.toOption.bind fun a => (f a).toOption := by
  cases x <;> rfl

theorem toOption_mapError (f : ε → φ) (x : Except ε α) : (x.mapError f).toOption = x.toOption := by
  cases x <;> rfl

theorem eq_ok_of_toOption_eq {x y : Except ε α} {a : α} (h : x = .ok a)
    (hsame : x.toOption = y.toOption) : y = .ok a := by
  rw [h] at hsame
  exact toOption_eq_some_iff.1 hsame.symm

section Sites

variable (site site' : Site)

theorem toOption_checkGenerics (params : List GenericParam) :
    (checkGenerics site params).toOption = (checkGenerics site' params).toOption := by
  induction params with
  | nil => rfl
  | cons param params ih =>
    cases param with
    | lifetime => exact ih
    | type name => rfl
    | const name => rfl

theorem TypeExpr.toOption_meaningAt (type : TypeExpr) :
    (type.meaningAt site).toOption = (type.meaningAt site').toOption := by
  unfold meaningAt
  rw [toOption_mapError, toOption_mapError]

theorem FieldItem.toOption_types (fields : List FieldItem) :
    (types site fields).toOption = (types site' fields).toOption := by
  unfold types
  induction fields with
  | nil => rfl
  | cons field fields ih =>
    simp only [List.mapM_cons, toOption_bind, ih, TypeExpr.toOption_meaningAt site site']

end Sites

section Positions

variable (position position' : Nat)

theorem TypeItemHead.toOption_structMeaning (head : TypeItemHead) (fields : FieldItems) :
    (head.structMeaning position fields).toOption
      = (head.structMeaning position' fields).toOption := by
  unfold structMeaning
  simp only [toOption_bind]
  congr 1
  funext directives
  cases fields with
  | unit =>
    simp only [toOption_bind]
    rw [toOption_checkGenerics]
  | tuple fields =>
    simp only [toOption_bind]
    rw [toOption_checkGenerics _ (head.site .typeAlias position'),
      FieldItem.toOption_types _ (head.site .typeAlias position')]
  | named fields =>
    simp only [toOption_bind]
    rw [toOption_checkGenerics]

theorem TypeItemHead.toOption_enumMeaning (head : TypeItemHead) (variants : List VariantItem) :
    (head.enumMeaning position variants).toOption
      = (head.enumMeaning position' variants).toOption := by
  unfold enumMeaning
  simp only [toOption_bind]
  rw [toOption_checkGenerics _ (head.site .enum position')]
  congr 2
  funext _
  congr 1
  funext directives
  cases directives.tagging? with
  | none => rfl
  | some tagging => rfl

theorem TypeItemHead.toOption_aliasMeaning (head : TypeItemHead) (target : TypeExpr) :
    (head.aliasMeaning position target).toOption
      = (head.aliasMeaning position' target).toOption := by
  unfold aliasMeaning
  simp only [toOption_bind]
  rw [toOption_checkGenerics _ (head.site .typeAlias position'),
    TypeExpr.toOption_meaningAt _ (head.site .typeAlias position')]

theorem FunctionItem.toOption_param (function : FunctionItem) (index : Nat) (input : InputItem) :
    (function.param position index input).toOption
      = (function.param position' index input).toOption := by
  cases input with
  | receiver => rfl
  | typed name type => cases name <;> rfl

theorem FunctionItem.toOption_params (function : FunctionItem) (index : Nat)
    (inputs : List InputItem) :
    (function.params position index inputs).toOption
      = (function.params position' index inputs).toOption := by
  induction inputs generalizing index with
  | nil => rfl
  | cons input inputs ih =>
    simp only [params, toOption_bind, ih]
    rw [toOption_param position position']

theorem FunctionItem.toOption_meaning (function : FunctionItem) :
    (function.meaning position).toOption = (function.meaning position').toOption := by
  unfold meaning
  simp only [toOption_bind]
  rw [toOption_checkGenerics _ (.declaration .function function.id position'),
    toOption_params position position']

end Positions

namespace Item

def Declares (item : Item) (decl : TypeDecl) : Prop :=
  ∀ position, item.declaration? position = some (.ok decl)

theorem declares_of_declaration {item : Item} {position : Nat} {decl : TypeDecl}
    (h : item.declaration? position = some (.ok decl)) : item.Declares decl := by
  intro position'
  cases item with
  | struct head fields =>
    have hsame := head.toOption_structMeaning position position' fields
    exact congrArg some (eq_ok_of_toOption_eq (Option.some.inj h) hsame)
  | enum head variants =>
    have hsame := head.toOption_enumMeaning position position' variants
    exact congrArg some (eq_ok_of_toOption_eq (Option.some.inj h) hsame)
  | typeAlias head target =>
    have hsame := head.toOption_aliasMeaning position position' target
    exact congrArg some (eq_ok_of_toOption_eq (Option.some.inj h) hsame)
  | function => cases h
  | module => cases h
  | other => cases h

end Item

theorem FunctionItem.meaning_of_meaning {function : FunctionItem} {position : Nat}
    {declared : FunctionDecl} (h : function.meaning position = .ok declared) (position' : Nat) :
    function.meaning position' = .ok declared :=
  eq_ok_of_toOption_eq h (function.toOption_meaning position position')

theorem FunctionItem.name_eq_of_meaning {function : FunctionItem} {position : Nat}
    {declared : FunctionDecl} (h : function.meaning position = .ok declared) :
    declared.name = function.id := by
  unfold meaning at h
  obtain ⟨_, -, h⟩ := exists_of_bind_eq_ok h
  obtain ⟨_, -, h⟩ := exists_of_bind_eq_ok h
  obtain ⟨_, -, h⟩ := exists_of_bind_eq_ok h
  cases h
  rfl

namespace Collection

def append (c d : Collection) : Collection where
  description := {
    types := c.description.types ++ d.description.types
    functions := c.description.functions ++ d.description.functions }
  skipped := c.skipped + d.skipped

@[simp]
theorem append_empty (c : Collection) : c.append {} = c := by
  simp [append]

@[simp]
theorem empty_append (c : Collection) : append {} c = c := by
  simp [append]

theorem append_assoc (c d e : Collection) : (c.append d).append e = c.append (d.append e) := by
  simp [append, Nat.add_assoc]

end Collection

def Item.IsMentionedIn (item : Item) (references : List TypeRef) : Prop :=
  ∀ type, item.Exposes type → type.IsMentionedIn references

/--
What an item that is no module adds to a collection, wherever it stands: a type, a public function
or one to what is skipped. What is declared for it has its name and mentions whatever it exposes.
-/
inductive Item.Adds : Item → Collection → Prop
  | struct {head : TypeItemHead} {fields : FieldItems} {decl : TypeDecl}
    (hdeclares : ∀ position, head.structMeaning position fields = .ok decl)
    (hid : decl.id = head.id) (htypes : (Item.struct head fields).IsMentionedIn decl.body.types) :
    Adds (.struct head fields) { description := { types := [decl] } }
  | enum {head : TypeItemHead} {variants : List VariantItem} {decl : TypeDecl}
    (hdeclares : ∀ position, head.enumMeaning position variants = .ok decl)
    (hid : decl.id = head.id) (htypes : (Item.enum head variants).IsMentionedIn decl.body.types) :
    Adds (.enum head variants) { description := { types := [decl] } }
  | typeAlias {head : TypeItemHead} {target : TypeExpr} {decl : TypeDecl}
    (hdeclares : ∀ position, head.aliasMeaning position target = .ok decl)
    (hid : decl.id = head.id)
    (htypes : (Item.typeAlias head target).IsMentionedIn decl.body.types) :
    Adds (.typeAlias head target) { description := { types := [decl] } }
  | function {function : FunctionItem} {declared : FunctionDecl}
    (hpublic : function.visibility = .everywhere)
    (hdeclares : ∀ position, function.meaning position = .ok declared)
    (hname : declared.name = function.id)
    (htypes : (Item.function function).IsMentionedIn (declared.references.map (·.1))) :
    Adds (.function function) { description := { functions := [declared] } }
  | hidden {function : FunctionItem} (hprivate : function.visibility ≠ .everywhere) :
    Adds (.function function) { skipped := 1 }
  | other : Adds .other { skipped := 1 }

/--
A collection holds what items add, each of them once and in their order, and so for the items of
modules among them.
-/
inductive Accounts : List Item → Collection → Prop
  | nil : Accounts [] {}
  | item {item : Item} {items : List Item} {c d : Collection} (hitem : item.Adds c)
    (hrest : Accounts items d) : Accounts (item :: items) (c.append d)
  | outside {items : List Item} {d : Collection} (hrest : Accounts items d) :
    Accounts (.module none :: items) d
  | module {inner items : List Item} {c d : Collection} (hinner : Accounts inner c)
    (hrest : Accounts items d) : Accounts (.module (some inner) :: items) (c.append d)

theorem Visibility.isPublic_iff {visibility : Visibility} :
    visibility.isPublic = true ↔ visibility = .everywhere := by
  cases visibility <;> simp [isPublic]

namespace Item.Adds

variable {item : Item} {d : Collection}

theorem of_declares {decl : TypeDecl} (h : item.Declares decl) :
    item.Adds { description := { types := [decl] } } := by
  have hmeaning := h 0
  have hdeclared : item.DeclaredAs { types := [decl] } decl 0 := ⟨hmeaning, rfl⟩
  have htypes : item.IsMentionedIn decl.body.types := by
    rw [← TypeDecl.map_fst_references decl 0]
    exact fun type => (Item.Makes.type hdeclared).isMentionedIn
  cases item with
  | struct head fields =>
    exact .struct (fun position => Option.some.inj (h position)) (hdeclared.id_eq rfl) htypes
  | enum head variants =>
    exact .enum (fun position => Option.some.inj (h position)) (hdeclared.id_eq rfl) htypes
  | typeAlias head target =>
    exact .typeAlias (fun position => Option.some.inj (h position)) (hdeclared.id_eq rfl) htypes
  | function => cases hmeaning
  | module => cases hmeaning
  | other => cases hmeaning

theorem of_meaning {function : FunctionItem} {position : Nat} {declared : FunctionDecl}
    (hpublic : function.visibility.isPublic = true)
    (h : function.meaning position = .ok declared) :
    (Item.function function).Adds { description := { functions := [declared] } } := by
  have hmakes : (Item.function function).Makes { functions := [declared] } declared.references :=
    .function (FunctionItem.meaning_of_meaning h 0) rfl
  exact .function (Visibility.isPublic_iff.1 hpublic) (FunctionItem.meaning_of_meaning h)
    (FunctionItem.name_eq_of_meaning h) fun type => hmakes.isMentionedIn

theorem ne_module (h : item.Adds d) (inner : Option (List Item)) : item ≠ .module inner := by
  cases h <;> nofun

theorem add_eq (h : item.Adds d) (c : Collection) : (c.add item).result = .ok (c.append d) := by
  cases h with
  | struct hdeclares | enum hdeclares | typeAlias hdeclares =>
    simp [Collection.add, hdeclares, Collection.addType, Collection.append, Except.map]
  | function hpublic hdeclares =>
    rw [Collection.add_function (Visibility.isPublic_iff.2 hpublic), hdeclares]
    simp [Collection.addFunction, Collection.append, Except.map]
  | hidden hprivate =>
    have hprivate := mt Visibility.isPublic_iff.1 hprivate
    simp [Collection.add, hprivate, Collection.skip, Collection.append, Except.map]
  | other => simp [Collection.add, Collection.skip, Collection.append]

end Item.Adds

namespace Collection

variable {c c' d : Collection} {items items' standing : List Item}

theorem exists_adds {item : Item} (hitem : ∀ inner, item ≠ .module inner)
    (h : (c.add item).result = .ok c') : ∃ d, item.Adds d := by
  cases hdeclaration : item.declaration? c.description.types.length with
  | some outcome =>
    rw [add_declaration hdeclaration] at h
    simp only [Traced.bind_result, Traced.liftM_result, Traced.pure_result] at h
    obtain ⟨decl, rfl, -⟩ := exists_of_bind_eq_ok h
    exact ⟨_, .of_declares (Item.declares_of_declaration hdeclaration)⟩
  | none =>
    cases item with
    | function function =>
      cases hpublic : function.visibility.isPublic with
      | true =>
        rw [add_function hpublic] at h
        simp only [Traced.bind_result, Traced.liftM_result, Traced.pure_result] at h
        obtain ⟨declared, hdeclared, -⟩ := exists_of_bind_eq_ok h
        exact ⟨_, .of_meaning hpublic hdeclared⟩
      | false =>
        refine ⟨_, .hidden fun hvisibility => ?_⟩
        rw [Visibility.isPublic_iff.2 hvisibility] at hpublic
        cases hpublic
    | module => exact absurd rfl (hitem _)
    | other => exact ⟨_, .other⟩
    | struct => cases hdeclaration
    | enum => cases hdeclaration
    | typeAlias => cases hdeclaration

theorem addAll_eq_of_accounts (h : Accounts items d) (c : Collection) :
    (c.addAll items).result = .ok (c.append d) := by
  induction h generalizing c with
  | nil => rw [append_empty]; rfl
  | item hitem _ ih => rw [addAll, Traced.bind_result, hitem.add_eq, Except.bind, ih, append_assoc]
  | outside _ ih => rw [addAll_outside, ih]
  | module _ _ ihinner ihrest =>
    rw [addAll_module, addAll_append, Traced.bind_result, ihinner, Except.bind, ihrest,
      append_assoc]

theorem exists_accounts (h : (c.addAll items).result = .ok c') : ∃ d, Accounts items d := by
  -- The induction is along what stands in the items, which splits them as the collector does.
  obtain ⟨standing, hstanding⟩ := Item.Standing.exists_standing items
  induction hstanding generalizing c c' with
  | nil => exact ⟨_, .nil⟩
  | item hitem _ ih =>
    rw [addAll, Traced.bind_result] at h
    obtain ⟨next, hnext, hrest⟩ := exists_of_bind_eq_ok h
    obtain ⟨first, hfirst⟩ := exists_adds hitem hnext
    obtain ⟨others, hothers⟩ := ih hrest
    exact ⟨_, .item hfirst hothers⟩
  | outside _ ih =>
    rw [addAll_outside] at h
    obtain ⟨others, hothers⟩ := ih h
    exact ⟨_, .outside hothers⟩
  | module _ _ ihinner ihrest =>
    rw [addAll_module, addAll_append, Traced.bind_result] at h
    obtain ⟨next, hnext, hrest⟩ := exists_of_bind_eq_ok h
    obtain ⟨inner, hinner⟩ := ihinner hnext
    obtain ⟨others, hothers⟩ := ihrest hrest
    exact ⟨_, .module hinner hothers⟩

theorem ofItems_eq_ok_iff : (ofItems items).result = .ok c ↔ Accounts items c := by
  constructor
  . intro h
    obtain ⟨d, haccounts⟩ := exists_accounts h
    have hsame := h.symm.trans (addAll_eq_of_accounts haccounts {})
    rw [empty_append] at hsame
    cases hsame
    exact haccounts
  . intro h
    rw [ofItems, addAll_eq_of_accounts h, empty_append]

theorem ofItems_append_of_error {fault : Fault} (h : (ofItems items).result = .error fault) :
    (ofItems (items ++ items')).result = .error fault := by
  have hfirst : (addAll {} items).result = .error fault := h
  rw [ofItems, addAll_append, Traced.bind_result, hfirst]
  rfl

end Collection

def Collection.size (c : Collection) : Nat :=
  c.description.types.length + c.description.functions.length + c.skipped

theorem Collection.size_append (c d : Collection) : (c.append d).size = c.size + d.size := by
  simp only [append, size, List.length_append]
  omega

theorem Item.Adds.size_eq {item : Item} {c : Collection} (h : item.Adds c) : c.size = 1 := by
  cases h <;> rfl

theorem Accounts.append {items items' : List Item} {c c' : Collection} (h : Accounts items c)
    (h' : Accounts items' c') : Accounts (items ++ items') (c.append c') := by
  induction h with
  | nil =>
    rw [Collection.empty_append]
    exact h'
  | item hitem _ ih =>
    rw [Collection.append_assoc]
    exact .item hitem ih
  | outside _ ih => exact .outside ih
  | module hinner _ _ ih =>
    rw [Collection.append_assoc]
    exact .module hinner ih

theorem Accounts.length_standing {items standing : List Item} {c : Collection}
    (h : Accounts items c) (hstanding : Item.Standing items standing) :
    standing.length = c.size := by
  induction h generalizing standing with
  | nil =>
    cases hstanding
    rfl
  | item hitem _ ih =>
    cases hstanding with
    | item _ hrest =>
      rw [List.length_cons, ih hrest, Collection.size_append, hitem.size_eq, Nat.add_comm]
    | outside => exact absurd rfl (hitem.ne_module _)
    | module => exact absurd rfl (hitem.ne_module _)
  | outside _ ih =>
    cases hstanding with
    | item hitem => exact absurd rfl (hitem _)
    | outside hrest => exact ih hrest
  | module _ _ ihinner ihrest =>
    cases hstanding with
    | item hitem => exact absurd rfl (hitem _)
    | module hinner hrest =>
      rw [List.length_append, ihinner hinner, ihrest hrest, Collection.size_append]

/--
One list of items is another one with a module around some of them, inside modules or not.
-/
inductive Wraps : List Item → List Item → Prop
  | here (before run after : List Item) :
    Wraps (before ++ run ++ after) (before ++ .module (some run) :: after)
  | inside (before after : List Item) {items items' : List Item} (h : Wraps items items') :
    Wraps (before ++ .module (some items) :: after) (before ++ .module (some items') :: after)

theorem Wraps.addAll_eq {items items' : List Item} (h : Wraps items items') (c : Collection) :
    c.addAll items' = c.addAll items := by
  induction h generalizing c with
  | here before run after =>
    rw [List.append_assoc, Collection.addAll_append, Collection.addAll_append]
    simp only [Collection.addAll_module]
  | inside before after _ ih =>
    rw [Collection.addAll_append, Collection.addAll_append]
    simp only [Collection.addAll_module, Collection.addAll_append, ih]

theorem Wraps.ofItems_eq {items items' : List Item} (h : Relation.ReflTransGen Wraps items items') :
    Collection.ofItems items' = Collection.ofItems items := by
  induction h with
  | refl => rfl
  | tail _ hwraps ih => rw [← ih, Collection.ofItems, hwraps.addAll_eq, Collection.ofItems]

theorem accounts_of_ofSource {source : String} {d : Description}
    (h : (Description.ofSource source).result = .ok d) :
    ∃ items c, Grammar.file source = some items ∧ Accounts items c ∧ c.description = d
      ∧ .readSource d.types.length d.functions.length c.skipped
        ∈ (Description.ofSource source).events := by
  unfold Description.ofSource at h ⊢
  cases hfile : Grammar.file source with
  | none =>
    rw [hfile] at h
    cases h
  | some items =>
    rw [hfile] at h
    simp only [Traced.bind_result, Traced.record_result, Traced.pure_result] at h
    obtain ⟨c, hc, heq⟩ := exists_of_bind_eq_ok h
    cases heq
    refine ⟨items, c, rfl, Collection.ofItems_eq_ok_iff.1 hc, rfl, ?_⟩
    simp only [Traced.bind_events hc, Traced.bind_events (Traced.record_result _)]
    exact List.mem_append_right _ List.mem_cons_self

namespace Collection

/--
Items one behind another have the collection of the first ones with that of the others behind it, or
the fault of the first ones. A module around items makes no difference. A collection is what its
items are accounted for by, and it has one part for each item that is no module, at any depth; so
for the items of a file.
-/
theorem ofItems_spec :
    (∀ items items' c c', (ofItems items).result = .ok c → (ofItems items').result = .ok c' →
        (ofItems (items ++ items')).result = .ok (c.append c'))
      ∧ (∀ items items' fault, (ofItems items).result = .error fault →
        (ofItems (items ++ items')).result = .error fault)
      ∧ (∀ items items', Relation.ReflTransGen Wraps items items' →
        ofItems items' = ofItems items)
      ∧ (∀ items c, (ofItems items).result = .ok c ↔ Accounts items c)
      ∧ (∀ items, ∃! standing, Item.Standing items standing)
      ∧ (∀ items standing c, (ofItems items).result = .ok c → Item.Standing items standing →
        standing.length
          = c.description.types.length + c.description.functions.length + c.skipped)
      ∧ ∀ source d, (Description.ofSource source).result = .ok d →
        ∃ items c, Grammar.file source = some items ∧ Accounts items c ∧ c.description = d
          ∧ .readSource d.types.length d.functions.length c.skipped
            ∈ (Description.ofSource source).events := by
  refine ⟨?_, fun _ _ _ => ofItems_append_of_error, fun _ _ => Wraps.ofItems_eq,
    fun _ _ => ofItems_eq_ok_iff, ?_, ?_, fun _ _ => accounts_of_ofSource⟩
  . intro items items' c c' h h'
    rw [ofItems_eq_ok_iff] at h h' ⊢
    exact h.append h'
  . intro items
    obtain ⟨standing, h⟩ := Item.Standing.exists_standing items
    exact ⟨standing, h, fun _ h' => h'.unique h⟩
  . intro items standing c h hstanding
    exact (ofItems_eq_ok_iff.1 h).length_standing hstanding

def coordinate (name : String) : FieldItem :=
  ⟨[], some name, .path false [.plain "f64"]⟩

def pointItem : Item :=
  .struct ⟨[], .everywhere, "Point", []⟩ (.named [coordinate "x", coordinate "y"])

def areaItem : Item :=
  .function ⟨[], .everywhere, false, "area", [],
    [.typed (some "shape") (.reference none false (.path false [.plain "Shape"]))],
    some (.path false [.plain "f64"])⟩

def shapeItem : Item :=
  .enum ⟨[], .restricted, "Shape", []⟩
    [⟨[], "Empty", .unit⟩, ⟨[], "Circle", .named [coordinate "radius"]⟩]

def nameItem : Item :=
  .typeAlias ⟨[], .everywhere, "Name", []⟩ (.path false [.plain "String"])

def helperItem : Item :=
  .function ⟨[], .inherited, false, "helper", [], [], none⟩

def cellItem : Item :=
  .struct ⟨[], .everywhere, "Cell", [.type "T"]⟩ .unit

def shapeItems : List Item :=
  [.module (some [.other, .module (some [shapeItem, .module none, helperItem])]), nameItem]

def pointCollection : Collection where
  description := {
    types :=
      [{ id := "Point"
         body := .struct
          [{ name := "x", type := .scalar .f64 }, { name := "y", type := .scalar .f64 }]
         exported := true }]
    functions :=
      [{ name := "area"
         params := [⟨"shape", .named "Shape", .borrowed⟩]
         result := some (.scalar .f64) }] }

def shapeCollection : Collection where
  description := {
    types :=
      [{ id := "Shape"
         body := .enum .external
          [{ name := "Empty", payload := .unit },
            { name := "Circle"
              payload := .struct [{ name := "radius", type := .scalar .f64 }] }] },
        { id := "Name", body := .typeAlias (.scalar .string), exported := true }] }
  skipped := 2

def helperSource : String :=
  "fn helper()\x7b\x7d mod shapes\x7bpub struct Point\x7bx:f64,y:f64\x7d\x7d"

/--
A struct and a function, an enum and a private function two modules deep and an alias, and a struct
that is refused.
-/
theorem ofItems_pointShape :
    (ofItems [pointItem, areaItem]).result = .ok pointCollection
      ∧ (ofItems shapeItems).result = .ok shapeCollection
      ∧ (ofItems ([pointItem, areaItem] ++ shapeItems)).result
        = .ok (pointCollection.append shapeCollection)
      ∧ (∃ fault, (ofItems [areaItem, cellItem]).result = .error fault
        ∧ (ofItems ([areaItem, cellItem] ++ shapeItems)).result = .error fault)
      ∧ Relation.ReflTransGen Wraps [pointItem, areaItem]
        [.module (some [pointItem, .module (some [areaItem])])]
      ∧ ofItems [.module (some [pointItem, .module (some [areaItem])])]
        = ofItems [pointItem, areaItem]
      ∧ Accounts shapeItems shapeCollection
      ∧ Item.Standing shapeItems [.other, shapeItem, helperItem, nameItem]
      ∧ [.other, shapeItem, helperItem, nameItem].length
        = shapeCollection.description.types.length
          + shapeCollection.description.functions.length + shapeCollection.skipped
      ∧ ∃ items c, Grammar.file helperSource = some items ∧ Accounts items c
        ∧ c.description.types = pointCollection.description.types
        ∧ .readSource 1 0 c.skipped ∈ (Description.ofSource helperSource).events := by
  have hpoint : (ofItems [pointItem, areaItem]).result = .ok pointCollection := by decide +kernel
  have hshape : (ofItems shapeItems).result = .ok shapeCollection := by decide +kernel
  have hcell : (ofItems [areaItem, cellItem]).result
      = .error (malformed (.declaration .struct "Cell" 0) (.typeParameter "T")) := by
    decide +kernel
  have hsource : (Description.ofSource helperSource).result
      = .ok { types := pointCollection.description.types } := by
    decide +kernel
  have hwraps : Relation.ReflTransGen Wraps [pointItem, areaItem]
      [.module (some [pointItem, .module (some [areaItem])])] :=
    .tail (.single (.here [pointItem] [areaItem] []))
      (.here [] [pointItem, .module (some [areaItem])] [])
  have hstanding : Item.Standing shapeItems [.other, shapeItem, helperItem, nameItem] := by
    show Item.Standing shapeItems (.other :: ([shapeItem, helperItem] ++ []) ++ [nameItem])
    refine .module (.item ?_ (.module (.item ?_ (.outside (.item ?_ .nil))) .nil)) (.item ?_ .nil)
    all_goals rintro inner ⟨⟩
  obtain ⟨happend, hfault, hwrapped, haccounts, -, hlength, hread⟩ := ofItems_spec
  obtain ⟨items, c, hfile, hitems, hdescription, hevent⟩ := hread _ _ hsource
  exact ⟨hpoint, hshape, happend _ _ _ _ hpoint hshape, ⟨_, hcell, hfault _ _ _ hcell⟩, hwraps,
    hwrapped _ _ hwraps, (haccounts _ _).1 hshape, hstanding, hlength _ _ _ hshape hstanding,
    items, c, hfile, hitems, by rw [hdescription], hevent⟩

end Collection

end Bindings.Native
