import Bindings.Proofs.Generation
import Bindings.Proofs.Native.Exposure
import Bindings.Proofs.Native.Standing

/-!
This module contains that a description holds what the items of its source stand for, and that a
type which an item exposes refers to other items by the identifiers under which they are declared.
-/

namespace Bindings.Native

theorem getElem?_of_isPrefix {l l' : List α} (h : l <+: l') {i : Nat} {a : α}
    (ha : l[i]? = some a) : l'[i]? = some a := by
  obtain ⟨hlt, heq⟩ := List.getElem?_eq_some_iff.1 ha
  rw [← heq]
  exact List.prefix_iff_getElem?.1 h i hlt

structure Extends (d d' : Description) : Prop where
  types : d.types <+: d'.types
  functions : d.functions <+: d'.functions

namespace Extends

variable {d d' d'' : Description}

theorem refl (d : Description) : Extends d d where
  types := List.prefix_refl _
  functions := List.prefix_refl _

theorem trans (h : Extends d d') (h' : Extends d' d'') : Extends d d'' where
  types := h.types.trans h'.types
  functions := h.functions.trans h'.functions

theorem declaredAs (h : Extends d d') {item : Item} {decl : TypeDecl} {position : Nat}
    (hdeclared : item.DeclaredAs d decl position) : item.DeclaredAs d' decl position :=
  ⟨hdeclared.1, getElem?_of_isPrefix h.types hdeclared.2⟩

theorem makes (h : Extends d d') {item : Item} {references : List Reference}
    (hmakes : item.Makes d references) : item.Makes d' references := by
  cases hmakes with
  | function hmeaning hmem => exact .function hmeaning (getElem?_of_isPrefix h.functions hmem)
  | type hdeclared => exact .type (h.declaredAs hdeclared)

end Extends

/--
A description has the part of an item in it: the declaration of the type that it declares, and
references if it exposes a type.
-/
structure Holds (d : Description) (item : Item) : Prop where
  declares : ∀ head, item.head? = some head → ∃ decl position, item.DeclaredAs d decl position
  exposes : ∀ type, item.Exposes type → ∃ references, item.Makes d references

theorem Extends.holds {d d' : Description} (h : Extends d d') {item : Item}
    (hitem : Holds d item) : Holds d' item where
  declares head hhead := by
    obtain ⟨decl, position, hdeclared⟩ := hitem.declares head hhead
    exact ⟨decl, position, h.declaredAs hdeclared⟩
  exposes type hexposes := by
    obtain ⟨references, hmakes⟩ := hitem.exposes type hexposes
    exact ⟨references, h.makes hmakes⟩

namespace Collection

variable {c c' : Collection} {item : Item}

theorem extends_addType (c : Collection) (decl : TypeDecl) :
    Extends c.description (c.addType decl).description where
  types := List.prefix_append _ _
  functions := List.prefix_refl _

theorem extends_addFunction (c : Collection) (function : FunctionDecl) :
    Extends c.description (c.addFunction function).description where
  types := List.prefix_refl _
  functions := List.prefix_append _ _

theorem add_declaration {outcome : Except Fault TypeDecl}
    (h : item.declaration? c.description.types.length = some outcome) :
    c.add item = do return c.addType (← outcome) := by
  cases item with
  | struct => cases h; rfl
  | enum => cases h; rfl
  | typeAlias => cases h; rfl
  | function => cases h
  | module => cases h
  | other => cases h

theorem add_function {function : FunctionItem} (h : function.visibility.isPublic = true) :
    c.add (.function function)
      = do return c.addFunction (← function.meaning c.description.functions.length) := by
  unfold add
  rw [if_pos h]

theorem add_private {function : FunctionItem} (h : function.visibility.isPublic = false)
    (hadd : (c.add (.function function)).result = .ok c') : c' = c.skip := by
  unfold add at hadd
  rw [h] at hadd
  cases hadd
  rfl

theorem add_type_spec {outcome : Except Fault TypeDecl}
    (hitem : item.declaration? c.description.types.length = some outcome)
    (h : (c.add item).result = .ok c') :
    Extends c.description c'.description ∧ Holds c'.description item := by
  rw [add_declaration hitem] at h
  simp only [Traced.bind_result, Traced.liftM_result, Traced.pure_result] at h
  obtain ⟨decl, rfl, heq⟩ := exists_of_bind_eq_ok h
  cases heq
  have hdeclared : item.DeclaredAs (c.addType decl).description decl c.description.types.length :=
    ⟨hitem, List.getElem?_concat_length⟩
  exact ⟨extends_addType c decl, fun _ _ => ⟨decl, _, hdeclared⟩, fun _ _ => ⟨_, .type hdeclared⟩⟩

theorem add_function_spec {function : FunctionItem} (hpublic : function.visibility.isPublic = true)
    (h : (c.add (.function function)).result = .ok c') :
    Extends c.description c'.description ∧ Holds c'.description (.function function) := by
  rw [add_function hpublic] at h
  simp only [Traced.bind_result, Traced.liftM_result, Traced.pure_result] at h
  obtain ⟨declared, hdeclared, heq⟩ := exists_of_bind_eq_ok h
  cases heq
  refine ⟨extends_addFunction c declared, ?_, ?_⟩
  . rintro head ⟨⟩
  . exact fun _ _ => ⟨_, .function hdeclared List.getElem?_concat_length⟩

theorem add_spec (hitem : ∀ inner, item ≠ .module inner) (h : (c.add item).result = .ok c') :
    Extends c.description c'.description ∧ Holds c'.description item := by
  cases item with
  | function function =>
    cases hpublic : function.visibility.isPublic with
    | true => exact add_function_spec hpublic h
    | false =>
      rw [add_private hpublic h]
      refine ⟨.refl _, by rintro head ⟨⟩, fun type hexposes => ?_⟩
      have hexposed : function.visibility.isPublic = true := by
        cases hexposes with
        | param h => exact h
        | result h => exact h
      rw [hpublic] at hexposed
      cases hexposed
  | struct head fields => exact add_type_spec rfl h
  | enum head variants => exact add_type_spec rfl h
  | typeAlias head target => exact add_type_spec rfl h
  | module => exact absurd rfl (hitem _)
  | other =>
    cases h
    exact ⟨.refl _, by rintro head ⟨⟩, by rintro type ⟨⟩⟩

theorem addAll_spec {items standing : List Item} (hstanding : Item.Standing items standing)
    (h : (c.addAll items).result = .ok c') :
    Extends c.description c'.description ∧ ∀ item ∈ standing, Holds c'.description item := by
  induction hstanding generalizing c c' with
  | nil =>
    cases h
    exact ⟨.refl _, by rintro item ⟨⟩⟩
  | item hitem _ ih =>
    rw [addAll, Traced.bind_result] at h
    obtain ⟨next, hnext, hrest⟩ := exists_of_bind_eq_ok h
    obtain ⟨hkept, hfirst⟩ := add_spec hitem hnext
    obtain ⟨hextends, hothers⟩ := ih hrest
    refine ⟨hkept.trans hextends, fun found hmem => ?_⟩
    cases hmem with
    | head => exact hextends.holds hfirst
    | tail _ hmem => exact hothers found hmem
  | outside _ ih =>
    rw [addAll_outside] at h
    exact ih h
  | module _ _ ihinner ihrest =>
    rw [addAll_module, addAll_append, Traced.bind_result] at h
    obtain ⟨next, hnext, hrest⟩ := exists_of_bind_eq_ok h
    obtain ⟨hkept, hbefore⟩ := ihinner hnext
    obtain ⟨hextends, hafter⟩ := ihrest hrest
    refine ⟨hkept.trans hextends, fun found hmem => ?_⟩
    cases List.mem_append.1 hmem with
    | inl hmem => exact hextends.holds (hbefore found hmem)
    | inr hmem => exact hafter found hmem

end Collection

theorem holds_of_ofSource {source : String} {items standing : List Item} {d : Description}
    (hfile : Grammar.file source = some items) (h : (Description.ofSource source).result = .ok d)
    (hstanding : Item.Standing items standing) {item : Item} (hmem : item ∈ standing) :
    Holds d item := by
  unfold Description.ofSource at h
  rw [hfile] at h
  simp only [Traced.bind_result, Traced.record_result, Traced.pure_result] at h
  obtain ⟨c, hc, heq⟩ := exists_of_bind_eq_ok h
  cases heq
  exact (Collection.addAll_spec hstanding hc).2 item hmem

/--
A type that is looked at for what an item exposes, and that consists of the identifier of an item
which declares a type, refers to that declaration, unless the identifier is the name of a scalar.
-/
theorem named_of_ofSource {source : String} {items standing : List Item} {d : Description}
    (hfile : Grammar.file source = some items) (h : (Description.ofSource source).result = .ok d)
    (hstanding : Item.Standing items standing) {item declaring : Item} (hitem : item ∈ standing)
    (hdeclaring : declaring ∈ standing) {head : TypeItemHead} (hhead : declaring.head? = some head)
    (hscalar : Scalar.ofNativeName? head.id = none) {global : Bool} {type : TypeExpr}
    (hexposes : item.Exposes type) (hreads : (TypeExpr.path global [.plain head.id]).Reads type) :
    (TypeExpr.path global [.plain head.id]).meaning = .ok (.named head.id)
      ∧ (∃ decl position, declaring.DeclaredAs d decl position ∧ decl.id = head.id)
      ∧ ∃ references, item.Makes d references ∧ ∃ site, (head.id, site) ∈ mentions references := by
  have hholds : ∀ found ∈ standing, Holds d found :=
    fun _ => holds_of_ofSource hfile h hstanding
  obtain ⟨decl, position, hdeclared⟩ := (hholds _ hdeclaring).declares head hhead
  obtain ⟨references, hmakes⟩ := (hholds _ hitem).exposes type hexposes
  obtain ⟨whole, hwhole, hwholes⟩ := hmakes.isMentionedIn hexposes
  obtain ⟨part, hpart, hmentions⟩ := hreads.meaning hwhole
  have hnamed : part = .named head.id := TypeExpr.eq_named_of_meaning hpart hscalar
  subst hnamed
  refine ⟨hpart, ⟨decl, position, hdeclared, hdeclared.id_eq hhead⟩, references, hmakes, ?_⟩
  obtain ⟨reference, hreference, hid⟩ := hwholes _ (hmentions _ .named)
  exact exists_mem_mentions hreference hid

def walkSource : String :=
  "pub struct Path;pub struct Point;pub fn walk(start:Path,stops:Vec<Point>)\x7b\x7d"

def isWalk : Option (List Item) → Bool
  | some [.struct path .unit, .struct point .unit, .function ⟨_, visibility, _, _, _,
      [.typed (some start) (.path false [.plain first]), .typed (some stops) (.path false
        [.generic container false [.type (.path false [.plain second])] false])], _⟩] =>
    path.id = "Path" ∧ point.id = "Point" ∧ visibility.isPublic = true ∧ start = "start"
      ∧ first = "Path" ∧ stops = "stops" ∧ container = "Vec" ∧ second = "Point"
  | _ => false

theorem file_walkSource : ∃ path point walk,
    Grammar.file walkSource = some [.struct path .unit, .struct point .unit, .function walk]
      ∧ path.id = "Path" ∧ point.id = "Point" ∧ walk.visibility.isPublic = true
      ∧ walk.inputs = [.typed (some "start") (.path false [.plain "Path"]),
        .typed (some "stops") (.path false
          [.generic "Vec" false [.type (.path false [.plain "Point"])] false])] := by
  have h : isWalk (Grammar.file walkSource) = true := by decide +kernel
  unfold isWalk at h
  split at h
  . next hfile =>
    obtain ⟨hpath, hpoint, hpublic, rfl, rfl, rfl, rfl, rfl⟩ := of_decide_eq_true h
    exact ⟨_, _, _, hfile, hpath, hpoint, hpublic, rfl⟩
  . cases h

theorem ofSource_walkSource : (Description.ofSource walkSource).result = .ok {
    types := [{ id := "Path", body := .struct [], exported := true },
      { id := "Point", body := .struct [], exported := true }]
    functions := [{
      name := "walk"
      params := [⟨"start", .scalar .string, .owned⟩,
        ⟨"stops", .vector (.named "Point"), .owned⟩] }] } := by
  decide +kernel

theorem standing_walk (path point : TypeItemHead) (walk : FunctionItem) :
    Item.Standing [.struct path .unit, .struct point .unit, .function walk]
      [.struct path .unit, .struct point .unit, .function walk] :=
  .item nofun (.item nofun (.item nofun .nil))

theorem named_walkSource : ∃ items standing d item declaring, ∃ head : TypeItemHead,
    ∃ type : TypeExpr,
    Grammar.file walkSource = some items ∧ (Description.ofSource walkSource).result = .ok d
      ∧ Item.Standing items standing ∧ item ∈ standing ∧ declaring ∈ standing
      ∧ declaring.head? = some head ∧ head.id = "Point" ∧ Scalar.ofNativeName? head.id = none
      ∧ item.Exposes type ∧ (TypeExpr.path false [.plain head.id]).Reads type
      ∧ (TypeExpr.path false [.plain head.id]).meaning = .ok (.named head.id)
      ∧ (∃ decl position, declaring.DeclaredAs d decl position ∧ decl.id = head.id)
      ∧ ∃ references, item.Makes d references
        ∧ ∃ site, (head.id, site) ∈ mentions references := by
  obtain ⟨path, point, walk, hfile, -, hpoint, hpublic, hinputs⟩ := file_walkSource
  have hstanding := standing_walk path point walk
  have hitem : Item.function walk ∈
      [Item.struct path .unit, .struct point .unit, .function walk] := by
    simp
  have hdeclaring : Item.struct point .unit ∈
      [Item.struct path .unit, .struct point .unit, .function walk] := by
    simp
  have hscalar : Scalar.ofNativeName? point.id = none := by
    rw [hpoint]
    decide
  have hexposes : (Item.function walk).Exposes (.path false
      [.generic "Vec" false [.type (.path false [.plain point.id])] false]) := by
    have hinput : .typed (some "stops") (.path false
        [.generic "Vec" false [.type (.path false [.plain point.id])] false]) ∈ walk.inputs := by
      rw [hinputs, hpoint]
      simp
    exact .param hpublic hinput
  have hreads : (TypeExpr.path false [.plain point.id]).Reads (.path false
      [.generic "Vec" false [.type (.path false [.plain point.id])] false]) :=
    .argument rfl (by simp [Argument.types, arity, mapNames]) .self
  exact ⟨_, _, _, _, _, point, _, hfile, ofSource_walkSource, hstanding, hitem, hdeclaring, rfl,
    hpoint, hscalar, hexposes, hreads, named_of_ofSource hfile ofSource_walkSource hstanding hitem
      hdeclaring rfl hscalar hexposes hreads⟩

/--
A struct may have the name of a scalar, and then that name does not refer to it.
-/
theorem scalar_walkSource : ∃ items standing d item declaring, ∃ head : TypeItemHead,
    Grammar.file walkSource = some items ∧ (Description.ofSource walkSource).result = .ok d
      ∧ Item.Standing items standing ∧ item ∈ standing ∧ declaring ∈ standing
      ∧ declaring.head? = some head ∧ item.Exposes (.path false [.plain head.id])
      ∧ (TypeExpr.path false [.plain head.id]).meaning ≠ .ok (.named head.id) := by
  obtain ⟨path, point, walk, hfile, hpath, -, hpublic, hinputs⟩ := file_walkSource
  have hinput : .typed (some "start") (.path false [.plain path.id]) ∈ walk.inputs := by
    rw [hinputs, hpath]
    simp
  refine ⟨_, _, _, .function walk, .struct path .unit, path, hfile, ofSource_walkSource,
    standing_walk path point walk, ?_, ?_, rfl, .param hpublic hinput, ?_⟩
  . simp
  . simp
  . rw [hpath]
    intro h
    have hmeaning : (TypeExpr.path false [.plain "Path"]).meaning = .ok (.scalar .string) := rfl
    rw [hmeaning] at h
    cases h

end Bindings.Native
