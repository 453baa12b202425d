import Bindings.Native.Grammar.File
import Bindings.Proofs.Native.TypeParts

/-!
This module contains what an accepted native type carries on the paths that it refers to declared
types by. A type argument on the last segment is refused; constants, associated items and
constraints on it and everything on an earlier segment are overlooked.
-/

namespace Bindings.Native

namespace Argument

def isLifetime : Argument → Bool
  | lifetime _ => true
  | type _ | other _ => false

def isOther : Argument → Bool
  | other _ => true
  | lifetime _ | type _ => false

theorem forall_isLifetime_iff {arguments : List Argument} :
    (∀ argument ∈ arguments, argument.isLifetime = true)
      ↔ types arguments = [] ∧ ∀ argument ∈ arguments, argument.isOther = false := by
  induction arguments with
  | nil => simp [types]
  | cons argument arguments ih =>
    rw [List.forall_mem_cons, List.forall_mem_cons, ih]
    cases argument <;> simp [types, isLifetime, isOther]

end Argument

namespace Segment

/--
A path to a declared type. The name that it ends in is neither that of a container nor that of a
scalar.
-/
def IsUserPath (segments : List Segment) : Prop :=
  containerNames.contains (lastName segments) = false
    ∧ Scalar.ofNativeName? (lastName segments) = none

instance : DecidablePred IsUserPath :=
  fun segments => inferInstanceAs (Decidable (containerNames.contains (lastName segments) = false
    ∧ Scalar.ofNativeName? (lastName segments) = none))

def OnlyLifetimes (segments : List Segment) : Prop :=
  ∀ segment ∈ segments, ∀ argument ∈ segment.arguments, argument.isLifetime = true

instance : DecidablePred OnlyLifetimes :=
  fun segments => inferInstanceAs (Decidable (∀ segment ∈ segments,
    ∀ argument ∈ segment.arguments, argument.isLifetime = true))

/--
A path carries what nothing looks at: an argument of another kind on its last segment, or one that
is no lifetime on an earlier segment.
-/
def Overlooked (segments : List Segment) : Prop :=
  (∃ argument ∈ lastArguments segments, argument.isOther = true)
    ∨ ∃ segment ∈ segments.dropLast, ∃ argument ∈ segment.arguments, argument.isLifetime = false

theorem onlyLifetimes_iff {segments : List Segment} :
    OnlyLifetimes segments
      ↔ Argument.types (lastArguments segments) = [] ∧ ¬ Overlooked segments := by
  have hlast : OnlyLifetimes segments
      ↔ (∀ segment ∈ segments.dropLast, ∀ argument ∈ segment.arguments, argument.isLifetime = true)
        ∧ ∀ argument ∈ lastArguments segments, argument.isLifetime = true := by
    unfold OnlyLifetimes lastArguments
    rcases List.eq_nil_or_concat segments with rfl | ⟨front, last, rfl⟩
    . simp
    . rw [List.concat_eq_append, List.forall_mem_append, List.forall_mem_singleton,
        List.dropLast_concat, List.getLast?_concat]
      rfl
  rw [hlast, Argument.forall_isLifetime_iff, Overlooked, not_or, and_left_comm]
  simp only [not_exists, not_and, Bool.not_eq_true, Bool.not_eq_false]
  rw [and_comm (b := ∀ argument ∈ lastArguments segments, _)]

end Segment

open Segment

theorem NameMeaning.exists_of_mentions {name : String} {arguments : List (Except Refusal TypeRef)}
    {type : TypeRef} (h : NameMeaning name arguments type) {id : String} (hid : type.Mentions id) :
    (containerNames.contains name = false ∧ Scalar.ofNativeName? name = none ∧ name = id)
      ∨ ∃ argument ∈ arguments, ∃ inner, argument = .ok inner ∧ inner.Mentions id := by
  cases h with
  | plain hname =>
    cases hscalar : Scalar.ofNativeName? name with
    | some kind =>
      rw [hscalar] at hid
      cases hid
    | none =>
      rw [hscalar] at hid
      cases hid
      exact Or.inl ⟨hname, rfl, rfl⟩
  | @map key value =>
    right
    cases hid with
    | mapKey hid => exact ⟨_, List.mem_cons_self, key, rfl, hid⟩
    | mapValue hid => exact ⟨_, List.mem_cons_of_mem _ List.mem_cons_self, value, rfl, hid⟩
  | @option inner =>
    cases hid with
    | option hid => exact Or.inr ⟨_, List.mem_cons_self, inner, rfl, hid⟩
  | @sequence inner =>
    cases hid with
    | vector hid => exact Or.inr ⟨_, List.mem_cons_self, inner, rfl, hid⟩
  | transparent => exact Or.inr ⟨_, List.mem_cons_self, type, rfl, hid⟩

namespace TypeExpr

/--
Induction over the parts that a type can be looked at for. Of a path these are the types among the
arguments that it ends in.
-/
@[elab_as_elim]
theorem inductionOnParts {P : TypeExpr → Prop}
    (path : ∀ global segments, (∀ part ∈ Argument.types (lastArguments segments), P part) →
      P (.path global segments))
    (reference : ∀ lifetime mutable target, P target → P (.reference lifetime mutable target))
    (tuple : ∀ elements trailing, (∀ element ∈ elements, P element) → P (.tuple elements trailing))
    (slice : ∀ element, P element → P (.slice element))
    (array : ∀ element length, P element → P (.array element length))
    (paren : ∀ inner, P inner → P (.paren inner))
    (refused : ∀ form tokens, P (.refused form tokens)) (type : TypeExpr) : P type := by
  refine @TypeExpr.rec P (fun segment => ∀ part ∈ Argument.types segment.arguments, P part)
    (fun argument => ∀ part, argument = .type part → P part)
    (fun segments => ∀ part ∈ Argument.types (lastArguments segments), P part)
    (fun elements => ∀ element ∈ elements, P element)
    (fun arguments => ∀ part ∈ Argument.types arguments, P part)
    path reference tuple slice array paren refused
    ?_ ?_ ?_ ?_ ?_ ?_ ?_ ?_ ?_ ?_ ?_ type
  . intro name part hmem
    cases hmem
  . intro name turbofish arguments trailing ih
    exact ih
  . intro text part h
    cases h
  . intro type ih part h
    cases h
    exact ih
  . intro tokens part h
    cases h
  . intro part hmem
    cases hmem
  . intro head tail hhead htail
    cases tail with
    | nil => exact hhead
    | cons next tail =>
      rw [show head :: next :: tail = [head] ++ (next :: tail) from rfl,
        lastArguments_append _ (List.cons_ne_nil next tail)]
      exact htail
  . exact List.forall_mem_nil _
  . intro head tail hhead htail
    exact List.forall_mem_cons.2 ⟨hhead, htail⟩
  . exact List.forall_mem_nil _
  . intro head tail hhead htail part hmem
    cases head with
    | type type =>
      cases hmem with
      | head => exact hhead _ rfl
      | tail _ hmem => exact htail part hmem
    | lifetime text => exact htail part hmem
    | other tokens => exact htail part hmem

theorem Reads.path {part inner : TypeExpr} (h : part.Reads inner) {global : Bool}
    {segments : List Segment}
    (hmem : inner ∈ (Argument.types (lastArguments segments)).take (arity (lastName segments))) :
    part.Reads (.path global segments) := by
  unfold lastArguments lastName at hmem
  cases hlast : segments.getLast? with
  | none =>
    rw [hlast] at hmem
    cases hmem
  | some last =>
    rw [hlast] at hmem
    cases last with
    | plain name => simp [Segment.arguments, Argument.types] at hmem
    | generic name turbofish arguments trailing => exact .argument hlast hmem h

theorem eq_named_of_meaning_userPath {global : Bool} {segments : List Segment}
    (huser : IsUserPath segments) {reference : TypeRef}
    (h : (path global segments).meaning = .ok reference) :
    Argument.types (lastArguments segments) = []
      ∧ reference = .named (lastName segments) := by
  obtain ⟨hcontainer, hscalar⟩ := huser
  rw [meaning, lastMeaning_eq] at h
  dsimp only at h
  cases htypes : Argument.types (lastArguments segments) with
  | nil =>
    rw [htypes, List.map_nil] at h
    simp only [meaningOfName?, hcontainer, hscalar, Option.map_none, Option.getD_none] at h
    exact ⟨rfl, (Except.ok.inj h).symm⟩
  | cons first others =>
    rw [htypes, List.map_cons] at h
    simp only [meaningOfName?, hcontainer, reduceCtorEq] at h

theorem exists_of_mem_meanings {types : List TypeExpr} {references : List TypeRef}
    (h : meanings types = .ok references) {reference : TypeRef} (hmem : reference ∈ references) :
    ∃ type ∈ types, type.meaning = .ok reference := by
  induction types generalizing references with
  | nil =>
    cases h
    cases hmem
  | cons first types ih =>
    rw [meanings] at h
    obtain ⟨found, hfirst, h⟩ := exists_of_bind_eq_ok h
    obtain ⟨others, hothers, h⟩ := exists_of_bind_eq_ok h
    cases h
    cases hmem with
    | head => exact ⟨first, List.mem_cons_self, hfirst⟩
    | tail _ hmem =>
      obtain ⟨type, htype, hmeaning⟩ := ih hothers hmem
      exact ⟨type, List.mem_cons_of_mem _ htype, hmeaning⟩

def RefersBy (id : String) (type : TypeExpr) : Prop :=
  ∃ global segments, (path global segments).Reads type ∧ IsUserPath segments
    ∧ lastName segments = id

theorem refersBy_of_mentions {id : String} (type : TypeExpr) {reference : TypeRef}
    (h : type.meaning = .ok reference) (hid : reference.Mentions id) : RefersBy id type := by
  induction type using inductionOnParts generalizing reference with
  | path global segments ih =>
    rw [meaning, lastMeaning_eq] at h
    dsimp only at h
    split at h
    . next hname =>
      subst h
      rcases (nameMeaning_of_eq_ok hname).exists_of_mentions hid with
        ⟨hcontainer, hscalar, heq⟩ | ⟨argument, hmem, inner, rfl, hid⟩
      . exact ⟨global, segments, .self, ⟨hcontainer, hscalar⟩, heq⟩
      . rw [← List.map_take, List.mem_map] at hmem
        obtain ⟨part, hpart, hmeaning⟩ := hmem
        obtain ⟨_, _, hreads, huser⟩ := ih part (List.mem_of_mem_take hpart) hmeaning hid
        exact ⟨_, _, hreads.path hpart, huser⟩
    . cases h
  | reference lifetime mutable target ih =>
    rw [meaning] at h
    obtain ⟨_, _, hreads, huser⟩ := ih h hid
    exact ⟨_, _, .target hreads, huser⟩
  | tuple elements trailing ih =>
    rw [meaning] at h
    obtain ⟨references, hreferences, rfl⟩ := exists_of_map_eq_ok h
    cases hid with
    | tuple hmem hid =>
      obtain ⟨element, helement, hmeaning⟩ := exists_of_mem_meanings hreferences hmem
      obtain ⟨_, _, hreads, huser⟩ := ih element helement hmeaning hid
      exact ⟨_, _, .element helement hreads, huser⟩
  | slice element ih =>
    rw [meaning] at h
    obtain ⟨inner, hinner, rfl⟩ := exists_of_map_eq_ok h
    cases hid with
    | vector hid =>
      obtain ⟨_, _, hreads, huser⟩ := ih hinner hid
      exact ⟨_, _, .slice hreads, huser⟩
  | array element length ih =>
    rw [meaning] at h
    obtain ⟨inner, hinner, rfl⟩ := exists_of_map_eq_ok h
    cases hid with
    | vector hid =>
      obtain ⟨_, _, hreads, huser⟩ := ih hinner hid
      exact ⟨_, _, .array hreads, huser⟩
  | paren inner ih =>
    rw [meaning] at h
    obtain ⟨_, _, hreads, huser⟩ := ih h hid
    exact ⟨_, _, .paren hreads, huser⟩
  | refused form tokens =>
    rw [meaning] at h
    cases h

/--
An accepted type refers to exactly the declared types that the paths name by which it refers. Each
of these paths ends in no type argument, so that a type in which one does is refused. It carries
lifetimes only exactly if nothing on it is overlooked: no constant, associated item or constraint on
its last segment and nothing but lifetimes on the earlier ones.
-/
theorem userPaths_of_meaning {type : TypeExpr} {reference : TypeRef}
    (h : type.meaning = .ok reference) :
    (∀ id, reference.Mentions id ↔ RefersBy id type)
      ∧ ∀ global segments, (path global segments).Reads type → IsUserPath segments →
          Argument.types (lastArguments segments) = []
            ∧ (OnlyLifetimes segments ↔ ¬ Overlooked segments) := by
  constructor
  . intro id
    constructor
    . exact refersBy_of_mentions type h
    . rintro ⟨global, segments, hreads, huser, rfl⟩
      obtain ⟨inner, hinner, hmentions⟩ := hreads.meaning h
      obtain ⟨_, rfl⟩ := eq_named_of_meaning_userPath huser hinner
      exact hmentions _ .named
  . intro global segments hreads huser
    obtain ⟨inner, hinner, _⟩ := hreads.meaning h
    obtain ⟨htypes, _⟩ := eq_named_of_meaning_userPath huser hinner
    refine ⟨htypes, ?_⟩
    rw [onlyLifetimes_iff]
    exact and_iff_right htypes

def borrowedPoint : List Segment :=
  [.plain "geo", .generic "Point" false [.lifetime "'a"] false]

/--
The type `HashMap<u8, Box<geo::Point<'a>>>`.
-/
def boxedPoints : TypeExpr :=
  .path false [.generic "HashMap" false [.type (.path false [.plain "u8"]),
    .type (.path false [.generic "Box" false [.type (.path false borrowedPoint)] false])] false]

theorem onlyLifetimes_borrowedPoint :
    boxedPoints.meaning = .ok (.map (.scalar .u8) (.named "Point"))
      ∧ (path false borrowedPoint).Reads boxedPoints ∧ IsUserPath borrowedPoint
      ∧ ¬ Overlooked borrowedPoint ∧ OnlyLifetimes borrowedPoint := by
  have hmeaning : boxedPoints.meaning = .ok (.map (.scalar .u8) (.named "Point")) := rfl
  have hreads : (path false borrowedPoint).Reads boxedPoints := by
    have hbox : (path false borrowedPoint).Reads
        (.path false [.generic "Box" false [.type (.path false borrowedPoint)] false]) :=
      .argument rfl (by simp [Argument.types, arity, mapNames]) .self
    exact .argument rfl (by simp [Argument.types, arity, mapNames]) hbox
  have huser : IsUserPath borrowedPoint := ⟨by decide, by decide⟩
  have hoverlooked : ¬ Overlooked borrowedPoint := by
    simp [Overlooked, borrowedPoint, lastArguments, Segment.arguments, Argument.isOther]
  exact ⟨hmeaning, hreads, huser, hoverlooked,
    ((userPaths_of_meaning hmeaning).2 _ _ hreads huser).2.2 hoverlooked⟩

/--
A text is read as a path to a declared type that is accepted as the bare name of this type though a
segment carries more than lifetimes.
-/
def AcceptedAsBareName (text : String) : Prop :=
  ∃ global segments, Grammar.typeText text = some (.path global segments) ∧ IsUserPath segments
    ∧ (path global segments).meaning = .ok (.named (lastName segments))
    ∧ ¬ OnlyLifetimes segments

instance (text : String) : Decidable (AcceptedAsBareName text) :=
  match h : Grammar.typeText text with
  | some (.path global segments) =>
    decidable_of_iff (IsUserPath segments
        ∧ (path global segments).meaning = .ok (.named (lastName segments))
        ∧ ¬ OnlyLifetimes segments) (by simp [AcceptedAsBareName, h])
  | none | some (.reference ..) | some (.tuple ..) | some (.slice _) | some (.array ..)
  | some (.paren _) | some (.refused ..) => isFalse (by simp [AcceptedAsBareName, h])

/--
A constant, an associated item and an argument of an earlier segment are overlooked.
-/
theorem acceptedAsBareName_matrix : AcceptedAsBareName "Matrix<3>"
    ∧ AcceptedAsBareName "Stream<Item = u8>" ∧ AcceptedAsBareName "Wrapper<u8>::Inner" := by
  decide +kernel

end TypeExpr

end Bindings.Native
