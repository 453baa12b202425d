import Bindings.Native.TypeMeaning
import Bindings.Proofs.Reference
import Bindings.Proofs.Validity
import Mathlib.Data.List.Basic

/-!
This module contains on which parts of a native type its meaning depends. Each of them has a meaning
of its own, and what that mentions is mentioned by the whole.
-/

namespace Bindings.Native

def Argument.types : List Argument → List TypeExpr
  | [] => []
  | .type inner :: arguments => inner :: Argument.types arguments
  | .lifetime _ :: arguments => Argument.types arguments
  | .other _ :: arguments => Argument.types arguments

theorem Argument.meanings_eq_map (arguments : List Argument) :
    Argument.meanings arguments = (Argument.types arguments).map TypeExpr.meaning := by
  induction arguments with
  | nil => rfl
  | cons argument arguments ih =>
    cases argument with
    | type type => rw [Argument.meanings, ih, types, List.map_cons]
    | lifetime text => rw [Argument.meanings, ih, types]
    | other tokens => rw [Argument.meanings, ih, types]

theorem Argument.types_append (front back : List Argument) :
    Argument.types (front ++ back) = Argument.types front ++ Argument.types back := by
  induction front with
  | nil => rfl
  | cons argument front ih =>
    cases argument with
    | type type => rw [List.cons_append, types, types, ih, List.cons_append]
    | lifetime text => rw [List.cons_append, types, types, ih]
    | other tokens => rw [List.cons_append, types, types, ih]

namespace Segment

def arguments : Segment → List Argument
  | plain _ => []
  | generic _ _ arguments _ => arguments

def lastName (segments : List Segment) : String :=
  (segments.getLast?.map name).getD ""

def lastArguments (segments : List Segment) : List Argument :=
  (segments.getLast?.map arguments).getD []

theorem lastName_append (front : List Segment) {segments : List Segment} (h : segments ≠ []) :
    lastName (front ++ segments) = lastName segments := by
  rw [lastName, List.getLast?_append_of_ne_nil front h, lastName]

theorem lastArguments_append (front : List Segment) {segments : List Segment}
    (h : segments ≠ []) : lastArguments (front ++ segments) = lastArguments segments := by
  rw [lastArguments, List.getLast?_append_of_ne_nil front h, lastArguments]

theorem lastMeaning_eq (segments : List Segment) :
    lastMeaning segments
      = (lastName segments, (Argument.types (lastArguments segments)).map TypeExpr.meaning) := by
  induction segments with
  | nil => rfl
  | cons segment segments ih =>
    cases segments with
    | nil =>
      cases segment with
      | plain name => rfl
      | generic name turbofish arguments trailing =>
        rw [lastMeaning, Argument.meanings_eq_map]
        rfl
    | cons next segments =>
      have hrest : next :: segments ≠ [] := List.cons_ne_nil next segments
      rw [show segment :: next :: segments = [segment] ++ (next :: segments) from rfl,
        lastName_append _ hrest, lastArguments_append _ hrest, ← ih]
      cases segment <;> rfl

end Segment

def arity (name : String) : Nat :=
  if mapNames.contains name then 2 else 1

theorem Segment.lastMeaning_of_getLast? {segments : List Segment} {name : String}
    {turbofish trailing : Bool} {arguments : List Argument}
    (h : segments.getLast? = some (.generic name turbofish arguments trailing)) :
    Segment.lastMeaning segments = (name, Argument.meanings arguments) := by
  rw [Segment.lastMeaning_eq, lastName, lastArguments, h, Argument.meanings_eq_map]
  rfl

inductive NameMeaning (name : String) : List (Except Refusal TypeRef) → TypeRef → Prop
  | plain (hname : containerNames.contains name = false) :
    NameMeaning name [] (((Scalar.ofNativeName? name).map .scalar).getD (.named name))
  | map {key value : TypeRef} : NameMeaning name [.ok key, .ok value] (.map key value)
  | option {inner : TypeRef} : NameMeaning name [.ok inner] (.option inner)
  | sequence {inner : TypeRef} : NameMeaning name [.ok inner] (.vector inner)
  | transparent {inner : TypeRef} : NameMeaning name [.ok inner] inner

theorem nameMeaning_of_eq_ok {name : String} {arguments : List (Except Refusal TypeRef)}
    {type : TypeRef} (h : meaningOfName? name arguments = some (.ok type)) :
    NameMeaning name (arguments.take (arity name)) type := by
  unfold meaningOfName? at h
  unfold arity
  split at h
  . next hname =>
    rw [Option.some.injEq, Except.ok.injEq] at h
    rw [List.take_nil, ← h]
    exact .plain hname
  . cases h
  . rw [Option.some.injEq] at h
    split at h
    . next hmap =>
      rw [if_pos hmap]
      split at h
      . obtain ⟨key, rfl, hkey⟩ := exists_of_bind_eq_ok h
        obtain ⟨value, rfl, hvalue⟩ := exists_of_bind_eq_ok hkey
        cases hvalue
        exact .map
      . cases h
    . next hmap =>
      rw [if_neg hmap]
      split at h
      . cases h
      . split at h
        . obtain ⟨inner, rfl, rfl⟩ := exists_of_map_eq_ok h
          exact .option
        . split at h
          . obtain ⟨inner, rfl, rfl⟩ := exists_of_map_eq_ok h
            exact .sequence
          . subst h
            exact .transparent

theorem NameMeaning.mentions {name : String} {arguments : List (Except Refusal TypeRef)}
    {type : TypeRef} (h : NameMeaning name arguments type) {argument : Except Refusal TypeRef}
    (hmem : argument ∈ arguments) :
    ∃ inner, argument = .ok inner ∧ ∀ id, inner.Mentions id → type.Mentions id := by
  cases h with
  | plain => cases hmem
  | @map key value =>
    rcases List.mem_pair.1 hmem with rfl | rfl
    . exact ⟨key, rfl, fun id => .mapKey⟩
    . exact ⟨value, rfl, fun id => .mapValue⟩
  | @option inner => exact ⟨inner, List.mem_singleton.1 hmem, fun id => .option⟩
  | @sequence inner => exact ⟨inner, List.mem_singleton.1 hmem, fun id => .vector⟩
  | transparent => exact ⟨type, List.mem_singleton.1 hmem, fun id h => h⟩

namespace TypeExpr

/--
A type is looked at for the meaning of another one: it is that type, or it stands in it where
something is looked at.
-/
inductive Reads (part : TypeExpr) : TypeExpr → Prop
  | self : Reads part part
  | argument {global : Bool} {segments : List Segment} {name : String} {turbofish trailing : Bool}
    {arguments : List Argument} {inner : TypeExpr}
    (hlast : segments.getLast? = some (.generic name turbofish arguments trailing))
    (hmem : inner ∈ (Argument.types arguments).take (arity name)) (h : Reads part inner) :
    Reads part (.path global segments)
  | target {lifetime : Option String} {mutable : Bool} {target : TypeExpr}
    (h : Reads part target) : Reads part (.reference lifetime mutable target)
  | element {element : TypeExpr} {elements : List TypeExpr} {trailing : Bool}
    (hmem : element ∈ elements) (h : Reads part element) : Reads part (.tuple elements trailing)
  | slice {element : TypeExpr} (h : Reads part element) : Reads part (.slice element)
  | array {element : TypeExpr} {length : List TokenTree} (h : Reads part element) :
    Reads part (.array element length)
  | paren {inner : TypeExpr} (h : Reads part inner) : Reads part (.paren inner)

theorem mem_of_meanings {types : List TypeExpr} {references : List TypeRef}
    (h : meanings types = .ok references) {type : TypeExpr} (hmem : type ∈ types) :
    ∃ reference ∈ references, type.meaning = .ok reference := by
  induction types generalizing references with
  | nil => cases hmem
  | cons first types ih =>
    rw [meanings] at h
    obtain ⟨reference, hfirst, h⟩ := exists_of_bind_eq_ok h
    obtain ⟨others, hothers, h⟩ := exists_of_bind_eq_ok h
    cases h
    cases hmem with
    | head => exact ⟨reference, List.mem_cons_self, hfirst⟩
    | tail _ hmem =>
      obtain ⟨other, hother, hmeaning⟩ := ih hothers hmem
      exact ⟨other, List.mem_cons_of_mem _ hother, hmeaning⟩

theorem Reads.meaning {part whole : TypeExpr} (h : part.Reads whole) {type : TypeRef}
    (hwhole : whole.meaning = .ok type) :
    ∃ inner, part.meaning = .ok inner ∧ ∀ id, inner.Mentions id → type.Mentions id := by
  induction h generalizing type with
  | self => exact ⟨type, hwhole, fun id h => h⟩
  | @argument global segments name turbofish trailing arguments inner hlast hmem _ ih =>
    rw [TypeExpr.meaning, Segment.lastMeaning_of_getLast? hlast] at hwhole
    dsimp only at hwhole
    split at hwhole
    . next meaning hname =>
      subst hwhole
      rw [Argument.meanings_eq_map] at hname
      have hargument := List.mem_map_of_mem (f := TypeExpr.meaning) hmem
      rw [List.map_take] at hargument
      obtain ⟨reference, hreference, hmentions⟩ :=
        (nameMeaning_of_eq_ok hname).mentions hargument
      obtain ⟨part, hpart, hinner⟩ := ih hreference
      exact ⟨part, hpart, fun id h => hmentions id (hinner id h)⟩
    . cases hwhole
  | target _ ih =>
    rw [TypeExpr.meaning] at hwhole
    exact ih hwhole
  | element hmem _ ih =>
    rw [TypeExpr.meaning] at hwhole
    obtain ⟨references, hreferences, rfl⟩ := exists_of_map_eq_ok hwhole
    obtain ⟨reference, hreference, hmeaning⟩ := mem_of_meanings hreferences hmem
    obtain ⟨part, hpart, hinner⟩ := ih hmeaning
    exact ⟨part, hpart, fun id h => .tuple hreference (hinner id h)⟩
  | slice _ ih =>
    rw [TypeExpr.meaning] at hwhole
    obtain ⟨reference, hreference, rfl⟩ := exists_of_map_eq_ok hwhole
    obtain ⟨part, hpart, hinner⟩ := ih hreference
    exact ⟨part, hpart, fun id h => .vector (hinner id h)⟩
  | array _ ih =>
    rw [TypeExpr.meaning] at hwhole
    obtain ⟨reference, hreference, rfl⟩ := exists_of_map_eq_ok hwhole
    obtain ⟨part, hpart, hinner⟩ := ih hreference
    exact ⟨part, hpart, fun id h => .vector (hinner id h)⟩
  | paren _ ih =>
    rw [TypeExpr.meaning] at hwhole
    exact ih hwhole

theorem eq_named_of_meaning {global : Bool} {name : String} {type : TypeRef}
    (h : (path global [.plain name]).meaning = .ok type)
    (hscalar : Scalar.ofNativeName? name = none) : type = .named name := by
  rw [TypeExpr.meaning, Segment.lastMeaning] at h
  dsimp only at h
  split at h
  . next meaning hname =>
    subst h
    have hmeaning := nameMeaning_of_eq_ok hname
    rw [List.take_nil] at hmeaning
    cases hmeaning
    rw [hscalar]
    rfl
  . cases h

end TypeExpr

end Bindings.Native
