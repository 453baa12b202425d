import Bindings.Proofs.Native.TypeParts
import Mathlib.Logic.Relation

/-!
This module contains in which other ways a native type can be written without a change of what it
stands for: with something around its parts that leaves no trace, with segments before a path and
with other containers of the same kind.
-/

namespace Bindings.Native

theorem toOption_eq_some_iff {x : Except ε α} {a : α} : x.toOption = some a ↔ x = .ok a := by
  cases x <;> simp [Except.toOption]

theorem toOption_map (f : α → β) (x : Except ε α) : (f <$> x).toOption = x.toOption.map f := by
  cases x <;> rfl

theorem toOption_pair (f : α → β → γ) (x : Except ε α) (y : Except ε β) :
    Except.toOption (do return f (← x) (← y))
      = x.toOption.bind fun a => y.toOption.map (f a) := by
  cases x with
  | error => rfl
  | ok => cases y <;> rfl

section Names

variable {name : String} {argument key value : Except Refusal TypeRef}
variable {arguments others : List (Except Refusal TypeRef)}

theorem meaningOfName?_of_mem_transparentNames (h : name ∈ transparentNames) :
    meaningOfName? name (argument :: others) = some argument := by
  have hall : ∀ name ∈ transparentNames, containerNames.contains name = true
      ∧ mapNames.contains name = false ∧ sequenceNames.contains name = false
      ∧ name ≠ "Option" := by decide
  obtain ⟨hcontainer, hmap, hsequence, hoption⟩ := hall name h
  simp only [meaningOfName?, hcontainer, hmap, hsequence, hoption, Bool.false_eq_true, if_false]

theorem meaningOfName?_of_mem_sequenceNames (h : name ∈ sequenceNames) :
    meaningOfName? name (argument :: others) = some (.vector <$> argument) := by
  have hall : ∀ name ∈ sequenceNames, containerNames.contains name = true
      ∧ mapNames.contains name = false ∧ sequenceNames.contains name = true
      ∧ name ≠ "Option" := by decide
  obtain ⟨hcontainer, hmap, hsequence, hoption⟩ := hall name h
  simp only [meaningOfName?, hcontainer, hmap, hsequence, hoption, Bool.false_eq_true, if_false,
    if_true]

theorem meaningOfName?_of_mem_mapNames (h : name ∈ mapNames) :
    meaningOfName? name (key :: value :: others) = some (do return .map (← key) (← value)) := by
  have hall : ∀ name ∈ mapNames, containerNames.contains name = true
      ∧ mapNames.contains name = true := by decide
  obtain ⟨hcontainer, hmap⟩ := hall name h
  simp only [meaningOfName?, hcontainer, hmap, if_true]

theorem toOption_meaningOfName?_congr
    (h : arguments.map Except.toOption = others.map Except.toOption) :
    (meaningOfName? name arguments).bind Except.toOption
      = (meaningOfName? name others).bind Except.toOption := by
  match arguments, others, h with
  | [], [], _ => rfl
  | first :: arguments, other :: others, h =>
    obtain ⟨hfirst, hrest⟩ := List.cons.inj h
    unfold meaningOfName?
    cases containerNames.contains name with
    | false => rfl
    | true =>
      dsimp only [Option.bind_some]
      split
      . match arguments, others, hrest with
        | [], [], _ => rfl
        | second :: arguments, another :: others, hrest =>
          obtain ⟨hsecond, _⟩ := List.cons.inj hrest
          rw [toOption_pair, toOption_pair, hfirst, hsecond]
      . split
        . rw [toOption_map, toOption_map, hfirst]
        . split
          . rw [toOption_map, toOption_map, hfirst]
          . exact hfirst

end Names

namespace TypeExpr

theorem toOption_meaning_path (global : Bool) (segments : List Segment) :
    (path global segments).meaning.toOption
      = (meaningOfName? (Segment.lastName segments)
          ((Argument.types (Segment.lastArguments segments)).map meaning)).bind
            Except.toOption := by
  rw [meaning, Segment.lastMeaning_eq]
  dsimp only
  split
  . next hname => rw [hname, Option.bind_some]
  . next hname =>
    rw [hname]
    rfl

theorem toOption_meanings_congr {before after : List TypeExpr} {type other : TypeExpr}
    (h : type.meaning.toOption = other.meaning.toOption) :
    (meanings (before ++ type :: after)).toOption
      = (meanings (before ++ other :: after)).toOption := by
  induction before with
  | nil =>
    rw [List.nil_append, List.nil_append, meanings, meanings, toOption_pair, toOption_pair, h]
  | cons first before ih =>
    rw [List.cons_append, List.cons_append, meanings, meanings, toOption_pair, toOption_pair, ih]

inductive Applies (name : String) (types : List TypeExpr) : TypeExpr → Prop
  | path {global : Bool} {segments : List Segment} (hname : Segment.lastName segments = name)
    (htypes : Argument.types (Segment.lastArguments segments) = types) :
    Applies name types (.path global segments)

theorem Applies.toOption_meaning {name : String} {types : List TypeExpr} {whole : TypeExpr}
    (h : whole.Applies name types) :
    whole.meaning.toOption = (meaningOfName? name (types.map meaning)).bind Except.toOption := by
  cases h with
  | path hname htypes => rw [toOption_meaning_path, hname, htypes]

inductive Sequence (element : TypeExpr) : TypeExpr → Prop
  | container {whole : TypeExpr} {name : String} {others : List TypeExpr}
    (hname : name ∈ ["Vec", "VecDeque", "HashSet", "BTreeSet"])
    (h : whole.Applies name (element :: others)) :
    Sequence element whole
  | slice : Sequence element (.slice element)
  | array {length : List TokenTree} : Sequence element (.array element length)

theorem Sequence.toOption_meaning {element whole : TypeExpr} (h : Sequence element whole) :
    whole.meaning.toOption = element.meaning.toOption.map .vector := by
  cases h with
  | container hname h =>
    rw [h.toOption_meaning, List.map_cons, meaningOfName?_of_mem_sequenceNames hname,
      Option.bind_some, toOption_map]
  | slice => rw [meaning, toOption_map]
  | array => rw [meaning, toOption_map]

inductive Keyed (key value : TypeExpr) : TypeExpr → Prop
  | container {whole : TypeExpr} {name : String} {others : List TypeExpr}
    (hname : name ∈ ["HashMap", "BTreeMap"]) (h : whole.Applies name (key :: value :: others)) :
    Keyed key value whole

theorem Keyed.toOption_meaning {key value whole : TypeExpr} (h : Keyed key value whole) :
    whole.meaning.toOption
      = key.meaning.toOption.bind fun k => value.meaning.toOption.map (.map k) := by
  cases h with
  | container hname h =>
    rw [h.toOption_meaning, List.map_cons, List.map_cons, meaningOfName?_of_mem_mapNames hname,
      Option.bind_some, toOption_pair]

/--
A type is written in another way at one place. A part of it is wrapped, borrowed or parenthesized, a
path gets further segments before it, or a container is replaced by one of the same kind.
-/
inductive Respells : TypeExpr → TypeExpr → Prop
  | wrap {type whole : TypeExpr} {name : String} {others : List TypeExpr}
    (hname : name ∈ ["Result", "Box", "Rc", "Arc", "Cow", "RefCell", "Cell"])
    (h : whole.Applies name (type :: others)) :
    Respells type whole
  | borrow {type : TypeExpr} {lifetime : Option String} {mutable : Bool} :
    Respells type (.reference lifetime mutable type)
  | parenthesize {type : TypeExpr} : Respells type (.paren type)
  | qualify {global global' : Bool} {front segments : List Segment}
    (hfront : ∀ segment ∈ front, segment.arguments = []) (h : segments ≠ []) :
    Respells (.path global segments) (.path global' (front ++ segments))
  | sequence {element type other : TypeExpr} (h : Sequence element type)
    (hother : Sequence element other) : Respells type other
  | keyed {key value type other : TypeExpr} (h : Keyed key value type)
    (hother : Keyed key value other) : Respells type other
  | argument {global turbofish trailing : Bool} {front : List Segment} {name : String}
    {before after : List Argument} {type other : TypeExpr} (h : Respells type other) :
    Respells
      (.path global (front ++ [.generic name turbofish (before ++ .type type :: after) trailing]))
      (.path global (front ++ [.generic name turbofish (before ++ .type other :: after) trailing]))
  | target {lifetime : Option String} {mutable : Bool} {type other : TypeExpr}
    (h : Respells type other) :
    Respells (.reference lifetime mutable type) (.reference lifetime mutable other)
  | element {before after : List TypeExpr} {trailing : Bool} {type other : TypeExpr}
    (h : Respells type other) :
    Respells (.tuple (before ++ type :: after) trailing)
      (.tuple (before ++ other :: after) trailing)
  | slice {type other : TypeExpr} (h : Respells type other) :
    Respells (.slice type) (.slice other)
  | array {length : List TokenTree} {type other : TypeExpr} (h : Respells type other) :
    Respells (.array type length) (.array other length)
  | paren {type other : TypeExpr} (h : Respells type other) :
    Respells (.paren type) (.paren other)

theorem Respells.toOption_meaning {type other : TypeExpr} (h : type.Respells other) :
    type.meaning.toOption = other.meaning.toOption := by
  induction h with
  | wrap hname h =>
    rw [h.toOption_meaning, List.map_cons, meaningOfName?_of_mem_transparentNames hname,
      Option.bind_some]
  | borrow => rw [meaning]
  | parenthesize => rw [meaning]
  | qualify _ h =>
    rw [toOption_meaning_path, toOption_meaning_path, Segment.lastName_append _ h,
      Segment.lastArguments_append _ h]
  | sequence h hother => rw [h.toOption_meaning, hother.toOption_meaning]
  | keyed h hother => rw [h.toOption_meaning, hother.toOption_meaning]
  | argument _ ih =>
    have hlast : ∀ segment : Segment, [segment] ≠ [] := fun segment => List.cons_ne_nil segment []
    simp only [toOption_meaning_path, Segment.lastName_append _ (hlast _),
      Segment.lastArguments_append _ (hlast _)]
    apply toOption_meaningOfName?_congr
    simp only [Segment.lastArguments, List.getLast?_singleton, Option.map_some, Option.getD_some,
      Segment.arguments, Argument.types_append, Argument.types, List.map_append, List.map_cons, ih]
  | target _ ih => rw [meaning, meaning, ih]
  | element _ ih => rw [meaning, meaning, toOption_map, toOption_map, toOption_meanings_congr ih]
  | slice _ ih => rw [meaning, meaning, toOption_map, toOption_map, ih]
  | array _ ih => rw [meaning, meaning, toOption_map, toOption_map, ih]
  | paren _ ih => rw [meaning, meaning, ih]

/--
At however many places and however often a type is written in another way, it stands for the same
reference, and it is refused exactly if it was refused before.
-/
theorem meaning_of_respells {type other : TypeExpr}
    (h : Relation.ReflTransGen Respells type other) (reference : TypeRef) :
    type.meaning = .ok reference ↔ other.meaning = .ok reference := by
  rw [← toOption_eq_some_iff, ← toOption_eq_some_iff]
  induction h with
  | refl => rfl
  | tail _ hstep ih => rw [ih, hstep.toOption_meaning]

def point : TypeExpr :=
  .path false [.plain "Point"]

/--
The type `std::sync::Arc<geo::Point>`.
-/
def sharedPoint : TypeExpr :=
  .path false [.plain "std", .plain "sync",
    .generic "Arc" false [.type (.path false [.plain "geo", .plain "Point"])] false]

def vectorOf (element : TypeExpr) : TypeExpr :=
  .path false [.generic "Vec" false [.type element] false]

def pairOf (element : TypeExpr) : TypeExpr :=
  .array element [.literal "2" none {}]

/--
The type `Result<T, (Fault)>`.
-/
def resultOf (value : TypeExpr) : TypeExpr :=
  .path false [.generic "Result" false [.type value, .type (.paren (.path false [.plain "Fault"]))]
    false]

/--
The type `HashMap<u8, T>`.
-/
def byNumber (value : TypeExpr) : TypeExpr :=
  .path false [.generic "HashMap" false [.type (.path false [.plain "u8"]), .type value] false]

/--
The type `std::collections::BTreeMap<u8, T>`.
-/
def sortedByNumber (value : TypeExpr) : TypeExpr :=
  .path false [.plain "std", .plain "collections",
    .generic "BTreeMap" false [.type (.path false [.plain "u8"]), .type value] false]

theorem respells_sharedPoint : Relation.ReflTransGen Respells point sharedPoint := by
  have hpath : Respells point (.path false [.plain "geo", .plain "Point"]) :=
    @Respells.qualify false false [.plain "geo"] [.plain "Point"] (by decide) (List.cons_ne_nil _ _)
  have hwrap : Respells (.path false [.plain "geo", .plain "Point"]) sharedPoint :=
    .wrap (by decide) (.path rfl rfl)
  exact (Relation.ReflTransGen.single hpath).tail hwrap

theorem meaning_sortedByNumber :
    Relation.ReflTransGen Respells (byNumber (vectorOf point))
        (.reference none false (sortedByNumber (resultOf (pairOf sharedPoint))))
      ∧ (byNumber (vectorOf point)).meaning = .ok (.map (.scalar .u8) (.vector (.named "Point")))
      ∧ (reference none false (sortedByNumber (resultOf (pairOf sharedPoint)))).meaning
        = .ok (.map (.scalar .u8) (.vector (.named "Point"))) := by
  have hvector : Relation.ReflTransGen Respells (vectorOf point) (vectorOf sharedPoint) :=
    respells_sharedPoint.lift vectorOf fun _ _ h =>
      @Respells.argument false false false [] "Vec" [] [] _ _ h
  have hpair : Respells (vectorOf sharedPoint) (pairOf sharedPoint) :=
    .sequence (.container (by decide) (.path rfl rfl)) .array
  have hresult : Respells (pairOf sharedPoint) (resultOf (pairOf sharedPoint)) :=
    .wrap (by decide) (.path rfl rfl)
  have hvalue : Relation.ReflTransGen Respells (byNumber (vectorOf point))
      (byNumber (resultOf (pairOf sharedPoint))) :=
    ((hvector.tail hpair).tail hresult).lift byNumber fun _ _ h =>
      @Respells.argument false false false [] "HashMap" [.type (.path false [.plain "u8"])] [] _ _ h
  have hsorted : Respells (byNumber (resultOf (pairOf sharedPoint)))
      (sortedByNumber (resultOf (pairOf sharedPoint))) :=
    .keyed (.container (by decide) (.path rfl rfl)) (.container (by decide) (.path rfl rfl))
  have hsteps : Relation.ReflTransGen Respells (byNumber (vectorOf point))
      (.reference none false (sortedByNumber (resultOf (pairOf sharedPoint)))) :=
    (hvalue.tail hsorted).tail .borrow
  have hmeaning : (byNumber (vectorOf point)).meaning
      = .ok (.map (.scalar .u8) (.vector (.named "Point"))) := rfl
  exact ⟨hsteps, hmeaning, (meaning_of_respells hsteps _).1 hmeaning⟩

end TypeExpr

end Bindings.Native
