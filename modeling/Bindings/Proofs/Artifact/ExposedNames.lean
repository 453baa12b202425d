import Bindings.Proofs.Artifact.TypeShape
import Bindings.Proofs.Artifact.VariantTags
import Bindings.Proofs.Artifact.Words
import Bindings.Proofs.Text.Assignment

/-!
This module contains the names that the value of a type exposes: those that stand in it outside of
every object, array, tuple and map. They are said for declarations and read off the printed values.
-/

namespace Bindings

inductive TypeRef.Exposes (id : String) : TypeRef → Prop
  | named : Exposes id (.named id)
  | option {inner : TypeRef} (h : Exposes id inner) : Exposes id (.option inner)

def Tagging.isOpen : Tagging → Bool
  | internal _ => true
  | untagged => true
  | external => false
  | adjacent _ _ => false

/--
A declaration refers to an identifier outside of every object, array, tuple and map: as its target,
as a part of an intersection or as a payload that nothing is put around. Options do not matter.
-/
inductive TypeDecl.Exposes (decl : TypeDecl) (id : String) : Prop
  | target {target : TypeRef} (hbody : decl.body = .typeAlias target) (h : target.Exposes id)
  | flattened {fields : List Field} {field : Field} (hbody : decl.body = .struct fields)
    (hfield : field ∈ fields) (hflatten : field.flatten = true) (h : field.type.Exposes id)
  | newtype {tagging : Tagging} {variants : List Variant} {variant : Variant} {type : TypeRef}
    (hbody : decl.body = .enum tagging variants) (hopen : tagging.isOpen = true)
    (hvariant : variant ∈ variants) (hpayload : variant.payload = .newtype type)
    (h : type.Exposes id)
  | part {tagging : Tagging} {variants : List Variant} {variant : Variant} {fields : List Field}
    {field : Field} (hbody : decl.body = .enum tagging variants) (hopen : tagging.isOpen = true)
    (hvariant : variant ∈ variants) (hpayload : variant.payload = .struct fields)
    (hfield : field ∈ fields) (hflatten : field.flatten = true) (h : field.type.Exposes id)

section Words

variable (o : Options)

def TypeRef.exposedWords : TypeRef → List Word
  | scalar kind => [.builtin (kind.text o.largeIntegers)]
  | named id => [.reference id]
  | option inner => inner.exposedWords ++ [.builtin o.absence.keyword]
  | vector _ | tuple _ | map _ _ => []

def TypeRef.partWords : TypeRef → List Word
  | option inner => inner.exposedWords o
  | type => type.exposedWords o

def partWords (fields : List Field) : List Word :=
  (fields.filter (·.flatten)).flatMap fun field => field.type.partWords o

def Payload.exposedWords : Payload → List Word
  | unit => []
  | newtype type => type.exposedWords o
  | tuple _ => []
  | struct fields => partWords o fields

def Variant.exposedWords (tagging : Tagging) (variant : Variant) : List Word :=
  match tagging, variant.payload with
  | .untagged, .unit => [.builtin o.absence.keyword]
  | tagging, payload => if tagging.isOpen then payload.exposedWords o else []

def Body.exposedWords : Body → List Word
  | struct fields => partWords o fields
  | enum tagging variants =>
    if variants.isEmpty then [.builtin "never"]
    else variants.flatMap (Variant.exposedWords o tagging)
  | typeAlias target => target.exposedWords o

variable {o} {id : String}

theorem TypeRef.mem_exposedWords_iff {type : TypeRef} :
    .reference id ∈ type.exposedWords o ↔ type.Exposes id := by
  induction type using exposedWords.induct with
  | case1 kind =>
    rw [exposedWords, List.mem_singleton]
    constructor
    . intro h
      cases h
    . intro h
      cases h
  | case2 name =>
    rw [exposedWords, List.mem_singleton]
    constructor
    . intro h
      cases h
      exact .named
    . intro h
      cases h
      rfl
  | case3 inner ih =>
    rw [exposedWords, List.mem_append, List.mem_singleton, ih]
    constructor
    . rintro (h | h)
      . exact .option h
      . cases h
    . intro h
      cases h with
      | option h => exact Or.inl h
  | case4 element => exact ⟨nofun, nofun⟩
  | case5 elements => exact ⟨nofun, nofun⟩
  | case6 key value => exact ⟨nofun, nofun⟩

theorem mem_partWords_iff {fields : List Field} :
    .reference id ∈ partWords o fields
      ↔ ∃ field ∈ fields, field.flatten = true ∧ field.type.Exposes id := by
  have hpart : ∀ type : TypeRef, .reference id ∈ type.partWords o ↔ type.Exposes id := by
    intro type
    cases type with
    | option inner =>
      rw [TypeRef.partWords, TypeRef.mem_exposedWords_iff]
      constructor
      . exact .option
      . intro h
        cases h with
        | option h => exact h
    | _ => exact TypeRef.mem_exposedWords_iff
  simp only [partWords, List.mem_flatMap, List.mem_filter, hpart, and_assoc]

theorem Payload.mem_exposedWords_iff {payload : Payload} :
    .reference id ∈ payload.exposedWords o
      ↔ (∃ type, payload = .newtype type ∧ type.Exposes id)
        ∨ ∃ fields, payload = .struct fields
          ∧ ∃ field ∈ fields, field.flatten = true ∧ field.type.Exposes id := by
  cases payload with
  | unit => simp [exposedWords]
  | newtype type => simp [exposedWords, TypeRef.mem_exposedWords_iff]
  | tuple elements => simp [exposedWords]
  | struct fields => simp [exposedWords, mem_partWords_iff]

theorem Variant.mem_exposedWords_iff {tagging : Tagging} {variant : Variant} :
    .reference id ∈ variant.exposedWords o tagging
      ↔ tagging.isOpen = true ∧ .reference id ∈ variant.payload.exposedWords o := by
  unfold exposedWords
  split
  . next hpayload => simp [hpayload, Payload.exposedWords]
  . split
    . next hopen => simp [hopen]
    . next hopen => simp [hopen]

theorem TypeDecl.mem_exposedWords_iff {decl : TypeDecl} :
    .reference id ∈ decl.body.exposedWords o ↔ decl.Exposes id := by
  constructor
  . intro h
    cases hbody : decl.body with
    | struct fields =>
      rw [hbody, Body.exposedWords, mem_partWords_iff] at h
      obtain ⟨field, hfield, hflatten, hexposes⟩ := h
      exact .flattened hbody hfield hflatten hexposes
    | enum tagging variants =>
      rw [hbody, Body.exposedWords] at h
      split at h
      . rw [List.mem_singleton] at h
        cases h
      . obtain ⟨variant, hvariant, h⟩ := List.mem_flatMap.1 h
        obtain ⟨hopen, h⟩ := Variant.mem_exposedWords_iff.1 h
        rcases Payload.mem_exposedWords_iff.1 h with ⟨type, hpayload, hexposes⟩
          | ⟨fields, hpayload, field, hfield, hflatten, hexposes⟩
        . exact .newtype hbody hopen hvariant hpayload hexposes
        . exact .part hbody hopen hvariant hpayload hfield hflatten hexposes
    | typeAlias target =>
      rw [hbody, Body.exposedWords, TypeRef.mem_exposedWords_iff] at h
      exact .target hbody h
  . have hvariants : ∀ {tagging : Tagging} {variants : List Variant} {variant : Variant},
        decl.body = .enum tagging variants → tagging.isOpen = true → variant ∈ variants →
          .reference id ∈ variant.payload.exposedWords o →
            .reference id ∈ decl.body.exposedWords o := by
      intro tagging variants variant hbody hopen hvariant h
      rw [hbody, Body.exposedWords, if_neg (by simpa using List.ne_nil_of_mem hvariant)]
      exact List.mem_flatMap.2 ⟨variant, hvariant, Variant.mem_exposedWords_iff.2 ⟨hopen, h⟩⟩
    intro h
    cases h with
    | target hbody h =>
      rw [hbody]
      exact TypeRef.mem_exposedWords_iff.2 h
    | flattened hbody hfield hflatten h =>
      rw [hbody]
      exact mem_partWords_iff.2 ⟨_, hfield, hflatten, h⟩
    | newtype hbody hopen hvariant hpayload h =>
      exact hvariants hbody hopen hvariant
        (Payload.mem_exposedWords_iff.2 (Or.inl ⟨_, hpayload, h⟩))
    | part hbody hopen hvariant hpayload hfield hflatten h =>
      exact hvariants hbody hopen hvariant
        (Payload.mem_exposedWords_iff.2 (Or.inr ⟨_, hpayload, _, hfield, hflatten, h⟩))

end Words

namespace Artifact

open Text

def Exposing (text : String) (names : List String) : Prop :=
  ∃ trees, Reads text trees ∧ Marked ['&', '|'] trees ∧ exposed trees = names

def Operator (text : String) : Prop :=
  ∃ trees c, Reads text trees ∧ Marked ['&', '|'] trees ∧ pieces trees = [.sign c]
    ∧ ['&', '|'].contains c = true

namespace Operator

variable {text before : String}

theorem pad (hbefore : Void before) (h : Operator text) : Operator (before ++ text) := by
  obtain ⟨blanks, hblanks, hblank⟩ := hbefore
  obtain ⟨trees, c, hreads, hmarked, hpieces, hc⟩ := h
  refine ⟨blanks ++ trees, c, hblanks.append hreads, (Marked.blank hblank).append hmarked, ?_, hc⟩
  rw [pieces_append, pieces_blank hblank, hpieces, List.nil_append]

theorem ampersand : Operator " & " :=
  ⟨_, '&', Reads.signs rfl, Marked.of_all rfl, rfl, rfl⟩

theorem bar : Operator " | " :=
  ⟨_, '|', Reads.signs rfl, Marked.of_all rfl, rfl, rfl⟩

theorem leadingBar : Operator "| " :=
  ⟨_, '|', Reads.signs rfl, Marked.of_all rfl, rfl, rfl⟩

end Operator

namespace Exposing

variable {text other separator : String} {names more : List String}

theorem identifier {name : String} (h : Identifier.isIdentifier name = true) :
    Exposing name [name] := by
  have hmarked : Marked ['&', '|'] (spelled name) := by
    apply Marked.signs
    intro c hmem hc
    exact absurd hc (Identifier.not_mem_of_mem h rfl c hmem)
  exact ⟨_, reads_identifier h, hmarked, exposed_spelled h⟩

theorem join (h : Exposing text names) (hseparator : Operator separator)
    (hother : Exposing other more) : Exposing (text ++ separator ++ other) (names ++ more) := by
  obtain ⟨trees, hreads, hmarked, hnames⟩ := h
  obtain ⟨signs, c, hsigns, hbetween, hpieces, hc⟩ := hseparator
  obtain ⟨trees', hreads', hmarked', hmore⟩ := hother
  refine ⟨_, (hreads.append hsigns).append hreads',
    (hmarked.append hbetween).append hmarked', ?_⟩
  rw [exposed_append hpieces hc, hnames, hmore]

theorem empty : Exposing "" [] :=
  ⟨[], Reads.signs rfl, Marked.blank (List.forall_mem_nil _), rfl⟩

theorem pad {before : String} (hbefore : Void before) (h : Exposing text names) :
    Exposing (before ++ text) names := by
  obtain ⟨blanks, hblanks, hblank⟩ := hbefore
  obtain ⟨trees, hreads, hmarked, hnames⟩ := h
  refine ⟨blanks ++ trees, hblanks.append hreads, (Marked.blank hblank).append hmarked, ?_⟩
  rw [exposed, pieces_append, pieces_blank hblank, List.nil_append]
  exact hnames

theorem round (h : Exposing text names) : Exposing ("(" ++ text ++ ")") names := by
  obtain ⟨trees, hreads, _, hnames⟩ := h
  exact ⟨_, hreads.round, Marked.group _ _, by rw [exposed_round, hnames]⟩

theorem curly (h : Readable text) : Exposing ("\x7b" ++ text ++ "\x7d") [] := by
  obtain ⟨trees, hreads⟩ := h
  exact ⟨_, hreads.curly, Marked.group _ _,
    exposed_eq_nil (Marked.group _ _) (by decide) (List.mem_singleton_self _)⟩

theorem braced (h : Readable text) : Exposing (braced text) [] := by
  have hspace : Readable " " := ⟨_, Reads.signs rfl⟩
  rw [braced_eq]
  obtain ⟨trees, hreads⟩ := h
  obtain ⟨blanks, hblanks⟩ := hspace
  exact curly ⟨_, (hblanks.append hreads).append hblanks⟩

theorem emptyObject : Exposing emptyObject [] := by
  have hnone : Reads "" [] := Reads.signs rfl
  exact curly ⟨_, hnone⟩

theorem quoted (name : String) : Exposing (Quoted.encode name) [] :=
  ⟨_, Reads.quoted name, Marked.literal _, rfl⟩

theorem joinWith {elements : List α} {text : α → String} {names : α → List String}
    (hseparator : Operator separator)
    (h : ∀ element ∈ elements, Exposing (text element) (names element)) :
    Exposing (Text.joinWith separator (elements.map text)) (elements.flatMap names) := by
  induction elements with
  | nil => exact empty
  | cons element elements ih =>
    rw [List.forall_mem_cons] at h
    cases elements with
    | nil => simpa using h.1
    | cons next elements => exact h.1.join hseparator (ih h.2)

theorem rows {elements : List α} {before text : α → String} {names : α → List String}
    (hbefore : ∀ element ∈ elements, Operator (before element))
    (h : ∀ element ∈ elements, Exposing (text element) (names element)) {front : String}
    {base : List String} (hfront : Exposing front base) (hne : elements ≠ []) :
    Exposing (front ++ "\n" ++ Text.joinWith "\n"
      (elements.map fun element => before element ++ text element))
        (base ++ elements.flatMap names) := by
  have hfeed : Void "\n" := Void.blank rfl
  induction elements generalizing front base with
  | nil => exact absurd rfl hne
  | cons element elements ih =>
    rw [List.forall_mem_cons] at hbefore h
    have hrow := hfront.join (hbefore.1.pad hfeed) h.1
    cases elements with
    | nil => simpa [String.append_assoc] using hrow
    | cons next elements =>
      have hrows := ih hbefore.2 h.2 hrow (List.cons_ne_nil _ _)
      simpa [joinWith_cons_cons, String.append_assoc, List.append_assoc] using hrows

end Exposing

section Values

variable {quotable : String → Prop} {nameOf : String → String} {o : Options}

theorem exposed_typeTrees {type : TypeRef} (hnamed : type.NamedBy nameOf) :
    exposed (typeTrees nameOf o type) = (type.exposedWords o).map (Word.text nameOf) := by
  have hmarked := marked_typeTrees (o := o) hnamed
  induction type using TypeRef.exposedWords.induct with
  | case1 kind => exact exposed_spelled (isIdentifier_scalar o.largeIntegers kind)
  | case2 id => exact exposed_spelled (hnamed id .named)
  | case3 inner ih =>
    have hinner : inner.NamedBy nameOf := fun id hmention => hnamed id (.option hmention)
    have hbar : pieces (spelled " | ") = [.sign '|'] := rfl
    rw [typeTrees, exposed_append hbar rfl, ih hinner (marked_typeTrees hinner),
      exposed_spelled (isIdentifier_absence o.absence), TypeRef.exposedWords, List.map_append]
    rfl
  -- The parentheses of an element expose nothing: the brackets after them are in the same operand.
  | case4 element =>
    apply exposed_eq_nil hmarked (by decide : '[' ≠ '(')
    rw [typeTrees]
    exact List.mem_append_right _ (List.mem_singleton_self _)
  | case5 elements =>
    exact exposed_eq_nil hmarked (by decide : '[' ≠ '(') (List.mem_singleton_self _)
  | case6 key value =>
    apply exposed_eq_nil hmarked (by decide : '<' ≠ '(')
    rw [typeTrees]
    exact List.mem_append_right _ (List.mem_singleton_self _)

theorem exposing_typeText {type : TypeRef} (hnamed : type.NamedBy nameOf) :
    Exposing (typeText nameOf o type) ((type.exposedWords o).map (Word.text nameOf)) :=
  ⟨_, reads_typeText type hnamed,
    (marked_typeTrees hnamed).mono (List.Subset.trans (typeMarks_subset type) (by decide)),
    exposed_typeTrees hnamed⟩

theorem exposing_flattenedText {type : TypeRef} (hnamed : type.NamedBy nameOf) :
    Exposing (flattenedText nameOf o type) ((type.partWords o).map (Word.text nameOf)) := by
  cases type with
  | option inner =>
    have hinner : inner.NamedBy nameOf := fun id hmention => hnamed id (.option hmention)
    have hunion := (exposing_typeText (o := o) hinner).join Operator.bar Exposing.emptyObject
    rw [List.append_nil] at hunion
    have hround : Exposing (flattenedText nameOf o (.option inner))
        ((inner.exposedWords o).map (Word.text nameOf)) := by
      simpa [flattenedText, String.append_assoc] using hunion.round
    exact hround
  | _ => exact exposing_typeText hnamed

theorem exposing_flattenedParts {fields : List Field}
    (hfields : ∀ field ∈ fields, field.Writable quotable nameOf) :
    Exposing (joinWith " & " (flattenedParts nameOf o fields))
      ((partWords o fields).map (Word.text nameOf)) := by
  rw [partWords, List.map_flatMap]
  apply Exposing.joinWith Operator.ampersand
  intro field hmem
  exact exposing_flattenedText (hfields field (List.mem_filter.1 hmem).1).type

theorem partWords_eq_nil {fields : List Field}
    (h : (flattenedParts nameOf o fields).isEmpty = true) : partWords o fields = [] := by
  rw [flattenedParts, List.isEmpty_map, List.isEmpty_iff] at h
  rw [partWords, h, List.flatMap_nil]

theorem exposing_objectText {leading : List String} {fields : List Field}
    (hleading : ∀ property ∈ leading, Readable property)
    (hfields : ∀ field ∈ fields, field.Writable quotable nameOf) :
    Exposing (objectText nameOf o leading fields)
      ((partWords o fields).map (Word.text nameOf)) := by
  have htexture := texture_readable quotable
  have hparts := exposing_flattenedParts (o := o) hfields
  have hproperties : ∀ property ∈ leading ++ properties nameOf o fields, Readable property := by
    intro property hmem
    cases List.mem_append.1 hmem with
    | inl hmem => exact hleading property hmem
    | inr hmem => exact htexture.properties hfields property hmem
  have hsemicolon : "; ".toList.all isSign = true := rfl
  have hobject := Exposing.braced (htexture.joinWith hsemicolon hproperties)
  unfold objectText
  dsimp only
  split
  . split
    . next hempty =>
      rw [partWords_eq_nil hempty]
      exact Exposing.emptyObject
    . exact hparts
  . cases hempty : (flattenedParts nameOf o fields).isEmpty with
    | true =>
      rw [partWords_eq_nil hempty, List.isEmpty_iff.1 hempty]
      exact hobject
    | false =>
      have hne : flattenedParts nameOf o fields ≠ [] := by
        rintro hnil
        rw [hnil] at hempty
        cases hempty
      rw [joinWith_cons hne]
      exact hobject.join Operator.ampersand hparts

theorem exposing_parenthesize {text : String} {names : List String} (h : Exposing text names) :
    Exposing (parenthesize text) names := by
  unfold parenthesize
  split
  . exact h.round
  . exact h

theorem exposing_memberText {tagging : Tagging} {variant : Variant}
    (htagging : tagging.Writable quotable) (hvariant : variant.Writable quotable nameOf) :
    Exposing (memberText nameOf o tagging variant)
      ((variant.exposedWords o tagging).map (Word.text nameOf)) := by
  obtain ⟨name, payload, doc⟩ := variant
  obtain ⟨hname, hpayload⟩ := hvariant
  have htexture := texture_readable quotable
  have hnone : ∀ property ∈ ([] : List String), Readable property := List.forall_mem_nil _
  cases tagging with
  | external =>
    cases payload with
    | unit => exact Exposing.quoted name
    | newtype type =>
      exact Exposing.braced (htexture.keyed hname (htexture.typeText type hpayload))
    | tuple elements =>
      exact Exposing.braced (htexture.keyed hname (htexture.typeText (.tuple elements) hpayload))
    | struct fields =>
      exact Exposing.braced (htexture.keyed hname (htexture.objectText hnone hpayload))
  | internal tag =>
    have hproperty := htexture.keyed htagging (htexture.quoted hname)
    have hjoined : ∀ type : TypeRef, type.NamedBy nameOf →
        Exposing ("(" ++ braced (propertyKey tag ++ ": " ++ Quoted.encode name) ++ " & "
          ++ typeText nameOf o type ++ ")") ((type.exposedWords o).map (Word.text nameOf)) := by
      intro type hnamed
      rw [joined_eq]
      exact ((Exposing.braced hproperty).join Operator.ampersand (exposing_typeText hnamed)).round
    cases payload with
    | unit => exact Exposing.braced hproperty
    | newtype type => exact hjoined type hpayload
    | tuple elements => exact hjoined (.tuple elements) hpayload
    | struct fields =>
      exact exposing_parenthesize
        (exposing_objectText (List.forall_mem_singleton.2 hproperty) hpayload)
  | adjacent tag content =>
    obtain ⟨htag, hcontent⟩ := htagging
    have hproperty := htexture.keyed htag (htexture.quoted hname)
    have hbeside : ∀ text, Readable text →
        Exposing (braced (propertyKey tag ++ ": " ++ Quoted.encode name ++ "; "
          ++ propertyKey content ++ ": " ++ text)) [] := by
      intro text htext
      rw [beside_eq]
      exact Exposing.braced (htexture.append (htexture.append hproperty (htexture.signs rfl))
        (htexture.keyed hcontent htext))
    cases payload with
    | unit => exact Exposing.braced hproperty
    | newtype type => exact hbeside _ (htexture.typeText type hpayload)
    | tuple elements => exact hbeside _ (htexture.typeText (.tuple elements) hpayload)
    | struct fields => exact hbeside _ (htexture.objectText hnone hpayload)
  | untagged =>
    cases payload with
    | unit => exact Exposing.identifier (isIdentifier_absence o.absence)
    | newtype type => exact exposing_typeText hpayload
    | tuple elements => exact exposing_typeText hpayload
    | struct fields => exact exposing_parenthesize (exposing_objectText hnone hpayload)

end Values

end Artifact

end Bindings
