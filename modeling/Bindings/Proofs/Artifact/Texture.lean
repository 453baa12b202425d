import Bindings.Artifact.Block
import Bindings.Proofs.Artifact.Writable

/-!
This module contains the properties that the texts of types, properties and variants get from the
pieces they are made of: names, quoted names, signs and brackets around such texts.
-/

namespace Bindings

namespace Artifact

def isSign (c : Char) : Bool :=
  [' ', ':', '?', ';', ',', '&', '|', '='].contains c

/--
A property of texts that holds of identifiers, of quoted names and of signs and that is kept when
texts are put together or between brackets.
-/
structure Texture (p quotable : String → Prop) : Prop where
  append : ∀ {text other}, p text → p other → p (text ++ other)
  identifier : ∀ {name}, Identifier.isIdentifier name = true → p name
  quoted : ∀ {name}, quotable name → p (Text.Quoted.encode name)
  signs : ∀ {text : String}, text.toList.all isSign = true → p text
  round : ∀ {text}, p text → p ("(" ++ text ++ ")")
  square : ∀ {text}, p text → p ("[" ++ text ++ "]")
  curly : ∀ {text}, p text → p ("\x7b" ++ text ++ "\x7d")
  angle : ∀ {text}, p text → p ("<" ++ text ++ ">")

theorem typeText_vector (nameOf : String → String) (o : Options) (element : TypeRef) :
    typeText nameOf o (.vector element)
      = (if element.isOption then "(" ++ typeText nameOf o element ++ ")"
          else typeText nameOf o element) ++ "[]" := by
  cases element with
  | option inner =>
    simp only [typeText, TypeRef.isOption, if_true, String.append_assoc]
    rfl
  | scalar => rfl
  | named => rfl
  | vector => rfl
  | tuple => rfl
  | map => rfl

theorem typeText.go_eq_map (nameOf : String → String) (o : Options) (elements : List TypeRef) :
    typeText.go nameOf o elements = elements.map (typeText nameOf o) := by
  induction elements with
  | nil => rfl
  | cons element elements ih => rw [go, ih, List.map_cons]

theorem isIdentifier_absence (absence : Absence) :
    Identifier.isIdentifier absence.keyword = true := by
  cases absence with
  | null => decide
  | undefined => decide

theorem isIdentifier_mapType (mapType : MapType) :
    Identifier.isIdentifier mapType.keyword = true := by
  cases mapType with
  | record => decide
  | map => decide

theorem isIdentifier_scalar (largeIntegers : LargeIntegers) (kind : Scalar) :
    Identifier.isIdentifier (kind.text largeIntegers) = true := by
  cases largeIntegers <;> cases kind <;> decide

theorem braced_eq (text : String) : braced text = "\x7b" ++ (" " ++ text ++ " ") ++ "\x7d" := by
  unfold braced
  simp only [String.append_assoc]
  rfl

theorem joined_eq (object text : String) :
    "(" ++ object ++ " & " ++ text ++ ")" = "(" ++ (object ++ " & " ++ text) ++ ")" := by
  simp only [String.append_assoc]

theorem beside_eq (property key text : String) :
    property ++ "; " ++ key ++ ": " ++ text = property ++ "; " ++ (key ++ ": " ++ text) := by
  simp only [String.append_assoc]

theorem typeText_map (nameOf : String → String) (o : Options) (key value : TypeRef) :
    typeText nameOf o (.map key value) = o.mapType.keyword
      ++ ("<" ++ (typeText nameOf o key ++ ", " ++ typeText nameOf o value) ++ ">") := by
  rw [typeText]
  simp only [String.append_assoc]

theorem resultText_async (nameOf : String → String) (o : Options) (result : Option TypeRef) :
    resultText nameOf o result .async
      = "Promise" ++ ("<" ++ resultText nameOf o result .sync ++ ">") := by
  unfold resultText
  simp only [← String.append_assoc]
  rfl

namespace Texture

variable {p quotable : String → Prop} {nameOf : String → String} {o : Options}
variable (h : Texture p quotable)

include h

theorem empty : p "" :=
  h.signs rfl

theorem joinWith {separator : String} {parts : List String}
    (hseparator : separator.toList.all isSign = true) (hparts : ∀ part ∈ parts, p part) :
    p (Text.joinWith separator parts) := by
  induction parts with
  | nil => exact h.empty
  | cons part parts ih =>
    rw [List.forall_mem_cons] at hparts
    cases parts with
    | nil => exact hparts.1
    | cons next parts =>
      rw [Text.joinWith_cons_cons]
      exact h.append (h.append hparts.1 (h.signs hseparator)) (ih hparts.2)

theorem absence : p o.absence.keyword :=
  h.identifier (isIdentifier_absence o.absence)

theorem optional {text : String} (htext : p text) : p (text ++ " | " ++ o.absence.keyword) :=
  h.append (h.append htext (h.signs rfl)) h.absence

theorem emptySquare : p "[]" :=
  h.square h.empty

theorem emptyObject : p emptyObject :=
  h.curly h.empty

theorem braced {text : String} (htext : p text) : p (braced text) := by
  rw [braced_eq]
  exact h.curly (h.append (h.append (h.signs rfl) htext) (h.signs rfl))

theorem scalar (kind : Scalar) : p (kind.text o.largeIntegers) :=
  h.identifier (isIdentifier_scalar o.largeIntegers kind)

theorem typeText : (type : TypeRef) → type.NamedBy nameOf → p (typeText nameOf o type)
  | .scalar kind, _ => by
    rw [Artifact.typeText]
    exact h.scalar kind
  | .named id, hnamed => by
    rw [Artifact.typeText]
    exact h.identifier (hnamed id .named)
  | .vector element, hnamed => by
    have helement := typeText element fun id hmention => hnamed id (.vector hmention)
    rw [typeText_vector]
    split
    . exact h.append (h.round helement) h.emptySquare
    . exact h.append helement h.emptySquare
  | .option inner, hnamed => by
    rw [Artifact.typeText]
    exact h.optional (typeText inner fun id hmention => hnamed id (.option hmention))
  | .tuple elements, hnamed => by
    rw [Artifact.typeText, typeText.go_eq_map]
    apply h.square
    apply h.joinWith rfl
    intro text hmem
    obtain ⟨element, helement, heq⟩ := List.mem_map.1 hmem
    rw [← heq]
    exact typeText element fun id hmention => hnamed id (.tuple helement hmention)
  | .map key value, hnamed => by
    have hkey := typeText key fun id hmention => hnamed id (.mapKey hmention)
    have hvalue := typeText value fun id hmention => hnamed id (.mapValue hmention)
    rw [typeText_map]
    exact h.append (h.identifier (isIdentifier_mapType o.mapType))
      (h.angle (h.append (h.append hkey (h.signs rfl)) hvalue))

theorem resultText {result : Option TypeRef} {synchrony : Synchrony}
    (hnamed : ∀ type, result = some type → type.NamedBy nameOf) :
    p (resultText nameOf o result synchrony) := by
  have hvalue : p (Artifact.resultText nameOf o result .sync) := by
    cases result with
    | none =>
      have hvoid : Identifier.isIdentifier "void" = true := by decide
      exact h.identifier hvoid
    | some type => exact h.typeText type (hnamed type rfl)
  cases synchrony with
  | sync => exact hvalue
  | async =>
    rw [resultText_async]
    exact h.append (h.identifier (by decide)) (h.angle hvalue)

theorem propertyKey {name : String} (hname : quotable name) : p (propertyKey name) := by
  unfold Artifact.propertyKey
  split
  . next hident => exact h.identifier hident
  . exact h.quoted hname

theorem keyed {name text : String} (hname : quotable name) (htext : p text) :
    p (Artifact.propertyKey name ++ ": " ++ text) :=
  h.append (h.append (h.propertyKey hname) (h.signs rfl)) htext

theorem propertyText {field : Field} (hfield : field.Writable quotable nameOf) :
    p (propertyText nameOf o field) := by
  unfold Artifact.propertyText
  split
  . next inner htype _ =>
    have hinner : inner.NamedBy nameOf := by
      intro id hmention
      apply hfield.type id
      rw [htype]
      exact .option hmention
    exact h.append (h.append (h.propertyKey hfield.name) (h.signs rfl)) (h.typeText inner hinner)
  . exact h.keyed hfield.name (h.typeText _ hfield.type)

theorem flattenedText {type : TypeRef} (hnamed : type.NamedBy nameOf) :
    p (flattenedText nameOf o type) := by
  unfold Artifact.flattenedText
  split
  . next inner =>
    have hinner := h.typeText (o := o) inner fun id hmention => hnamed id (.option hmention)
    have hsplit : "(" ++ Artifact.typeText nameOf o inner ++ " | " ++ Artifact.emptyObject ++ ")"
        = "(" ++ (Artifact.typeText nameOf o inner ++ " | " ++ Artifact.emptyObject) ++ ")" := by
      simp only [String.append_assoc]
    rw [hsplit]
    exact h.round (h.append (h.append hinner (h.signs rfl)) h.emptyObject)
  . exact h.typeText type hnamed

theorem flattenedParts {fields : List Field}
    (hfields : ∀ field ∈ fields, field.Writable quotable nameOf) :
    ∀ part ∈ flattenedParts nameOf o fields, p part := by
  intro part hmem
  obtain ⟨field, hfield, heq⟩ := List.mem_map.1 hmem
  rw [← heq]
  exact h.flattenedText (hfields field (List.mem_filter.1 hfield).1).type

theorem properties {fields : List Field}
    (hfields : ∀ field ∈ fields, field.Writable quotable nameOf) :
    ∀ property ∈ properties nameOf o fields, p property := by
  intro property hmem
  obtain ⟨field, hfield, heq⟩ := List.mem_map.1 hmem
  rw [← heq]
  exact h.propertyText (hfields field (List.mem_filter.1 hfield).1)

theorem objectText {leading : List String} {fields : List Field}
    (hleading : ∀ property ∈ leading, p property)
    (hfields : ∀ field ∈ fields, field.Writable quotable nameOf) :
    p (objectText nameOf o leading fields) := by
  have hproperties : ∀ property ∈ leading ++ Artifact.properties nameOf o fields, p property := by
    intro property hmem
    cases List.mem_append.1 hmem with
    | inl hmem => exact hleading property hmem
    | inr hmem => exact h.properties hfields property hmem
  have hparts := h.flattenedParts (o := o) hfields
  unfold Artifact.objectText
  dsimp only
  split
  . split
    . exact h.emptyObject
    . exact h.joinWith rfl hparts
  . apply h.joinWith rfl
    rw [List.forall_mem_cons]
    exact ⟨h.braced (h.joinWith rfl hproperties), hparts⟩

theorem parenthesize {text : String} (htext : p text) : p (parenthesize text) := by
  unfold Artifact.parenthesize
  split
  . exact h.round htext
  . exact htext

theorem tagged {tag name text : String} (htag : quotable tag) (hname : quotable name)
    (htext : p text) :
    p ("(" ++ Artifact.braced (Artifact.propertyKey tag ++ ": " ++ Text.Quoted.encode name)
      ++ " & " ++ text ++ ")") := by
  rw [joined_eq]
  have hproperty := h.keyed htag (h.quoted hname)
  exact h.round (h.append (h.append (h.braced hproperty) (h.signs rfl)) htext)

theorem beside {tag content name text : String} (htag : quotable tag) (hcontent : quotable content)
    (hname : quotable name) (htext : p text) :
    p (Artifact.braced (Artifact.propertyKey tag ++ ": " ++ Text.Quoted.encode name ++ "; "
      ++ Artifact.propertyKey content ++ ": " ++ text)) := by
  rw [beside_eq]
  have hproperty := h.keyed htag (h.quoted hname)
  exact h.braced (h.append (h.append hproperty (h.signs rfl)) (h.keyed hcontent htext))

theorem memberText {tagging : Tagging} {variant : Variant} (htagging : tagging.Writable quotable)
    (hvariant : variant.Writable quotable nameOf) : p (memberText nameOf o tagging variant) := by
  obtain ⟨name, payload, doc⟩ := variant
  obtain ⟨hname, hpayload⟩ := hvariant
  cases tagging with
  | external =>
    cases payload with
    | unit => exact h.quoted hname
    | newtype type => exact h.braced (h.keyed hname (h.typeText type hpayload))
    | tuple elements => exact h.braced (h.keyed hname (h.typeText (.tuple elements) hpayload))
    | struct fields =>
      exact h.braced (h.keyed hname (h.objectText (List.forall_mem_nil _) hpayload))
  | internal tag =>
    have hproperty := h.keyed htagging (h.quoted hname)
    cases payload with
    | unit => exact h.braced hproperty
    | newtype type => exact h.tagged htagging hname (h.typeText type hpayload)
    | tuple elements => exact h.tagged htagging hname (h.typeText (.tuple elements) hpayload)
    | struct fields =>
      apply h.parenthesize
      apply h.objectText _ hpayload
      rw [List.forall_mem_singleton]
      exact hproperty
  | adjacent tag content =>
    obtain ⟨htag, hcontent⟩ := htagging
    cases payload with
    | unit => exact h.braced (h.keyed htag (h.quoted hname))
    | newtype type => exact h.beside htag hcontent hname (h.typeText type hpayload)
    | tuple elements =>
      exact h.beside htag hcontent hname (h.typeText (.tuple elements) hpayload)
    | struct fields =>
      exact h.beside htag hcontent hname (h.objectText (List.forall_mem_nil _) hpayload)
  | untagged =>
    cases payload with
    | unit => exact h.absence
    | newtype type => exact h.typeText type hpayload
    | tuple elements => exact h.typeText (.tuple elements) hpayload
    | struct fields => exact h.parenthesize (h.objectText (List.forall_mem_nil _) hpayload)

end Texture

end Artifact

end Bindings
