import Bindings.Proofs.Artifact.Lexemes
import Bindings.Proofs.Text.Word

/-!
This module contains the words of an artifact, each with what it was written for: to introduce a
declaration, as the declared name, as a type of the target or for a reference of the description.
-/

namespace Bindings

inductive Word
  | keyword (text : String)
  | declared (name : String)
  /-- A type that the target knows without a declaration. -/
  | builtin (name : String)
  /-- A reference to a declared type, by its identifier. -/
  | reference (id : String)
deriving DecidableEq, Repr

def Word.text (nameOf : String → String) : Word → String
  | keyword text => text
  | declared name => name
  | builtin name => name
  | reference id => nameOf id

namespace TypeRef

def words (o : Options) : TypeRef → List Word
  | scalar kind => [.builtin (kind.text o.largeIntegers)]
  | named id => [.reference id]
  | vector element => element.words o
  | option inner => inner.words o ++ [.builtin o.absence.keyword]
  | tuple elements => go elements
  | map key value => .builtin o.mapType.keyword :: (key.words o ++ value.words o)
where
  go : List TypeRef → List Word
    | [] => []
    | element :: elements => element.words o ++ go elements

theorem words.go_eq_flatMap (o : Options) (elements : List TypeRef) :
    words.go o elements = elements.flatMap (words o) := by
  induction elements with
  | nil => rfl
  | cons element elements ih => simp [go, ih]

end TypeRef

namespace Artifact

open Text

section Words

variable (o : Options)

def resultWords (result : Option TypeRef) (synchrony : Synchrony) : List Word :=
  let value :=
    match result with
    | none => [.builtin "void"]
    | some type => type.words o
  match synchrony with
  | .sync => value
  | .async => .builtin "Promise" :: value

def propertyWords (field : Field) : List Word :=
  match field.type, o.optionalFields with
  | .option inner, true => inner.words o
  | type, _ => type.words o

def flattenedWords : TypeRef → List Word
  | .option inner => inner.words o
  | type => type.words o

def objectWords (fields : List Field) : List Word :=
  (fields.filter (!·.flatten)).flatMap (propertyWords o)
    ++ (fields.filter (·.flatten)).flatMap fun field => flattenedWords o field.type

def memberWords (tagging : Tagging) (variant : Variant) : List Word :=
  match variant.payload with
  | .unit => if tagging = .untagged then [.builtin o.absence.keyword] else []
  | .newtype type => type.words o
  | .tuple elements => (TypeRef.tuple elements).words o
  | .struct fields => objectWords o fields

def bodyWords : Body → List Word
  | .struct fields => objectWords o fields
  | .enum tagging variants =>
    if variants.isEmpty then [.builtin "never"] else variants.flatMap (memberWords o tagging)
  | .typeAlias target => target.words o

def headWords (keyword name : String) : List Word :=
  [.keyword (if o.exporting then "export" else "declare"), .keyword keyword, .declared name]

def typeKeyword : Body → String
  | .struct fields => if (fields.filter (·.flatten)).isEmpty then "interface" else "type"
  | .enum _ _ | .typeAlias _ => "type"

def typeWords (decl : TypeDecl) : List Word :=
  headWords o (typeKeyword decl.body) decl.declaredName ++ bodyWords o decl.body

def functionWords (function : FunctionDecl) : List Word :=
  headWords o "function" function.name ++ (function.params.flatMap fun param => param.type.words o)
    ++ resultWords o function.result function.synchrony

def words (r : Resolution u) : List Word :=
  r.decls.flatMap (typeWords o) ++ r.functions.flatMap (functionWords o)

end Words

section Phrases

variable {nameOf : String → String} {o : Options} {quotable : String → Prop}

theorem clause_propertyKey (name closing : String) (h : isKeyEnd closing = true) :
    Clause (propertyKey name ++ closing) [] := by
  unfold propertyKey
  split
  . next hname => exact Clause.key hname closing h
  . exact (Clause.literal name).closed closing (Bool.and_eq_true_iff.1 h).1

theorem phrase_braced {text : String} {words : List String} (h : Phrase text words) :
    Phrase (braced text) words :=
  (h.enclosed "\x7b " " \x7d" rfl rfl).phrase

theorem phrase_absence : Phrase o.absence.keyword [o.absence.keyword] :=
  Phrase.word (isIdentifier_absence o.absence)

theorem phrase_typeText : (type : TypeRef) → type.NamedBy nameOf →
    Phrase (typeText nameOf o type) ((type.words o).map (Word.text nameOf))
  | .scalar kind, _ => by
    rw [typeText]
    exact Phrase.word (isIdentifier_scalar o.largeIntegers kind)
  | .named id, hnamed => by
    rw [typeText]
    exact Phrase.word (hnamed id .named)
  | .vector element, hnamed => by
    have helement := phrase_typeText element fun id hmention => hnamed id (.vector hmention)
    rw [typeText_vector]
    split
    . exact ((helement.enclosed "(" ")" rfl rfl).closed "[]" rfl).phrase
    . exact (helement.ended "[]" rfl).phrase
  | .option inner, hnamed => by
    have hinner := phrase_typeText inner fun id hmention => hnamed id (.option hmention)
    rw [typeText, TypeRef.words, List.map_append]
    exact (hinner.ended " | " rfl).before phrase_absence
  | .tuple elements, hnamed => by
    have helements : Phrases (elements.map (typeText nameOf o))
        (elements.flatMap fun element => (element.words o).map (Word.text nameOf)) := by
      apply Phrases.map
      intro element hmem
      exact phrase_typeText element fun id hmention => hnamed id (.tuple hmem hmention)
    rw [typeText, typeText.go_eq_map, TypeRef.words, TypeRef.words.go_eq_flatMap,
      List.map_flatMap]
    exact ((helements.joinWith ", " rfl).enclosed "[" "]" rfl rfl).phrase
  | .map key value, hnamed => by
    have hkey := phrase_typeText key fun id hmention => hnamed id (.mapKey hmention)
    have hvalue := phrase_typeText value fun id hmention => hnamed id (.mapValue hmention)
    have hkeyword : Phrase o.mapType.keyword [o.mapType.keyword] :=
      Phrase.word (isIdentifier_mapType o.mapType)
    rw [typeText, TypeRef.words, List.map_cons, List.map_append]
    have hentry := (((hkeyword.ended "<" rfl).before hkey).ended ", " rfl).before hvalue
    exact (hentry.ended ">" rfl).phrase

theorem phrase_resultText {result : Option TypeRef} {synchrony : Synchrony}
    (hnamed : ∀ type, result = some type → type.NamedBy nameOf) :
    Phrase (resultText nameOf o result synchrony)
      ((resultWords o result synchrony).map (Word.text nameOf)) := by
  have hvalue : Phrase (resultText nameOf o result .sync)
      ((resultWords o result .sync).map (Word.text nameOf)) := by
    cases result with
    | none =>
      have hvoid : Identifier.isIdentifier "void" = true := rfl
      exact Phrase.word hvoid
    | some type => exact phrase_typeText type (hnamed type rfl)
  cases synchrony with
  | sync => exact hvalue
  | async =>
    have hpromise : Phrase "Promise" ["Promise"] := Phrase.word rfl
    rw [resultText_async, ← String.append_assoc, ← String.append_assoc]
    exact (((hpromise.ended "<" rfl).before hvalue).ended ">" rfl).phrase

theorem phrase_propertyText {field : Field} (hnamed : field.type.NamedBy nameOf) :
    Phrase (propertyText nameOf o field) ((propertyWords o field).map (Word.text nameOf)) := by
  unfold propertyText
  split
  . next inner htype hoptional =>
    have hwords : propertyWords o field = inner.words o := by
      unfold propertyWords
      rw [htype, hoptional]
    rw [htype] at hnamed
    rw [hwords]
    exact (clause_propertyKey field.name "?: " rfl).before
      (phrase_typeText inner fun id hmention => hnamed id (.option hmention))
  . next hother =>
    have hwords : propertyWords o field = field.type.words o := by
      unfold propertyWords
      split
      . next inner htype hoptional => exact (hother inner htype hoptional).elim
      . rfl
    rw [hwords]
    exact (clause_propertyKey field.name ": " rfl).before (phrase_typeText _ hnamed)

theorem phrase_flattenedText {type : TypeRef} (hnamed : type.NamedBy nameOf) :
    Phrase (flattenedText nameOf o type) ((flattenedWords o type).map (Word.text nameOf)) := by
  unfold flattenedText
  split
  . next inner =>
    have hinner := phrase_typeText (o := o) inner fun id hmention => hnamed id (.option hmention)
    have halternative := ((hinner.ended " | " rfl).closed "\x7b\x7d" rfl).phrase
    exact (halternative.enclosed "(" ")" rfl rfl).phrase
  . next hother =>
    have hwords : flattenedWords o type = type.words o := by
      rw [flattenedWords]
      exact hother
    rw [hwords]
    exact phrase_typeText type hnamed

theorem phrases_flattenedParts {fields : List Field}
    (hfields : ∀ field ∈ fields, field.type.NamedBy nameOf) :
    Phrases (flattenedParts nameOf o fields) ((fields.filter (·.flatten)).flatMap fun field =>
      (flattenedWords o field.type).map (Word.text nameOf)) := by
  apply Phrases.map
  intro field hmem
  exact phrase_flattenedText (hfields field (List.mem_filter.1 hmem).1)

theorem phrases_properties {fields : List Field}
    (hfields : ∀ field ∈ fields, field.type.NamedBy nameOf) :
    Phrases (properties nameOf o fields) ((fields.filter (!·.flatten)).flatMap fun field =>
      (propertyWords o field).map (Word.text nameOf)) := by
  apply Phrases.map
  intro field hmem
  exact phrase_propertyText (hfields field (List.mem_filter.1 hmem).1)

theorem phrase_objectText {leading : List String} {fields : List Field}
    (hleading : Phrases leading []) (hfields : ∀ field ∈ fields, field.type.NamedBy nameOf) :
    Phrase (objectText nameOf o leading fields)
      ((objectWords o fields).map (Word.text nameOf)) := by
  have hparts := phrases_flattenedParts (o := o) hfields
  have hproperties := hleading.append (phrases_properties (o := o) hfields)
  rw [List.nil_append] at hproperties
  rw [objectWords, List.map_append, List.map_flatMap, List.map_flatMap]
  unfold objectText
  dsimp only
  split
  . next hnone =>
    rw [hproperties.eq_nil hnone, List.nil_append]
    split
    . next hempty =>
      rw [hparts.eq_nil hempty]
      exact (Clause.signs rfl).phrase
    . exact hparts.joinWith " & " rfl
  . have hown := phrase_braced (hproperties.joinWith "; " rfl)
    exact (Phrases.cons hown hparts).joinWith " & " rfl

theorem phrase_parenthesize {text : String} {words : List String} (h : Phrase text words) :
    Phrase (parenthesize text) words := by
  unfold parenthesize
  split
  . exact (h.enclosed "(" ")" rfl rfl).phrase
  . exact h

theorem clause_tag (tag name : String) :
    Clause (propertyKey tag ++ ": " ++ Quoted.encode name) [] :=
  (clause_propertyKey tag ": " rfl).append (Clause.literal name)

theorem phrase_joined {tag name text : String} {words : List String} (h : Phrase text words) :
    Phrase ("(" ++ braced (propertyKey tag ++ ": " ++ Quoted.encode name) ++ " & " ++ text ++ ")")
      words := by
  have htag : Clause (braced (propertyKey tag ++ ": " ++ Quoted.encode name)) [] :=
    (clause_tag tag name).phrase.enclosed "\x7b " " \x7d" rfl rfl
  have hopening : Clause "(" [] := Clause.signs rfl
  exact ((((hopening.append htag).closed " & " rfl).before h).ended ")" rfl).phrase

theorem phrase_beside {tag name content text : String} {words : List String}
    (h : Phrase text words) :
    Phrase (braced (propertyKey tag ++ ": " ++ Quoted.encode name ++ "; "
      ++ propertyKey content ++ ": " ++ text)) words := by
  have hcontent := clause_propertyKey content ": " rfl
  have hkeys := ((clause_tag tag name).closed "; " rfl).append hcontent
  rw [← String.append_assoc] at hkeys
  exact phrase_braced (hkeys.before h)

theorem phrase_memberText {tagging : Tagging} {variant : Variant}
    (hpayload : variant.payload.Writable quotable nameOf) :
    Phrase (memberText nameOf o tagging variant)
      ((memberWords o tagging variant).map (Word.text nameOf)) := by
  obtain ⟨name, payload, doc⟩ := variant
  have hkeyed : ∀ {key text : String} {words : List String}, Phrase text words →
      Phrase (braced (propertyKey key ++ ": " ++ text)) words :=
    fun h => phrase_braced ((clause_propertyKey _ ": " rfl).before h)
  cases payload with
  | unit =>
    cases tagging with
    | external => exact (Clause.literal name).phrase
    | internal tag => exact phrase_braced (clause_tag tag name).phrase
    | adjacent tag content => exact phrase_braced (clause_tag tag name).phrase
    | untagged => exact phrase_absence
  | newtype type =>
    have htype := phrase_typeText (o := o) type hpayload
    cases tagging with
    | external => exact hkeyed htype
    | internal tag => exact phrase_joined htype
    | adjacent tag content => exact phrase_beside htype
    | untagged => exact htype
  | tuple elements =>
    have htuple := phrase_typeText (o := o) (.tuple elements) hpayload
    cases tagging with
    | external => exact hkeyed htuple
    | internal tag => exact phrase_joined htuple
    | adjacent tag content => exact phrase_beside htuple
    | untagged => exact htuple
  | struct fields =>
    have hfields : ∀ field ∈ fields, field.type.NamedBy nameOf :=
      fun field hmem => (hpayload field hmem).type
    have hobject := phrase_objectText (o := o) .nil hfields
    cases tagging with
    | external => exact hkeyed hobject
    | internal tag =>
      have htag : Phrases [propertyKey tag ++ ": " ++ Quoted.encode name] [] :=
        .cons (clause_tag tag name).phrase .nil
      exact phrase_parenthesize (phrase_objectText htag hfields)
    | adjacent tag content => exact phrase_beside hobject
    | untagged => exact phrase_parenthesize hobject

end Phrases

section Blocks

variable {nameOf : String → String} {o : Options} {quotable : String → Prop}

theorem gathers_clause : Gathers Clause where
  append h hother := h.append hother
  empty := Clause.nil
  feed := Clause.signs rfl

theorem clause_line {text : String} {words : List String} (h : Phrase text words) :
    Clause (unlines [text]) words := by
  have hline := h.ended "\n" rfl
  simpa [unlines] using hline

theorem clause_blank {margin : String} (h : Blank margin) : Clause margin [] := by
  apply Clause.signs
  rw [List.all_eq_true]
  intro c hmem
  rw [h c hmem]
  rfl

theorem clause_docBlock {margin : String} (lines : List String) (hmargin : Blank margin) :
    Clause (unlines (docBlock margin lines)) [] := by
  have hcommented : Commented margin.toList := by
    apply commented_of_forall
    intro c hmem
    rw [hmargin c hmem]
    decide
  have hcomment : Clause (comment margin lines) [] :=
    ⟨_, cuts_comment lines hcommented, fun _ => rfl⟩
  rw [unlines_docBlock]
  exact ((clause_blank hmargin).append hcomment).closed "\n" rfl

theorem clause_docLines {margin : String} (doc : Option String) (hmargin : Blank margin) :
    Clause (unlines (docLines margin doc)) [] := by
  cases doc with
  | none => exact Clause.nil
  | some doc => exact clause_docBlock _ hmargin

theorem phrase_head (keyword text : String) {name : String}
    (hkeyword : Identifier.isIdentifier keyword = true) (htext : text = keyword ++ " ")
    (hname : Identifier.isIdentifier name = true) :
    Phrase (o.declarator ++ text ++ name) ((headWords o keyword name).map (Word.text nameOf)) := by
  have hdeclarator : Clause o.declarator [if o.exporting then "export" else "declare"] := by
    unfold Options.declarator
    split
    . exact Phrase.spaced rfl rfl
    . exact Phrase.spaced rfl rfl
  exact (hdeclarator.append (Phrase.spaced hkeyword htext)).before (Phrase.word hname)

theorem phrase_typeHead (nameOf : String → String) (o : Options) {name : String}
    (hname : Identifier.isIdentifier name = true) :
    Phrase (o.declarator ++ "type " ++ name) ((headWords o "type" name).map (Word.text nameOf)) :=
  phrase_head "type" _ rfl rfl hname

theorem clause_assignment {name text : String} {words : List String}
    (hname : Identifier.isIdentifier name = true) (h : Phrase text words) :
    Clause (unlines [o.declarator ++ "type " ++ name ++ " = " ++ text ++ ";"])
      ((headWords o "type" name).map (Word.text nameOf) ++ words) := by
  have hhead := (phrase_typeHead nameOf o hname).ended " = " rfl
  exact clause_line ((hhead.before h).ended ";" rfl).phrase

theorem clause_member (doc : Option String) {text : String} {words : List String}
    (h : Phrase text words) :
    Clause (unlines (docLines o.margin doc ++ [o.margin ++ text])) words := by
  have hline := clause_line ((clause_blank (blank_margin o)).before h)
  exact gathers_clause.block (clause_docLines doc (blank_margin o)) hline

theorem typeKeyword_struct (nameOf : String → String) (o : Options) (fields : List Field) :
    typeKeyword (.struct fields)
      = if (flattenedParts nameOf o fields).isEmpty then "interface" else "type" := by
  unfold typeKeyword flattenedParts
  rw [List.isEmpty_map]

theorem clause_structLines {name : String} {fields : List Field}
    (hname : Identifier.isIdentifier name = true)
    (hfields : ∀ field ∈ fields, field.type.NamedBy nameOf) :
    Clause (unlines (structLines nameOf o name fields))
      ((headWords o (typeKeyword (.struct fields)) name).map (Word.text nameOf)
        ++ (objectWords o fields).map (Word.text nameOf)) := by
  have hparts := phrases_flattenedParts (o := o) hfields
  have hmembers : Clause (unlines ((fields.filter (!·.flatten)).flatMap fun field =>
      docLines o.margin field.doc ++ [o.margin ++ propertyText nameOf o field ++ ";"]))
      ((fields.filter (!·.flatten)).flatMap fun field =>
        (propertyWords o field).map (Word.text nameOf)) := by
    apply gathers_clause.flatMap
    intro field hmem
    have hproperty := phrase_propertyText (o := o) (hfields field (List.mem_filter.1 hmem).1)
    rw [String.append_assoc]
    exact clause_member field.doc (hproperty.ended ";" rfl).phrase
  have hfeed : Clause "\n" [] := Clause.signs rfl
  have hobject := (hfeed.append hmembers).phrase.enclosed "\x7b" "\x7d" rfl rfl
  have hinterface : Phrase (o.declarator ++ "interface " ++ name)
      ((headWords o "interface" name).map (Word.text nameOf)) :=
    phrase_head "interface" _ rfl rfl hname
  rw [objectWords, List.map_append, List.map_flatMap, List.map_flatMap,
    typeKeyword_struct nameOf o]
  unfold structLines
  dsimp only
  split
  . next hkept hnone =>
    rw [if_pos hnone, List.isEmpty_iff.1 hkept, hparts.eq_nil hnone]
    exact clause_line ((hinterface.ended " " rfl).append (Clause.signs rfl)).phrase
  . next hkept hsome =>
    rw [if_neg (by simp [hsome]), List.isEmpty_iff.1 hkept]
    exact clause_assignment hname (hparts.joinWith " & " rfl)
  . next hkept hnone =>
    rw [if_pos hnone, unlines_interface, hparts.eq_nil hnone, List.append_nil]
    exact ((hinterface.ended " " rfl).append hobject).closed "\n" rfl
  . next hkept hsome =>
    rw [if_neg (by simp [hsome]), unlines_intersection]
    have hhead := phrase_typeHead nameOf o hname
    have hown := ((hhead.ended " = " rfl).append hobject).closed " & " rfl
    have hjoined := (hown.before (hparts.joinWith " & " rfl)).ended ";" rfl
    rw [← List.append_assoc]
    exact hjoined.closed "\n" rfl

theorem clause_unionLines (tagging : Tagging) {variants : List Variant}
    (hvariants : ∀ variant ∈ variants, variant.payload.Writable quotable nameOf) :
    Clause (unlines (unionLines nameOf o tagging variants))
      (variants.flatMap fun variant => (memberWords o tagging variant).map (Word.text nameOf)) := by
  have hmember : ∀ variant ∈ variants, Phrase ("| " ++ memberText nameOf o tagging variant)
      ((memberWords o tagging variant).map (Word.text nameOf)) := by
    intro variant hmem
    exact (Clause.signs rfl).before (phrase_memberText (hvariants variant hmem))
  clear hvariants
  induction variants using unionLines.induct with
  | case1 => exact Clause.nil
  | case2 variant =>
    rw [List.forall_mem_singleton] at hmember
    have hlast := clause_member (o := o) variant.doc (hmember.ended ";" rfl).phrase
    simpa [unionLines, String.append_assoc] using hlast
  | case3 variant variants hnil ih =>
    rw [List.forall_mem_cons] at hmember
    rw [unionLines]
    . have hfirst := clause_member (o := o) variant.doc hmember.1
      rw [String.append_assoc]
      exact gathers_clause.block hfirst (ih hmember.2)
    . exact hnil

theorem clause_enumLines {name : String} {tagging : Tagging} {variants : List Variant}
    (hname : Identifier.isIdentifier name = true)
    (hvariants : ∀ variant ∈ variants, variant.payload.Writable quotable nameOf) :
    Clause (unlines (enumLines nameOf o name tagging variants))
      ((headWords o "type" name).map (Word.text nameOf)
        ++ (bodyWords o (.enum tagging variants)).map (Word.text nameOf)) := by
  have hnever : Phrase "never" ["never"] := Phrase.word rfl
  unfold enumLines bodyWords
  dsimp only
  split
  . have hline : Clause (unlines [o.declarator ++ "type " ++ name ++ " = " ++ "never" ++ ";"])
        ((headWords o "type" name).map (Word.text nameOf) ++ ["never"]) :=
      clause_assignment hname hnever
    simpa [String.append_assoc, Word.text] using hline
  . rw [List.map_flatMap]
    split
    . apply clause_assignment hname
      refine (Phrases.map ?_).joinWith " | " rfl
      intro variant hmem
      exact phrase_memberText (hvariants variant hmem)
    . have hhead := clause_line ((phrase_typeHead nameOf o hname).ended " =" rfl).phrase
      have hlines := gathers_clause.block hhead (clause_unionLines (o := o) tagging hvariants)
      rw [List.singleton_append] at hlines
      exact hlines

theorem clause_typeLines {decl : TypeDecl}
    (hname : Identifier.isIdentifier decl.declaredName = true)
    (hbody : decl.body.Writable quotable nameOf) :
    Clause (unlines (typeLines nameOf o decl)) ((typeWords o decl).map (Word.text nameOf)) := by
  unfold typeLines typeWords
  rw [List.map_append]
  apply gathers_clause.block (clause_docLines decl.doc blank_empty)
  cases heq : decl.body with
  | struct fields =>
    rw [heq] at hbody
    exact clause_structLines hname fun field hmem => (hbody field hmem).type
  | enum tagging variants =>
    rw [heq] at hbody
    exact clause_enumLines hname fun variant hmem => (hbody.2 variant hmem).payload
  | typeAlias target =>
    rw [heq] at hbody
    exact clause_assignment hname (phrase_typeText target hbody)

theorem clause_functionLines {function : FunctionDecl}
    (hname : Identifier.isIdentifier function.name = true)
    (hparams : ∀ param ∈ function.params, Identifier.isIdentifier param.name = true)
    (hnamed : ∀ type site, function.Makes type site → type.NamedBy nameOf) :
    Clause (unlines (functionLines nameOf o function))
      ((functionWords o function).map (Word.text nameOf)) := by
  have hdoc : Clause (unlines (if (functionDocs nameOf o function).isEmpty then []
      else docBlock "" (functionDocs nameOf o function))) [] := by
    split
    . exact Clause.nil
    . exact clause_docBlock _ blank_empty
  have hlist : Phrases (function.params.map fun param =>
      param.name ++ ": " ++ typeText nameOf o param.type)
      (function.params.flatMap fun param => (param.type.words o).map (Word.text nameOf)) := by
    apply Phrases.map
    intro param hparam
    obtain ⟨index, hindex⟩ := List.mem_iff_getElem?.1 hparam
    exact (Clause.key (hparams param hparam) ": " rfl).before
      (phrase_typeText _ (hnamed _ _ (.param hindex)))
  have hresult : Phrase (resultText nameOf o function.result function.synchrony)
      ((resultWords o function.result function.synchrony).map (Word.text nameOf)) :=
    phrase_resultText fun type htype => hnamed type _ (.result htype)
  have hhead : Phrase (o.declarator ++ "function " ++ function.name)
      ((headWords o "function" function.name).map (Word.text nameOf)) :=
    phrase_head "function" _ rfl rfl hname
  have hcall := ((hhead.ended "(" rfl).before (hlist.joinWith ", " rfl)).ended "): " rfl
  unfold functionLines functionWords
  dsimp only
  rw [List.map_append, List.map_append, List.map_flatMap]
  have hline := clause_line ((hcall.before hresult).ended ";" rfl).phrase
  have hlines := gathers_clause.block hdoc hline
  exact hlines

end Blocks

theorem clause_bodyLines {d : Description} {u : Universe} {r : Resolution u}
    (h : d.Accepted u r) (o : Options) :
    Clause (unlines (bodyLines o r)) ((words o r).map (Word.text u.nameOf)) := by
  unfold words
  rw [List.map_append, List.map_flatMap, List.map_flatMap]
  apply gathers_clause.bodyLines
  . intro decl hmem
    obtain ⟨i, hi, heq⟩ := List.mem_map.1 hmem
    rw [← heq]
    exact clause_typeLines (h.isIdentifier_declaredName i) (h.writable_body hi)
  . intro function hmem
    rw [h.functions_eq] at hmem
    apply clause_functionLines (h.isIdentifier_function hmem)
    . intro param hparam
      exact h.isIdentifier_param hmem hparam
    . intro type site hmakes
      exact h.namedBy_of_function hmem hmakes

theorem words_of_generate {d : Description} {o : Options} {text : String}
    (h : (d.generate o).result = .ok text) :
    ∃ u, ∃ r : Resolution u, ∃ body, d.Accepted u r ∧ text = unlines o.header ++ body
      ∧ Text.words body = some ((words o r).map (Word.text u.nameOf)) := by
  obtain ⟨u, r, haccepted, heq⟩ := Description.generate_eq_ok_iff.1 h
  refine ⟨u, r, unlines (bodyLines o r), haccepted, ?_, (clause_bodyLines haccepted o).words_eq⟩
  rw [heq, text_eq_append]

end Artifact

end Bindings
