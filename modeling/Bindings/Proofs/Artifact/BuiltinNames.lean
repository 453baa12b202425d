import Bindings.Proofs.Artifact.References
import Bindings.Proofs.Artifact.Words
import Bindings.Proofs.WellFormed

/-!
This module contains what the words of type expressions denote: a reference is written with the name
of one declared type. The types of the target are written with their own names, which a description
can declare anew unless they are reserved words.
-/

namespace Bindings

def unreservedNames : List String :=
  ["number", "bigint", "boolean", "string", "never", "undefined", "Record", "Map", "Promise"]

def builtinNames : List String :=
  "void" :: "null" :: unreservedNames

namespace Word

def isType : Word → Bool
  | keyword _ | declared _ => false
  | builtin _ | reference _ => true

inductive Of (shown : TypeRef → Prop) : Word → Prop
  | builtin (hname : name ∈ builtinNames) : Of shown (.builtin name)
  | reference {id : String} (htype : shown type) (hmention : type.Mentions id) :
    Of shown (.reference id)

theorem Of.imp {shown other : TypeRef → Prop} {word : Word} (h : word.Of shown)
    (himp : ∀ type, shown type → ∀ id, type.Mentions id →
      ∃ owner, other owner ∧ owner.Mentions id) : word.Of other := by
  cases h with
  | builtin hname => exact .builtin hname
  | reference htype hmention =>
    obtain ⟨type, hother, hmention⟩ := himp _ htype _ hmention
    exact .reference hother hmention

theorem Of.mono {shown other : TypeRef → Prop} {word : Word} (h : word.Of shown)
    (himp : ∀ type, shown type → other type) : word.Of other :=
  h.imp fun type htype _ hmention => ⟨type, himp type htype, hmention⟩

theorem Of.inside {inner type : TypeRef} {word : Word} (h : word.Of (· = inner))
    (himp : ∀ id, inner.Mentions id → type.Mentions id) : word.Of (· = type) :=
  h.imp fun _ htype id hmention => ⟨type, rfl, himp id (htype ▸ hmention)⟩

end Word

section Words

variable {o : Options} {word : Word}

theorem Scalar.text_mem_builtinNames (largeIntegers : LargeIntegers) (kind : Scalar) :
    kind.text largeIntegers ∈ builtinNames := by
  cases largeIntegers <;> cases kind <;> decide

theorem Absence.keyword_mem_builtinNames (absence : Absence) :
    absence.keyword ∈ builtinNames := by
  cases absence <;> decide

theorem MapType.keyword_mem_builtinNames (mapType : MapType) :
    mapType.keyword ∈ builtinNames := by
  cases mapType <;> decide

theorem TypeRef.of_mem_words : (type : TypeRef) → word ∈ type.words o → word.Of (· = type)
  | .scalar kind, h => by
    rw [words, List.mem_singleton] at h
    rw [h]
    exact .builtin (Scalar.text_mem_builtinNames o.largeIntegers kind)
  | .named id, h => by
    rw [words, List.mem_singleton] at h
    rw [h]
    exact .reference rfl .named
  | .vector element, h => by
    rw [words] at h
    exact (of_mem_words element h).inside fun _ => .vector
  | .option inner, h => by
    rw [words, List.mem_append, List.mem_singleton] at h
    cases h with
    | inl hmem => exact (of_mem_words inner hmem).inside fun _ => .option
    | inr heq =>
      rw [heq]
      exact .builtin (Absence.keyword_mem_builtinNames o.absence)
  | .tuple elements, h => by
    rw [words, words.go_eq_flatMap, List.mem_flatMap] at h
    obtain ⟨element, helement, hmem⟩ := h
    exact (of_mem_words element hmem).inside fun _ => .tuple helement
  | .map key value, h => by
    rw [words, List.mem_cons, List.mem_append] at h
    rcases h with heq | hmem | hmem
    . rw [heq]
      exact .builtin (MapType.keyword_mem_builtinNames o.mapType)
    . exact (of_mem_words key hmem).inside fun _ => .mapKey
    . exact (of_mem_words value hmem).inside fun _ => .mapValue

namespace Artifact

theorem of_mem_propertyWords {field : Field} (h : word ∈ propertyWords o field) :
    word.Of (· = field.type) := by
  unfold propertyWords at h
  split at h
  . next inner htype _ =>
    rw [htype]
    exact (inner.of_mem_words h).inside fun _ => .option
  . exact field.type.of_mem_words h

theorem of_mem_flattenedWords {type : TypeRef} (h : word ∈ flattenedWords o type) :
    word.Of (· = type) := by
  unfold flattenedWords at h
  split at h
  . next inner => exact (inner.of_mem_words h).inside fun _ => .option
  . exact TypeRef.of_mem_words _ h

theorem of_mem_objectWords {fields : List Field} (h : word ∈ objectWords o fields) :
    word.Of (· ∈ fields.map (·.type)) := by
  have hshown : ∀ field ∈ fields, word.Of (· = field.type) → word.Of (· ∈ fields.map (·.type)) := by
    intro field hfield hof
    apply hof.mono
    rintro type rfl
    exact List.mem_map_of_mem hfield
  rw [objectWords, List.mem_append, List.mem_flatMap, List.mem_flatMap] at h
  rcases h with ⟨field, hfield, hmem⟩ | ⟨field, hfield, hmem⟩
  . exact hshown field (List.mem_filter.1 hfield).1 (of_mem_propertyWords hmem)
  . exact hshown field (List.mem_filter.1 hfield).1 (of_mem_flattenedWords hmem)

theorem of_mem_memberWords {tagging : Tagging} {variant : Variant}
    (h : word ∈ memberWords o tagging variant) : word.Of (· ∈ variant.payload.types) := by
  obtain ⟨name, payload, doc⟩ := variant
  cases payload with
  | unit =>
    simp only [memberWords, List.mem_ite_nil_right, List.mem_singleton] at h
    rw [h.2]
    exact .builtin (Absence.keyword_mem_builtinNames o.absence)
  | newtype type =>
    apply (type.of_mem_words h).mono
    rintro _ rfl
    exact List.mem_singleton.2 rfl
  | tuple elements =>
    apply ((TypeRef.tuple elements).of_mem_words h).imp
    rintro _ rfl id hmention
    cases hmention with
    | tuple hmem hmention => exact ⟨_, hmem, hmention⟩
  | struct fields => exact of_mem_objectWords h

theorem of_mem_bodyWords {body : Body} (h : word ∈ bodyWords o body) :
    word.Of (· ∈ body.types) := by
  cases body with
  | struct fields => exact of_mem_objectWords h
  | enum tagging variants =>
    rw [bodyWords] at h
    split at h
    . rw [List.mem_singleton] at h
      rw [h]
      exact .builtin (by decide)
    . obtain ⟨variant, hvariant, hmem⟩ := List.mem_flatMap.1 h
      apply (of_mem_memberWords hmem).mono
      intro type htype
      exact List.mem_flatMap.2 ⟨variant, hvariant, htype⟩
  | typeAlias target =>
    apply (target.of_mem_words h).mono
    rintro _ rfl
    exact List.mem_singleton.2 rfl

theorem of_mem_resultWords {result : Option TypeRef} {synchrony : Synchrony}
    (h : word ∈ resultWords o result synchrony) : word.Of (· ∈ result.toList) := by
  have hvalue : ∀ {word}, word ∈ resultWords o result .sync → word.Of (· ∈ result.toList) := by
    intro word h
    cases result with
    | none =>
      rw [List.mem_singleton.1 h]
      exact .builtin (by decide)
    | some type =>
      apply (type.of_mem_words h).mono
      rintro _ rfl
      exact List.mem_singleton.2 rfl
  cases synchrony with
  | sync => exact hvalue h
  | async =>
    cases h with
    | head => exact .builtin (by decide)
    | tail _ hmem => exact hvalue hmem

theorem isType_of_mem_headWords {keyword name : String} (h : word ∈ headWords o keyword name) :
    word.isType = false := by
  simp only [headWords, List.mem_cons, List.not_mem_nil, or_false] at h
  rcases h with rfl | rfl | rfl
  . rfl
  . rfl
  . rfl

theorem of_mem_words {r : Resolution u} (h : word ∈ words o r) (htype : word.isType = true) :
    word.Of (Shows r) := by
  have hnone : ∀ {keyword name : String}, word ∉ headWords o keyword name := by
    intro keyword name hmem
    rw [isType_of_mem_headWords hmem] at htype
    cases htype
  rw [words, List.mem_append, List.mem_flatMap, List.mem_flatMap] at h
  rcases h with ⟨decl, hdecl, hmem⟩ | ⟨function, hfunction, hmem⟩
  . obtain ⟨i, hi, heq⟩ := List.mem_map.1 hdecl
    rw [typeWords, List.mem_append] at hmem
    apply (of_mem_bodyWords (hmem.resolve_left hnone)).mono
    intro type hmakes
    rw [← decl.map_fst_references i, List.mem_map] at hmakes
    obtain ⟨⟨_, site⟩, hreference, rfl⟩ := hmakes
    rw [← heq] at hreference
    exact .decl hi (TypeDecl.mem_references_iff.1 hreference)
  . have hshows : ∀ type ∈ function.references.map (·.1), Shows r type := by
      intro type hmakes
      obtain ⟨⟨_, site⟩, hreference, rfl⟩ := List.mem_map.1 hmakes
      exact .function hfunction (FunctionDecl.mem_references_iff.1 hreference)
    rw [FunctionDecl.map_fst_references, List.forall_mem_append] at hshows
    rw [functionWords, List.append_assoc, List.mem_append] at hmem
    rcases List.mem_append.1 (hmem.resolve_left hnone) with hparam | hresult
    . obtain ⟨param, hparam, hmem⟩ := List.mem_flatMap.1 hparam
      apply (param.type.of_mem_words hmem).mono
      rintro _ rfl
      exact hshows.1 _ (List.mem_map_of_mem hparam)
    . exact (of_mem_resultWords hresult).mono hshows.2

end Artifact

end Words

namespace Artifact

open Text

section Accepted

variable {d : Description} {u : Universe} {r : Resolution u} {o : Options}

theorem declaredName_ne_of_accepted (h : d.Accepted u r) {decl : TypeDecl} (hmem : decl ∈ r.decls) :
    decl.declaredName ≠ "void" ∧ decl.declaredName ≠ "null" := by
  obtain ⟨i, _, heq⟩ := List.mem_map.1 hmem
  have hformed := (Description.validate_eq_ok_iff_wellFormed.1 h.valid).1 _ (h.mem_types i)
  have hdeclarable := hformed.declaredName
  rw [heq] at hdeclarable
  constructor
  . intro hvoid
    rw [hvoid] at hdeclarable
    exact absurd hdeclarable (by decide)
  . intro hnull
    rw [hnull] at hdeclarable
    exact absurd hdeclarable (by decide)

theorem mem_builtinNames_of_mem_words {name : String} (h : .builtin name ∈ words o r) :
    name ∈ builtinNames := by
  cases of_mem_words h rfl with
  | builtin hname => exact hname

theorem denoted_of_accepted (h : d.Accepted u r) {id : String} (hmem : .reference id ∈ words o r) :
    ∃ decl ∈ r.decls, decl.id = id ∧ decl.declaredName = u.nameOf id
      ∧ ∀ other ∈ r.decls, other.declaredName = u.nameOf id → other = decl := by
  cases of_mem_words hmem rfl with
  | reference hshows hmention =>
    obtain ⟨i, hleads⟩ := leadsTo_of_mentions h o hshows hmention
    have hwritten := hleads.written
    have hone := hleads.one_type
    simp only [typeText] at hwritten hone
    refine ⟨u.get i, List.mem_map_of_mem hleads.resolved,
      Universe.lookup_eq_some_iff.1 hleads.found, hwritten.symm, ?_⟩
    intro other hother hname
    obtain ⟨j, hj, rfl⟩ := List.mem_map.1 hother
    rw [hone j hj hname]

theorem mem_unreservedNames_of_accepted (h : d.Accepted u r) {decl : TypeDecl}
    (hdecl : decl ∈ r.decls) (hmem : .builtin decl.declaredName ∈ words o r) :
    decl.declaredName ∈ unreservedNames := by
  have hname := mem_builtinNames_of_mem_words hmem
  obtain ⟨hvoid, hnull⟩ := declaredName_ne_of_accepted h hdecl
  rw [builtinNames, List.mem_cons, List.mem_cons] at hname
  exact (hname.resolve_left hvoid).resolve_left hnull

end Accepted

/--
Behind its header an artifact has no other words than those that its resolution gives, in their
order. A reference is written with the name of one declared type, and no declared type is named
`void` or `null`. A name in a type expression is that of a declared type exactly if it was written
for a reference, unless it is another name of a target type and declared anew.
-/
theorem denotes_of_generate {d : Description} {o : Options} {text : String}
    (h : (d.generate o).result = .ok text) :
    ∃ u, ∃ r : Resolution u, ∃ body,
      Universe.ofDecls d.types = .ok u
        ∧ (Resolution.resolve u d.functions).result = .ok r
        ∧ text = unlines o.header ++ body
        ∧ Text.words body = some ((words o r).map (Word.text u.nameOf))
        ∧ (∀ decl ∈ r.decls, decl.declaredName ≠ "void" ∧ decl.declaredName ≠ "null")
        ∧ (∀ name, .builtin name ∈ words o r → name ∈ builtinNames)
        ∧ (∀ id, .reference id ∈ words o r → ∃ decl ∈ r.decls, decl.id = id
            ∧ decl.declaredName = u.nameOf id
            ∧ ∀ other ∈ r.decls, other.declaredName = u.nameOf id → other = decl)
        ∧ ∀ word ∈ words o r, word.isType = true →
            (∀ decl ∈ r.decls, decl.declaredName = word.text u.nameOf →
              decl.declaredName ∉ unreservedNames) →
            ((∃ decl ∈ r.decls, decl.declaredName = word.text u.nameOf)
              ↔ ∃ id, word = .reference id) := by
  obtain ⟨u, r, body, haccepted, htext, hwords⟩ := words_of_generate h
  refine ⟨u, r, body, haccepted.declared, haccepted.resolved, htext, hwords,
    fun decl hdecl => declaredName_ne_of_accepted haccepted hdecl,
    fun name hmem => mem_builtinNames_of_mem_words hmem,
    fun id hmem => denoted_of_accepted haccepted hmem, ?_⟩
  intro word hmem htype hfree
  constructor
  . rintro ⟨decl, hdecl, hname⟩
    cases word with
    | keyword => cases htype
    | declared => cases htype
    | builtin name =>
      have hunreserved := hfree decl hdecl hname
      subst hname
      exact absurd (mem_unreservedNames_of_accepted haccepted hdecl hmem) hunreserved
    | reference id => exact ⟨id, rfl⟩
  . rintro ⟨id, rfl⟩
    obtain ⟨decl, hdecl, _, hname, _⟩ := denoted_of_accepted haccepted hmem
    exact ⟨decl, hdecl, hname⟩

theorem denotes_notes :
    ∃ text, ∃ r : Resolution notes,
      (Description.generate ⟨notes.decls, [readNote]⟩ plainNotes).result = .ok text
        ∧ (Resolution.resolve notes [readNote]).result = .ok r
        ∧ Text.words text = some ["export", "type", "Tag", "export", "interface", "Note", "string",
          "Tag", "export", "function", "read", "Note"]
        ∧ ∀ word ∈ words plainNotes r, word.isType = true →
            ((∃ decl ∈ r.decls, decl.declaredName = word.text notes.nameOf)
              ↔ ∃ id, word = .reference id) := by
  have hok := accepted_notes.generate_eq_ok plainNotes
  obtain ⟨u, r, body, hdeclared, hresolved, htext, hwords, _, _, _, hdenotes⟩ :=
    denotes_of_generate hok
  rw [accepted_notes.declared] at hdeclared
  cases hdeclared
  rw [accepted_notes.resolved] at hresolved
  cases hresolved
  have hbody : text plainNotes _ = body := htext.trans String.empty_append
  have hfree : ∀ decl ∈ (⟨[(1 : Fin 2), (0 : Fin 2)], [readNote]⟩ : Resolution notes).decls,
      decl.declaredName ∉ unreservedNames := by decide
  refine ⟨_, _, hok, accepted_notes.resolved, ?_, ?_⟩
  . rw [hbody, hwords]
    decide +kernel
  . intro word hmem htype
    exact hdenotes word hmem htype fun decl hdecl _ => hfree decl hdecl

def shelf : Universe where
  decls :=
    [{ id := "Record"
       body := .struct
        [{ name := "parts", type := .map (.scalar .string) (.named "Record") }]
       exported := true }]
  nodup_ids := by decide

theorem accepted_shelf : Description.Accepted ⟨shelf.decls, []⟩ shelf ⟨[(0 : Fin 1)], []⟩ := by
  refine ⟨rfl, Universe.ofDecls_eq_ok_iff.2 rfl, ?_, rfl⟩
  cbv

/--
A declared type takes the name of a target type: in its block the name of the map is that of the
declared type, too.
-/
theorem captured_shelf :
    ∃ r : Resolution shelf, Universe.ofDecls shelf.decls = .ok shelf
      ∧ (Resolution.resolve shelf []).result = .ok r
      ∧ (Description.generate ⟨shelf.decls, []⟩ { header := [] }).result
        = .ok "export interface Record \x7b\n    parts: Record<string, Record>;\n\x7d\n"
      ∧ ∃ decl ∈ r.decls, decl.declaredName ∈ builtinNames
        ∧ .builtin decl.declaredName ∈ words { header := [] } r := by
  refine ⟨_, accepted_shelf.declared, accepted_shelf.resolved, ?_, ?_⟩
  . rw [accepted_shelf.generate_eq_ok]
    decide +kernel
  . exact ⟨shelf.get (0 : Fin 1), List.mem_cons_self, by decide, by decide +kernel⟩

end Artifact

end Bindings
