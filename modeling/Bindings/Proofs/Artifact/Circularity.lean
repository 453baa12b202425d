import Bindings.Proofs.Artifact.Assignments
import Bindings.Proofs.Artifact.BuiltinNames
import Mathlib.Logic.Relation

/-!
This module contains when a type of an artifact leads back to itself by names that its value
exposes. Nothing refuses such a type: it is there exactly if declarations refer to each other in a
circle without an object, an array, a tuple or a map between them.
-/

namespace Bindings

open Relation

/--
A declared type exposes another one: by a reference, or by a target type whose name the other one
has taken.
-/
inductive Resolution.Exposes {u : Universe} (r : Resolution u) (o : Options) (i j : u.Id) : Prop
  | reference (hi : i ∈ r.order) (hj : j ∈ r.order) (h : (u.get i).Exposes (u.get j).id)
  | builtin (hi : i ∈ r.order) (hj : j ∈ r.order)
    (h : .builtin (u.get j).declaredName ∈ (u.get i).body.exposedWords o)

theorem TypeRef.Exposes.mentions {id : String} {type : TypeRef} (h : type.Exposes id) :
    type.Mentions id := by
  induction h with
  | named => exact .named
  | option _ ih => exact .option ih

theorem TypeDecl.Exposes.exists_makes {decl : TypeDecl} {id : String} (h : decl.Exposes id)
    (position : Nat) : ∃ type site, decl.Makes position type site ∧ type.Mentions id := by
  cases h with
  | target hbody h => exact ⟨_, _, .target hbody, h.mentions⟩
  | flattened hbody hfield hflatten h =>
    obtain ⟨index, hindex⟩ := List.mem_iff_getElem?.1 hfield
    exact ⟨_, _, .field hbody hindex, h.mentions⟩
  | @newtype _ _ variant type hbody hopen hvariant hpayload h =>
    obtain ⟨index, hindex⟩ := List.mem_iff_getElem?.1 hvariant
    have htype : type ∈ variant.payload.types := by
      rw [hpayload]
      exact List.mem_singleton_self _
    exact ⟨_, _, .variant hbody hindex htype, h.mentions⟩
  | @part _ _ variant _ field hbody hopen hvariant hpayload hfield hflatten h =>
    obtain ⟨index, hindex⟩ := List.mem_iff_getElem?.1 hvariant
    have htype : field.type ∈ variant.payload.types := by
      rw [hpayload]
      exact List.mem_map_of_mem hfield
    exact ⟨_, _, .variant hbody hindex htype, h.mentions⟩

section Words

variable {o : Options} {word : Word}

theorem TypeRef.isType_of_mem_exposedWords {type : TypeRef} (h : word ∈ type.exposedWords o) :
    word.isType = true := by
  induction type using exposedWords.induct with
  | case1 kind =>
    rw [exposedWords, List.mem_singleton] at h
    rw [h]
    rfl
  | case2 id =>
    rw [exposedWords, List.mem_singleton] at h
    rw [h]
    rfl
  | case3 inner ih =>
    rw [exposedWords, List.mem_append, List.mem_singleton] at h
    rcases h with h | rfl
    . exact ih h
    . rfl
  | case4 element => cases h
  | case5 elements => cases h
  | case6 key value => cases h

theorem isType_of_mem_partWords {fields : List Field} (h : word ∈ partWords o fields) :
    word.isType = true := by
  obtain ⟨field, _, h⟩ := List.mem_flatMap.1 h
  unfold TypeRef.partWords at h
  split at h
  . exact TypeRef.isType_of_mem_exposedWords h
  . exact TypeRef.isType_of_mem_exposedWords h

theorem Payload.isType_of_mem_exposedWords {payload : Payload} (h : word ∈ payload.exposedWords o) :
    word.isType = true := by
  cases payload with
  | unit => cases h
  | newtype type => exact TypeRef.isType_of_mem_exposedWords h
  | tuple elements => cases h
  | struct fields => exact isType_of_mem_partWords h

theorem Body.isType_of_mem_exposedWords {body : Body} (h : word ∈ body.exposedWords o) :
    word.isType = true := by
  cases body with
  | struct fields => exact isType_of_mem_partWords h
  | enum tagging variants =>
    rw [exposedWords] at h
    split at h
    . rw [List.mem_singleton] at h
      rw [h]
      rfl
    . obtain ⟨variant, _, h⟩ := List.mem_flatMap.1 h
      unfold Variant.exposedWords at h
      split at h
      . rw [List.mem_singleton] at h
        rw [h]
        rfl
      . split at h
        . exact Payload.isType_of_mem_exposedWords h
        . cases h
  | typeAlias target => exact TypeRef.isType_of_mem_exposedWords h

theorem TypeDecl.assignment?_of_mem {decl : TypeDecl} {nameOf : String → String}
    (h : word ∈ decl.body.exposedWords o) :
    decl.assignment? nameOf o
      = some (decl.declaredName, (decl.body.exposedWords o).map (Word.text nameOf)) := by
  unfold assignment?
  rw [if_pos]
  cases hbody : decl.body with
  | struct fields =>
    rw [hbody, Body.exposedWords] at h
    rw [Artifact.typeKeyword_struct nameOf o, if_neg]
    intro hempty
    rw [Artifact.partWords_eq_nil hempty] at h
    cases h
  | enum tagging variants => rfl
  | typeAlias target => rfl

end Words

namespace Artifact

open Text

variable {d : Description} {u : Universe} {r : Resolution u} {o : Options}

theorem assigns_iff (h : d.Accepted u r) {name other : String} :
    Assigns (unlines (bodyLines o r)) name other
      ↔ ∃ i ∈ r.order, (u.get i).declaredName = name
        ∧ ∃ word ∈ (u.get i).body.exposedWords o, word.text u.nameOf = other := by
  unfold Assigns
  rw [assignments_bodyLines h o]
  constructor
  . rintro ⟨list, hlist, names, hmem, hother⟩
    cases hlist
    obtain ⟨decl, hdecl, hassignment⟩ := List.mem_filterMap.1 hmem
    obtain ⟨i, hi, rfl⟩ := List.mem_map.1 hdecl
    unfold TypeDecl.assignment? at hassignment
    split at hassignment
    . cases hassignment
      exact ⟨i, hi, rfl, List.mem_map.1 hother⟩
    . cases hassignment
  . rintro ⟨i, hi, rfl, word, hword, rfl⟩
    refine ⟨_, rfl, _, List.mem_filterMap.2 ⟨u.get i, List.mem_map_of_mem hi, ?_⟩,
      List.mem_map_of_mem hword⟩
    exact TypeDecl.assignment?_of_mem hword

theorem eq_of_declaredName_eq (h : d.Accepted u r) {i j : u.Id} (hi : i ∈ r.order)
    (hj : j ∈ r.order) (hname : (u.get i).declaredName = (u.get j).declaredName) : i = j := by
  have hnames := (List.nodup_append.1 h.nodup_names).1
  rw [Resolution.decls, List.map_map] at hnames
  exact List.inj_on_of_nodup_map hnames hi hj hname

theorem exposes_iff (h : d.Accepted u r) {i j : u.Id} (hi : i ∈ r.order) (hj : j ∈ r.order) :
    r.Exposes o i j
      ↔ ∃ word ∈ (u.get i).body.exposedWords o, word.text u.nameOf = (u.get j).declaredName := by
  constructor
  . intro hexposes
    cases hexposes with
    | reference _ _ hid =>
      exact ⟨_, TypeDecl.mem_exposedWords_iff.2 hid, Universe.nameOf_id_get u j⟩
    | builtin _ _ hmem => exact ⟨_, hmem, rfl⟩
  . rintro ⟨word, hmem, hname⟩
    have htype := Body.isType_of_mem_exposedWords hmem
    cases word with
    | keyword => cases htype
    | declared => cases htype
    | builtin name => exact .builtin hi hj (hname ▸ hmem)
    | reference id =>
      -- Resolution has found the type of the reference, and no other one has its printed name.
      have hid := TypeDecl.mem_exposedWords_iff.1 hmem
      obtain ⟨type, site, hmakes, hmention⟩ := hid.exists_makes i
      obtain ⟨k, hleads⟩ := leadsTo_of_mentions h o (.decl hi hmakes) hmention
      have heq : j = k := hleads.one_type j hj (by simpa [typeText, Word.text] using hname.symm)
      rw [← Universe.lookup_eq_some_iff.1 hleads.found, ← heq] at hid
      exact .reference hi hj hid

theorem exists_transGen (h : d.Accepted u r) {name other : String} {j : u.Id} (hj : j ∈ r.order)
    (hother : (u.get j).declaredName = other)
    (hleads : TransGen (Assigns (unlines (bodyLines o r))) name other) :
    ∃ i ∈ r.order, (u.get i).declaredName = name ∧ TransGen (r.Exposes o) i j := by
  have hstep : ∀ {name : String} {j : u.Id}, j ∈ r.order →
      Assigns (unlines (bodyLines o r)) name (u.get j).declaredName →
        ∃ i ∈ r.order, (u.get i).declaredName = name ∧ r.Exposes o i j := by
    intro name j hj hassigns
    obtain ⟨i, hi, hname, hword⟩ := (assigns_iff h).1 hassigns
    exact ⟨i, hi, hname, (exposes_iff h hi hj).2 hword⟩
  -- The induction is from the front: each name that is assigned to is the name of a declaration.
  induction hleads using TransGen.head_induction_on with
  | single hassigns =>
    obtain ⟨i, hi, hname, hexposes⟩ := hstep hj (hother ▸ hassigns)
    exact ⟨i, hi, hname, .single hexposes⟩
  | head hassigns _ ih =>
    obtain ⟨k, hk, hname, hrest⟩ := ih
    obtain ⟨i, hi, hname', hexposes⟩ := hstep hk (hname ▸ hassigns)
    exact ⟨i, hi, hname', .head hexposes hrest⟩

theorem assigns_of_exposes (h : d.Accepted u r) {i j : u.Id} (hexposes : r.Exposes o i j) :
    Assigns (unlines (bodyLines o r)) (u.get i).declaredName (u.get j).declaredName := by
  obtain ⟨hi, hj⟩ : i ∈ r.order ∧ j ∈ r.order := by
    cases hexposes with
    | reference hi hj _ => exact ⟨hi, hj⟩
    | builtin hi hj _ => exact ⟨hi, hj⟩
  exact (assigns_iff h).2 ⟨i, hi, rfl, (exposes_iff h hi hj).1 hexposes⟩

/--
A type of an artifact leads back to itself, by names that stand outside of every object, array,
tuple and map, exactly if its declaration does. All these artifacts are made: no circle of
declarations is refused.
-/
theorem circular_iff_of_generate {d : Description} {o : Options} {text : String}
    (h : (d.generate o).result = .ok text) :
    ∃ u, ∃ r : Resolution u, ∃ body,
      Universe.ofDecls d.types = .ok u
        ∧ (Resolution.resolve u d.functions).result = .ok r
        ∧ text = unlines o.header ++ body
        ∧ assignments body = some (r.decls.filterMap (TypeDecl.assignment? u.nameOf o))
        ∧ ∀ name, TransGen (Assigns body) name name
          ↔ ∃ i ∈ r.order, (u.get i).declaredName = name ∧ TransGen (r.Exposes o) i i := by
  obtain ⟨u, r, haccepted, heq⟩ := Description.generate_eq_ok_iff.1 h
  refine ⟨u, r, unlines (bodyLines o r), haccepted.declared, haccepted.resolved, ?_,
    assignments_bodyLines haccepted o, ?_⟩
  . rw [heq, text_eq_append]
  . intro name
    constructor
    . intro hcircular
      obtain ⟨_, hassigns, _⟩ := TransGen.head'_iff.1 hcircular
      obtain ⟨i, hi, hname, _⟩ := (assigns_iff haccepted).1 hassigns
      obtain ⟨j, hj, hname', hleads⟩ := exists_transGen haccepted hi hname hcircular
      rw [eq_of_declaredName_eq haccepted hj hi (hname'.trans hname.symm)] at hleads
      exact ⟨i, hi, hname, hleads⟩
    . rintro ⟨i, _, rfl, hcircular⟩
      exact hcircular.lift (fun i => (u.get i).declaredName) fun _ _ => assigns_of_exposes haccepted

def kin : Universe where
  decls :=
    [{ id := "Person"
       body := .struct
        [{ name := "name", type := .scalar .string },
          { name := "boss", type := .option (.named "Person"), flatten := true }]
       exported := true },
      { id := "Team"
        body := .struct
          [{ name := "lead", type := .named "Person" },
            { name := "parts", type := .vector (.named "Team") }]
        exported := true }]
  nodup_ids := by decide

def kinText : String :=
  "export type Person = \x7b\n    name: string;\n\x7d & (Person | \x7b\x7d);\n\n"
    ++ "export interface Team \x7b\n    lead: Person;\n    parts: Team[];\n\x7d\n"

theorem accepted_kin : Description.Accepted ⟨kin.decls, []⟩ kin
    ⟨[(0 : Fin 2), (1 : Fin 2)], []⟩ := by
  refine ⟨rfl, Universe.ofDecls_eq_ok_iff.2 rfl, ?_, rfl⟩
  cbv

theorem generate_kin :
    (Description.generate ⟨kin.decls, []⟩ { header := [] }).result = .ok kinText := by
  rw [accepted_kin.generate_eq_ok]
  decide +kernel

/--
A type leads back to itself by a flattened field, which nothing refuses.
-/
theorem circular_kin :
    (Description.generate ⟨kin.decls, []⟩ { header := [] }).result = .ok kinText
      ∧ assignments kinText = some [("Person", ["Person"])]
      ∧ TransGen (Assigns kinText) "Person" "Person" := by
  have hlist : assignments kinText = some [("Person", ["Person"])] := by decide +kernel
  have hassigns : Assigns kinText "Person" "Person" :=
    ⟨_, hlist, _, List.mem_singleton_self _, List.mem_singleton_self _⟩
  exact ⟨generate_kin, hlist, .single hassigns⟩

/--
The team refers to itself, too, but in an array only.
-/
theorem circular_iff_kin :
    ∃ text, (Description.generate ⟨kin.decls, []⟩ { header := [] }).result = .ok text
      ∧ TransGen (Assigns text) "Person" "Person" ∧ ¬ TransGen (Assigns text) "Team" "Team" := by
  obtain ⟨u, r, body, hdeclared, hresolved, htext, _, hcircular⟩ :=
    circular_iff_of_generate generate_kin
  rw [accepted_kin.declared] at hdeclared
  cases hdeclared
  rw [accepted_kin.resolved] at hresolved
  cases hresolved
  have hbody : kinText = body := htext.trans String.empty_append
  rw [← hbody] at hcircular
  refine ⟨kinText, generate_kin, ?_, ?_⟩
  . have hboss : (kin.get (0 : Fin 2)).Exposes "Person" :=
      .flattened rfl (List.mem_cons_of_mem _ List.mem_cons_self) rfl (.option .named)
    exact (hcircular "Person").2 ⟨(0 : Fin 2), List.mem_cons_self, rfl,
      .single (.reference List.mem_cons_self List.mem_cons_self hboss)⟩
  . intro hteam
    obtain ⟨i, hi, hname, hcycle⟩ := (hcircular "Team").1 hteam
    obtain ⟨j, hexposes, _⟩ := TransGen.head'_iff.1 hcycle
    have hall : ∀ i : Fin 2, (kin.get i).declaredName = "Team" →
        (kin.get i).body.exposedWords { header := [] } = [] := by decide
    have hnone := hall i hname
    cases hexposes with
    | reference _ _ hid =>
      rw [← TypeDecl.mem_exposedWords_iff, hnone] at hid
      cases hid
    | builtin _ _ hword =>
      rw [hnone] at hword
      cases hword

end Artifact

end Bindings
