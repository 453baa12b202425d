import Bindings.Proofs.Artifact.References
import Bindings.Proofs.Artifact.Renaming
import Bindings.Proofs.Walk.Embedding

/-!
This module contains changes to the types of a description that its artifact does not show: types
that nothing reaches can be added, types that are not exported can stand anywhere, and identifiers
can be replaced by others.
-/

namespace Bindings

open ReferenceGraph Artifact

theorem follows_mentions {s : String → String} {references others : List Reference}
    (h : others.map (·.1) = (references.map (·.1)).map (TypeRef.mapIds s)) :
    List.Forall₂ (Mention.Follows s fun _ _ => True) (mentions references) (mentions others) := by
  have hnames : ∀ references : List Reference,
      (mentions references).map (·.1) = (references.map (·.1)).flatMap TypeRef.names := by
    intro references
    simp [mentions, List.map_flatMap, List.flatMap_map, Function.comp_def]
  have heq : ((mentions references).map (·.1)).map s = (mentions others).map (·.1) := by
    rw [hnames, hnames, h]
    simp [List.map_flatMap, List.flatMap_map, TypeRef.names_mapIds]
  rw [List.map_map, ← List.forall₂_eq_eq_eq, List.forall₂_map_left_iff,
    List.forall₂_map_right_iff] at heq
  apply heq.imp
  intro mention other hname
  exact ⟨hname.symm, trivial⟩

namespace Universe

theorem map_filter_exported {u : Universe} (f : TypeDecl → α) :
    (u.ids.filter fun i => (u.get i).exported).map (fun i => f (u.get i))
      = (u.decls.filter (·.exported)).map f := by
  rw [← u.map_get_ids, List.filter_map, List.map_map]
  rfl

end Universe

theorem ReferenceGraph.declared_iff {decls : List TypeDecl} {id : String} :
    Declared decls id ↔ ∃ decl ∈ decls, decl.id = id := by
  unfold Declared
  constructor
  . rintro ⟨i, hid⟩
    exact ⟨_, List.get_mem decls i, hid⟩
  . rintro ⟨decl, hmem, hid⟩
    obtain ⟨i, heq⟩ := List.get_of_mem hmem
    exact ⟨i, by rw [heq]; exact hid⟩

/--
Types stand among others under other identifiers, the exported ones in the same order. What is
mentioned on the way from the functions and undeclared stays undeclared.
-/
structure Embeds (s : String → String) (functions : List FunctionDecl)
    (decls others : List TypeDecl) : Prop where
  types : ∀ decl ∈ decls, ∃ other ∈ others, decl.Renamed s other
  exported : (others.filter (·.exported)).map (·.id)
    = (decls.filter (·.exported)).map fun decl => s decl.id
  undeclared : ∀ id site, MentionedAt decls functions id site → ¬ Declared decls id →
    ¬ Declared others (s id)

section Embeds

variable {s : String → String} {functions : List FunctionDecl} {u v : Universe}

theorem Embeds.exists_embedding (h : Embeds s functions u.decls v.decls)
    (hs : Function.Injective s) :
    ∃ e : u.Embedding s (fun _ _ => True) functions (functions.map (FunctionDecl.mapIds s)) v,
      ∀ i, (u.get i).Renamed s (v.get (e.index i)) := by
  have hpartner : ∀ i, ∃ j, (u.get i).Renamed s (v.get j) := by
    intro i
    obtain ⟨other, hmem, hrenamed⟩ := h.types (u.get i) (List.get_mem u.decls i)
    obtain ⟨j, heq⟩ := List.get_of_mem hmem
    refine ⟨j, ?_⟩
    unfold Universe.get at hrenamed ⊢
    rw [heq]
    exact hrenamed
  choose index hrenamed using hpartner
  refine ⟨⟨index, ?_, fun i => (hrenamed i).id, ?_, ?_, ?_, ?_⟩, hrenamed⟩
  . intro i j heq
    apply Universe.id_get_injective
    apply hs
    rw [← (hrenamed i).id, ← (hrenamed j).id, heq]
  . intro i
    apply follows_mentions
    unfold Universe.references
    rw [TypeDecl.map_fst_references, TypeDecl.map_fst_references, (hrenamed i).body,
      Body.types_mapIds]
  . apply follows_mentions
    simp [List.map_flatMap, List.flatMap_map, FunctionDecl.types_mapIds]
  . -- Identifiers tell declarations apart, so it is enough that the identifiers are the same.
    have hinjective : Function.Injective fun j => (v.get j).id :=
      fun _ _ => Universe.id_get_injective
    apply hinjective.list_map
    rw [Universe.map_filter_exported, h.exported, List.map_map]
    simp only [Function.comp_def, (hrenamed _).id]
    exact (Universe.map_filter_exported fun decl => s decl.id).symm
  . intro name site hmention hlookup
    rw [Universe.lookup_eq_none_iff] at hlookup ⊢
    have hundeclared := h.undeclared name site hmention fun ⟨i, hid⟩ => hlookup i hid
    exact fun j hid => hundeclared ⟨j, hid⟩

variable (e : u.Embedding s (fun _ _ => True) functions (functions.map (FunctionDecl.mapIds s)) v)
variable (hrenamed : ∀ i, (u.get i).Renamed s (v.get (e.index i)))

include hrenamed

theorem text_embedding {r : Resolution u} (o : Options)
    (h : (Resolution.resolve u functions).result = .ok r) :
    text o (⟨r.order.map e.index, functions.map (FunctionDecl.mapIds s)⟩ : Resolution v)
      = text o r := by
  have hagree : ∀ type, Shows r type → Agree (v.nameOf ∘ s) u.nameOf type := by
    intro type hshows id hmention
    have hmentioned : ∃ i ∈ r.order, (u.get i).id = id := by
      cases hshows with
      | decl hi hmakes =>
        exact Resolution.mem_order_of_mentionedAt h (Or.inr ⟨_, hi, type, hmakes, hmention⟩)
      | function hmem hmakes =>
        rw [Resolution.functions_of_resolve h] at hmem
        exact Resolution.mem_order_of_mentionedAt h (Or.inl ⟨_, hmem, type, hmakes, hmention⟩)
    obtain ⟨i, _, hid⟩ := hmentioned
    rw [← hid, Function.comp_apply, ← (hrenamed i).id, Universe.nameOf_id_get,
      Universe.nameOf_id_get, (hrenamed i).declaredName]
  have hdecls : (r.order.map e.index).map (fun i => typeLines v.nameOf o (v.get i))
      = r.order.map fun i => typeLines (v.nameOf ∘ s) o (u.get i) := by
    rw [List.map_map]
    apply List.map_congr_left
    intro i _
    exact typeLines_of_renamed v.nameOf o s (hrenamed i)
  have hfunctions : (functions.map (FunctionDecl.mapIds s)).flatMap (functionLines v.nameOf o)
      = functions.flatMap (functionLines (v.nameOf ∘ s) o) := by
    rw [List.flatMap_map]
    simp only [functionLines_mapIds]
  unfold text
  rw [← linesBy_eq_lines hagree]
  unfold lines linesBy Resolution.decls
  simp only [List.map_map, Function.comp_def, Resolution.functions_of_resolve h] at hdecls ⊢
  rw [hdecls, hfunctions]
  simp only [List.isEmpty_map]
  rfl

theorem check_embedding {r : Resolution u} (h : (Resolution.resolve u functions).result = .ok r)
    (hother : (Resolution.resolve v (functions.map (FunctionDecl.mapIds s))).result
      = .ok ⟨r.order.map e.index, functions.map (FunctionDecl.mapIds s)⟩) :
    Resolution.check ⟨r.order.map e.index, functions.map (FunctionDecl.mapIds s)⟩ = .ok ()
      ↔ r.check = .ok () := by
  rw [Resolution.check_of_resolve h, Resolution.check_of_resolve hother,
    checkScope_claimAll_eq_ok_iff, checkScope_claimAll_eq_ok_iff, Resolution.map_fst_nameClaims,
    Resolution.map_fst_nameClaims, Resolution.functions_of_resolve h]
  simp only [Resolution.decls, List.map_map, Function.comp_def, (hrenamed _).declaredName]
  rfl

end Embeds

namespace Description

variable {s : String → String} {d other : Description}

theorem nodup_ids_of_generate {o : Options} {text : String}
    (h : (d.generate o).result = .ok text) : (d.types.map (·.id)).Nodup := by
  obtain ⟨u, r, haccepted, _⟩ := generate_eq_ok_iff.1 h
  rw [← haccepted.decls_eq]
  exact u.nodup_ids

theorem generate_universe_result (u : Universe) (functions : List FunctionDecl) (o : Options) :
    (generate ⟨u.decls, functions⟩ o).result
      = (validate ⟨u.decls, functions⟩).bind fun _ =>
        (Resolution.resolve u functions).result.bind fun r =>
          r.check.bind fun _ => .ok (Artifact.text o r) := by
  rw [generate_result, Universe.ofDecls_eq_ok_iff.2 rfl]
  rfl

theorem generate_eq_ok_iff_of_resolve {u : Universe} {functions : List FunctionDecl}
    {r : Resolution u} (h : (Resolution.resolve u functions).result = .ok r) (o : Options)
    (text : String) :
    (generate ⟨u.decls, functions⟩ o).result = .ok text
      ↔ validate ⟨u.decls, functions⟩ = .ok () ∧ r.check = .ok ()
        ∧ Artifact.text o r = text := by
  rw [generate_universe_result, h]
  cases validate ⟨u.decls, functions⟩ <;> cases hcheck : r.check <;> simp [Except.bind, hcheck]

theorem generate_ne_ok_of_resolve {u : Universe} {functions : List FunctionDecl} {fault : Fault}
    (h : (Resolution.resolve u functions).result = .error fault) (o : Options) (text : String) :
    (generate ⟨u.decls, functions⟩ o).result ≠ .ok text := by
  rw [generate_universe_result, h]
  cases validate ⟨u.decls, functions⟩ <;> simp [Except.bind]

theorem generate_eq_ok_iff_of_embeds (hs : Function.Injective s)
    (hembeds : Embeds s d.functions d.types other.types)
    (hfunctions : other.functions = d.functions.map (FunctionDecl.mapIds s))
    (hvalid : d.validate = .ok () ↔ other.validate = .ok ())
    (hnodup : (d.types.map (·.id)).Nodup ↔ (other.types.map (·.id)).Nodup)
    (o : Options) (text : String) :
    (d.generate o).result = .ok text ↔ (other.generate o).result = .ok text := by
  by_cases hids : (d.types.map (·.id)).Nodup
  . obtain ⟨types, functions⟩ := d
    obtain ⟨others, functions'⟩ := other
    dsimp only at hembeds hfunctions hids hnodup
    subst hfunctions
    let u : Universe := ⟨types, hids⟩
    let v : Universe := ⟨others, hnodup.1 hids⟩
    obtain ⟨e, hrenamed⟩ := Embeds.exists_embedding (u := u) (v := v) hembeds hs
    rcases Resolution.resolve_embedding_cases e with ⟨r, hr, hr'⟩ | ⟨_, _, herror, herror', _⟩
    . have hu := generate_eq_ok_iff_of_resolve hr o text
      have hv := generate_eq_ok_iff_of_resolve hr' o text
      rw [hu, hv, check_embedding e hrenamed hr hr', text_embedding e hrenamed o hr]
      exact and_congr_left fun _ => hvalid
    . have hu := generate_ne_ok_of_resolve herror o text
      have hv := generate_ne_ok_of_resolve herror' o text
      exact iff_of_false hu hv
  . constructor
    . intro h
      exact absurd (nodup_ids_of_generate h) hids
    . intro h
      exact absurd (hnodup.2 (nodup_ids_of_generate h)) hids

/--
A type that nothing on the way to the artifact names does not show in it. It must be valid on its
own and its identifier must be free, but it may refer to undeclared types and it may share its
declared name with another type.
-/
theorem generate_insert_unreachable {before after : List TypeDecl} {functions : List FunctionDecl}
    {decl : TypeDecl} {position : Nat} (hid : ∀ other ∈ before ++ after, other.id ≠ decl.id)
    (hvalid : decl.validate position = .ok ()) (hexported : decl.exported = false)
    (hunnamed : ∀ site, ¬ MentionedAt (before ++ after) functions decl.id site) (o : Options)
    (text : String) :
    (generate ⟨before ++ after, functions⟩ o).result = .ok text
      ↔ (generate ⟨before ++ decl :: after, functions⟩ o).result = .ok text := by
  have hmem : ∀ other,
      other ∈ before ++ decl :: after ↔ other = decl ∨ other ∈ before ++ after := by
    intro other
    simp only [List.mem_append, List.mem_cons]
    tauto
  apply generate_eq_ok_iff_of_embeds Function.injective_id
  . constructor
    . intro other hother
      exact ⟨other, (hmem other).2 (Or.inr hother), other.renamed_refl⟩
    . simp [hexported]
    . intro id site hmention hundeclared hdeclared
      obtain ⟨other, hother, heq⟩ := declared_iff.1 hdeclared
      rcases (hmem other).1 hother with hsame | hother
      . subst hsame
        subst heq
        exact hunnamed site hmention
      . exact hundeclared (declared_iff.2 ⟨other, hother, heq⟩)
  . simp [FunctionDecl.mapIds_id]
  . have hdecl := TypeDecl.validate_eq_ok_iff.1 hvalid
    simp only [validate_eq_ok_iff_wellFormed, hmem, forall_eq_or_imp, hdecl, true_and]
  . have hfresh : decl.id ∉ (before ++ after).map (·.id) := by
      rw [List.mem_map]
      rintro ⟨other, hother, heq⟩
      exact hid other hother heq
    rw [List.map_append] at hfresh
    simp only [List.map_append, List.map_cons, List.nodup_middle, List.nodup_cons, hfresh,
      not_false_eq_true, true_and]

def spare : TypeDecl where
  id := "Spare"
  rename := some "Note"
  body := .struct [{ name := "next", type := .named "Nowhere" }]

theorem generate_insert_spare :
    (∀ site, ¬ MentionedAt notes.decls [readNote] "Spare" site)
      ∧ (generate ⟨notes.decls.take 1 ++ spare :: notes.decls.drop 1, [readNote]⟩ flush).result
        = .ok (Artifact.text flush
          (⟨[(1 : Fin 2), (0 : Fin 2)], [readNote]⟩ : Resolution notes)) := by
  have hunnamed : ∀ site, ¬ MentionedAt notes.decls [readNote] "Spare" site := by
    intro site hmention
    have hdeclared := Resolution.closed_of_resolve accepted_notes.resolved "Spare" site hmention
    have hnone : ¬ ∃ i : Fin 2, (notes.decls.get i).id = "Spare" := by decide
    exact hnone hdeclared
  have hfree : ∀ other ∈ notes.decls.take 1 ++ notes.decls.drop 1, other.id ≠ spare.id := by decide
  have hvalid : spare.validate 1 = .ok () := rfl
  refine ⟨hunnamed, ?_⟩
  apply (generate_insert_unreachable hfree hvalid rfl hunnamed flush _).1
  exact accepted_notes.generate_eq_ok flush

/--
The positions of types show in the artifact only by the order of those that are exported.
-/
theorem generate_perm {d other : Description} (hfunctions : other.functions = d.functions)
    (htypes : d.types.Perm other.types)
    (hexported : d.types.filter (·.exported) = other.types.filter (·.exported)) (o : Options)
    (text : String) :
    (d.generate o).result = .ok text ↔ (other.generate o).result = .ok text := by
  apply generate_eq_ok_iff_of_embeds Function.injective_id
  . constructor
    . intro decl hmem
      exact ⟨decl, htypes.mem_iff.1 hmem, decl.renamed_refl⟩
    . rw [hexported]
      rfl
    . intro id site _ hundeclared hdeclared
      obtain ⟨decl, hmem, heq⟩ := declared_iff.1 hdeclared
      exact hundeclared (declared_iff.2 ⟨decl, htypes.mem_iff.2 hmem, heq⟩)
  . simp [FunctionDecl.mapIds_id, hfunctions]
  . simp only [validate_eq_ok_iff_wellFormed, htypes.mem_iff, hfunctions]
  . exact (htypes.map _).nodup_iff

theorem generate_segment_reverse :
    Resolution.segment.decls.reverse ≠ Resolution.segment.decls
      ∧ ∃ text, (generate ⟨Resolution.segment.decls, []⟩ {}).result = .ok text
        ∧ (generate ⟨Resolution.segment.decls.reverse, []⟩ {}).result = .ok text := by
  have hresolved : (Resolution.resolve Resolution.segment []).result
      = .ok ⟨[(2 : Fin 3), (1 : Fin 3), (0 : Fin 3)], []⟩ := by
    cbv
  have haccepted : Accepted ⟨Resolution.segment.decls, []⟩ Resolution.segment
      ⟨[(2 : Fin 3), (1 : Fin 3), (0 : Fin 3)], []⟩ :=
    ⟨rfl, Universe.ofDecls_eq_ok_iff.2 rfl, hresolved, rfl⟩
  have hok := haccepted.generate_eq_ok {}
  let forward : Description := ⟨Resolution.segment.decls, []⟩
  let reversed : Description := ⟨Resolution.segment.decls.reverse, []⟩
  have hfunctions : reversed.functions = forward.functions := rfl
  have htypes : forward.types.Perm reversed.types := (List.reverse_perm _).symm
  have hexported : forward.types.filter (·.exported) = reversed.types.filter (·.exported) := by
    decide
  refine ⟨by decide, _, hok, ?_⟩
  exact (generate_perm hfunctions htypes hexported {} _).1 hok

theorem wellFormed_mapIds (hnames : ∀ decl ∈ d.types, Identifier.Declarable (s decl.id))
    (h : d.validate = .ok ()) : (d.mapIds s).validate = .ok () := by
  rw [validate_eq_ok_iff_wellFormed] at h ⊢
  constructor
  . intro other hmem
    obtain ⟨decl, hdecl, heq⟩ := List.mem_map.1 hmem
    subst heq
    have hwellFormed := h.1 decl hdecl
    exact ⟨hnames decl hdecl, hwellFormed.declaredName, hwellFormed.body.mapIds⟩
  . intro other hmem
    obtain ⟨function, hfunction, heq⟩ := List.mem_map.1 hmem
    subst heq
    exact (h.2 function hfunction).mapIds

/--
Identifiers are internal names. Replacing them by others while the declared names are kept does not
show in the artifact.
-/
theorem generate_mapIds {d : Description} {s : String → String} (hs : Function.Injective s)
    (hnames : ∀ decl ∈ d.types, Identifier.Declarable (s decl.id)) {o : Options} {text : String}
    (h : (d.generate o).result = .ok text) : ((d.mapIds s).generate o).result = .ok text := by
  have hvalid : d.validate = .ok () := by
    obtain ⟨u, r, haccepted, _⟩ := generate_eq_ok_iff.1 h
    exact haccepted.valid
  apply (generate_eq_ok_iff_of_embeds hs ?_ rfl ?_ ?_ o text).1 h
  . constructor
    . intro decl hmem
      exact ⟨decl.mapIds s, List.mem_map_of_mem hmem, decl.renamed_mapIds s⟩
    . simp [mapIds, List.filter_map, Function.comp_def, TypeDecl.mapIds]
    . intro id site _ hundeclared hdeclared
      obtain ⟨other, hmem, heq⟩ := declared_iff.1 hdeclared
      obtain ⟨decl, hdecl, hother⟩ := List.mem_map.1 hmem
      subst hother
      exact hundeclared (declared_iff.2 ⟨decl, hdecl, hs heq⟩)
  . exact iff_of_true hvalid (wellFormed_mapIds hnames hvalid)
  . have hids : (d.mapIds s).types.map (·.id) = (d.types.map (·.id)).map s := by
      simp [mapIds, TypeDecl.mapIds]
    rw [hids, List.nodup_map_iff hs]

theorem generate_notes_mapIds :
    ((mapIds ("Native_" ++ ·) ⟨notes.decls, [readNote]⟩).generate flush).result
      = .ok (Artifact.text flush
        (⟨[(1 : Fin 2), (0 : Fin 2)], [readNote]⟩ : Resolution notes)) := by
  have hs : Function.Injective fun name : String => "Native_" ++ name := by
    intro name other heq
    simpa using heq
  have hnames : ∀ decl ∈ notes.decls, Identifier.Declarable ("Native_" ++ decl.id) := by
    decide
  exact generate_mapIds hs hnames (accepted_notes.generate_eq_ok flush)

end Description

end Bindings
