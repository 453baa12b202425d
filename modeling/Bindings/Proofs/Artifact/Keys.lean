import Bindings.Proofs.Artifact.VariantTags

/-!
This module contains that the keys of each object type in an artifact are pairwise distinct, and so
are the tags that tell the members of a union apart.
-/

namespace Bindings

section Names

theorem nodup_flattenedObjects {fields : List Field} :
    ∀ names ∈ flattenedObjects fields, names.Nodup := by
  intro names hmem
  obtain ⟨field, _, hnames⟩ := List.mem_flatMap.1 hmem
  split at hnames
  . rw [List.mem_singleton.1 hnames]
    exact List.nodup_nil
  . cases hnames

theorem nodup_fieldObjects {leading : List String} {fields : List Field}
    (h : (leading ++ propertyNames fields).Nodup) :
    ∀ names ∈ fieldObjects leading fields, names.Nodup := by
  intro names hmem
  unfold fieldObjects at hmem
  cases List.mem_append.1 hmem with
  | inl hmem =>
    split at hmem
    . cases hmem
    . rw [List.mem_singleton.1 hmem]
      exact h
  | inr hmem => exact nodup_flattenedObjects names hmem

theorem Variant.WellFormed.nodup_objects {tagging : Tagging} {variant : Variant}
    (htagging : tagging.WellFormed) (h : variant.WellFormed tagging) :
    ∀ names ∈ variant.objects tagging, names.Nodup := by
  obtain ⟨name, payload, doc⟩ := variant
  obtain ⟨_, hadmitted, hpayload⟩ := h
  have hone : ∀ name : String, ∀ names ∈ [[name]], names.Nodup := by
    simp
  have hfields : ∀ fields, payload = .struct fields →
      ∀ names ∈ fieldObjects [] fields, names.Nodup := by
    rintro fields rfl
    exact nodup_fieldObjects hpayload.nodup
  cases tagging with
  | external =>
    cases payload with
    | unit => exact List.forall_mem_nil _
    | newtype type => exact hone name
    | tuple elements => exact hone name
    | struct fields => exact List.forall_mem_cons.2 ⟨List.nodup_singleton _, hfields fields rfl⟩
  | internal tag =>
    cases payload with
    | unit => exact hone tag
    | newtype type => exact hone tag
    | tuple elements => exact hone tag
    | struct fields => exact nodup_fieldObjects (List.nodup_cons.2 ⟨hadmitted, hpayload.nodup⟩)
  | adjacent tag content =>
    have hpair : [tag, content].Nodup := by
      simpa using htagging.2.2
    cases payload with
    | unit => exact hone tag
    | newtype type => exact List.forall_mem_singleton.2 hpair
    | tuple elements => exact List.forall_mem_singleton.2 hpair
    | struct fields => exact List.forall_mem_cons.2 ⟨hpair, hfields fields rfl⟩
  | untagged =>
    cases payload with
    | struct fields => exact hfields fields rfl
    | _ => exact List.forall_mem_nil _

theorem Body.WellFormed.nodup_objects {body : Body} (h : body.WellFormed) :
    ∀ names ∈ body.objects, names.Nodup := by
  cases body with
  | struct fields => exact nodup_fieldObjects h.nodup
  | enum tagging variants =>
    intro names hmem
    obtain ⟨variant, hvariant, hnames⟩ := List.mem_flatMap.1 hmem
    exact (h.2.1 variant hvariant).nodup_objects h.1 names hnames
  | typeAlias target => exact List.forall_mem_nil _

end Names

namespace Artifact

open Text

theorem exists_reads_separate {elements : List α} {block : α → List String}
    (h : ∀ element ∈ elements, Readable (unlines (block element))) :
    ∃ trees, Reads (unlines (separate (elements.map block))) trees
      ∧ ∀ element ∈ elements, ∀ inner, Reads (unlines (block element)) inner →
        inner <:+: trees := by
  induction elements with
  | nil => exact ⟨[], Reads.signs rfl, List.forall_mem_nil _⟩
  | cons element elements ih =>
    rw [List.forall_mem_cons] at h
    obtain ⟨first, hfirst⟩ := h.1
    obtain ⟨trees, hreads, hpart⟩ := ih h.2
    cases elements with
    | nil =>
      refine ⟨first, by simpa [separate] using hfirst, ?_⟩
      rw [List.forall_mem_singleton]
      intro inner hinner
      exact hinner.unique hfirst ▸ List.infix_rfl
    | cons next elements =>
      have hgap : Reads (unlines [""]) [.sign '\n'] := Reads.signs rfl
      refine ⟨first ++ ([.sign '\n'] ++ trees), ?_, ?_⟩
      . simpa [separate, unlines, unlines_append] using hfirst.append (hgap.append hreads)
      . rw [List.forall_mem_cons]
        constructor
        . intro inner hinner
          rw [hinner.unique hfirst]
          exact (List.prefix_append _ _).isInfix
        . intro other hmem inner hinner
          have hsuffix : trees <:+ first ++ ([.sign '\n'] ++ trees) :=
            (List.suffix_append _ _).trans (List.suffix_append _ _)
          exact (hpart other hmem inner hinner).trans hsuffix.isInfix

theorem exists_blocks {d : Description} {u : Universe} {r : Resolution u} (h : d.Accepted u r)
    (o : Options) :
    ∃ trees, Reads (unlines (bodyLines o r)) trees
      ∧ (∀ decl ∈ r.decls, ∀ inner, Reads (unlines (typeLines u.nameOf o decl)) inner →
        inner <:+: trees)
      ∧ objectKeys trees = (r.decls.flatMap (·.body.objects)).map (·.map propertyKey) := by
  have hreadable : ∀ decl ∈ r.decls, Readable (unlines (typeLines u.nameOf o decl)) := by
    intro decl hmem
    obtain ⟨i, hi, rfl⟩ := List.mem_map.1 hmem
    obtain ⟨trees, hreads, _⟩ := stated_decl h o hi
    exact ⟨trees, hreads⟩
  obtain ⟨types, htypes, hpart⟩ := exists_reads_separate hreadable
  obtain ⟨others, hothers, _⟩ := stated_functions h o
  obtain ⟨trees, hreads, _, hobjects, _⟩ := stated_bodyLines h o
  have hsplit : trees = types ++ others := by
    apply hreads.unique
    rw [bodyLines, unlines_append]
    exact htypes.append hothers
  refine ⟨trees, hreads, ?_, hobjects⟩
  intro decl hmem inner hinner
  rw [hsplit]
  exact (hpart decl hmem inner hinner).trans (List.prefix_append _ _).isInfix

/--
In an artifact the keys of each object type are pairwise distinct texts, and so are the tags that
tell the members of a union apart. The object types are those that its types call for, in order, and
the tags are those of the variants.
-/
theorem nodup_keys_of_generate {d : Description} {o : Options} {text : String}
    (h : (d.generate o).result = .ok text) :
    ∃ u, ∃ r : Resolution u, ∃ rest trees,
      Universe.ofDecls d.types = .ok u
        ∧ (Resolution.resolve u d.functions).result = .ok r
        ∧ text = unlines o.header ++ rest
        ∧ trees? rest = some trees
        ∧ objectKeys trees = (r.decls.flatMap (·.body.objects)).map (·.map propertyKey)
        ∧ (∀ keys ∈ objectKeys trees, keys.Nodup)
        ∧ ∀ decl ∈ r.decls, ∀ tagging variants, decl.body = .enum tagging variants →
          tagging ≠ .untagged →
            ∃ block, trees? (unlines (typeLines u.nameOf o decl)) = some block
              ∧ block <:+: trees
              ∧ block.filterMap (tag? tagging) = variants.map (tagText tagging)
              ∧ (block.filterMap (tag? tagging)).Nodup := by
  obtain ⟨u, r, haccepted, heq⟩ := Description.generate_eq_ok_iff.1 h
  obtain ⟨trees, hreads, hpart, hobjects⟩ := exists_blocks haccepted o
  have hwellFormed : ∀ decl ∈ r.decls, decl.body.WellFormed := by
    intro decl hmem
    obtain ⟨i, _, rfl⟩ := List.mem_map.1 hmem
    have hvalid := Description.validate_eq_ok_iff_wellFormed.1 haccepted.valid
    exact (hvalid.1 _ (haccepted.mem_types i)).body
  refine ⟨u, r, unlines (bodyLines o r), trees, haccepted.declared, haccepted.resolved, ?_,
    hreads.trees?_eq_some, hobjects, ?_, ?_⟩
  . rw [heq, text_eq_append]
  . rw [hobjects]
    intro keys hmem
    obtain ⟨names, hnames, rfl⟩ := List.mem_map.1 hmem
    obtain ⟨decl, hdecl, hnames⟩ := List.mem_flatMap.1 hnames
    have hnodup := (hwellFormed decl hdecl).nodup_objects names hnames
    exact hnodup.map fun _ _ => propertyKey_injective
  . intro decl hmem tagging variants henum hne
    have hbody := hwellFormed decl hmem
    rw [henum] at hbody
    obtain ⟨i, hi, rfl⟩ := List.mem_map.1 hmem
    obtain ⟨block, hblock, htags⟩ := tagged_typeLines (o := o)
      (haccepted.isIdentifier_declaredName i) (haccepted.writable_body hi) henum hne
    refine ⟨block, hblock.trees?_eq_some, hpart _ hmem block hblock, htags, ?_⟩
    rw [htags]
    exact nodup_tagText tagging hbody.2.2

theorem nodup_keys_notes :
    ∃ text trees, (Description.generate ⟨notes.decls, [readNote]⟩ plainNotes).result = .ok text
      ∧ trees? text = some trees
      ∧ objectKeys trees
        = [["\"\\nexport type\""], ["export", "\"type\\nexport type Key\""]]
      ∧ (∀ keys ∈ objectKeys trees, keys.Nodup)
      ∧ ∃ block, block <:+: trees
        ∧ block.filterMap (tag? (.internal "\nexport type")) = ["\"Red\""] := by
  have hok := accepted_notes.generate_eq_ok plainNotes
  obtain ⟨u, r, rest, trees, hdeclared, hresolved, htext, hreads, hobjects, hnodup, htags⟩ :=
    nodup_keys_of_generate hok
  rw [accepted_notes.declared] at hdeclared
  cases hdeclared
  rw [accepted_notes.resolved] at hresolved
  cases hresolved
  have hrest : text plainNotes _ = rest := htext.trans (String.empty_append)
  rw [← hrest] at hreads
  refine ⟨_, trees, hok, hreads, ?_, hnodup, ?_⟩
  . rw [hobjects]
    decide +kernel
  . obtain ⟨block, _, hpart, hread, _⟩ := htags (notes.get (1 : Fin 2)) List.mem_cons_self _ _ rfl
      (by decide)
    refine ⟨block, hpart, ?_⟩
    rw [hread]
    decide +kernel

end Artifact

end Bindings
