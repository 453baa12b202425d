import Bindings.Proofs.Artifact.Congruence
import Bindings.Proofs.Artifact.DeclaredNames

/-!
This module contains what the references of an artifact are written with: the texts of types use no
name but those of the identifiers that they mention, and all of these are declared in the artifact.
-/

namespace Bindings.Artifact

open Text

def Agree (nameOf nameOf' : String → String) (type : TypeRef) : Prop :=
  ∀ id, type.Mentions id → nameOf id = nameOf' id

section Congruence

variable {nameOf nameOf' : String → String} {o : Options}

theorem mentions_of_partOf {id : String} {type : TypeRef} (h : (TypeRef.named id).PartOf type) :
    type.Mentions id := by
  induction h with
  | self => exact .named
  | vector _ ih => exact .vector ih
  | option _ ih => exact .option ih
  | tuple hmem _ ih => exact .tuple hmem ih
  | mapKey _ ih => exact .mapKey ih
  | mapValue _ ih => exact .mapValue ih

theorem Agree.sameWords {type : TypeRef} (h : Agree nameOf nameOf' type) :
    SameWords nameOf nameOf' o o type := by
  intro part hpart
  cases part with
  | scalar kind => rfl
  | named id => exact h id (mentions_of_partOf hpart)
  | vector element => exact trivial
  | option inner => rfl
  | tuple elements => exact trivial
  | map key value => rfl

theorem typeLines_congr {decl : TypeDecl} (position : Nat)
    (h : ∀ type site, decl.Makes position type site → Agree nameOf nameOf' type) :
    typeLines nameOf o decl = typeLines nameOf' o decl := by
  refine (sameBlock_typeLines ⟨?_, fun _ _ _ _ => rfl, fun _ _ _ _ _ _ _ => rfl⟩).eq rfl rfl
  intro type hmem
  rw [← decl.map_fst_references position] at hmem
  obtain ⟨⟨_, site⟩, hreference, rfl⟩ := List.mem_map.1 hmem
  exact (h _ _ (TypeDecl.mem_references_iff.1 hreference)).sameWords

theorem functionLines_congr {function : FunctionDecl}
    (h : ∀ type site, function.Makes type site → Agree nameOf nameOf' type) :
    functionLines nameOf o function = functionLines nameOf' o function :=
  (sameBlock_functionLines (fun type site hmakes => (h type site hmakes).sameWords) rfl).eq rfl rfl

end Congruence

inductive Shows (r : Resolution u) : TypeRef → Prop
  | decl (hi : i ∈ r.order) (hmakes : (u.get i).Makes i type site) : Shows r type
  | function (hmem : function ∈ r.functions) (hmakes : function.Makes type site) : Shows r type

def linesBy (nameOf : String → String) (o : Options) (r : Resolution u) : List String :=
  let types := r.decls.map (typeLines nameOf o)
  let functions := r.functions.flatMap (functionLines nameOf o)
  o.header ++ separate types
    ++ (if !types.isEmpty && !r.functions.isEmpty then [""] else []) ++ functions

theorem linesBy_eq_lines {nameOf : String → String} {o : Options} {r : Resolution u}
    (h : ∀ type, Shows r type → Agree nameOf u.nameOf type) : linesBy nameOf o r = lines o r := by
  have htypes : ∀ decl ∈ r.decls, typeLines nameOf o decl = typeLines u.nameOf o decl := by
    intro decl hmem
    obtain ⟨i, hi, heq⟩ := List.mem_map.1 hmem
    rw [← heq]
    exact typeLines_congr i fun type site hmakes => h type (.decl hi hmakes)
  have hfunctions : ∀ function ∈ r.functions,
      functionLines nameOf o function = functionLines u.nameOf o function := by
    intro function hmem
    exact functionLines_congr fun type site hmakes => h type (.function hmem hmakes)
  unfold linesBy lines
  rw [List.map_congr_left htypes, List.flatMap_congr hfunctions]

/--
An identifier in a type expression stands for a type of the artifact: the reference is written with
the name that the block of this type declares, and nothing else in the artifact declares it.
-/
structure LeadsTo (o : Options) (r : Resolution u) (text id : String) (i : u.Id) : Prop where
  resolved : i ∈ r.order
  found : u.lookup id = some i
  written : typeText u.nameOf o (.named id) = (u.get i).declaredName
  block : (unlines (typeLines u.nameOf o (u.get i))).toList <:+: text.toList
  headed : declaredNames o ((typeLines u.nameOf o (u.get i)).map String.toList)
    = [some (typeText u.nameOf o (.named id))]
  once : ∃ rest, text = unlines o.header ++ rest
    ∧ (declaredNames o (rest.toList.splitOn '\n')).count
        (some (typeText u.nameOf o (.named id))) = 1
  one_type : ∀ j ∈ r.order, (u.get j).declaredName = typeText u.nameOf o (.named id) → j = i
  no_function : ∀ function ∈ r.functions, function.name ≠ typeText u.nameOf o (.named id)

theorem isInfix_separate {block : List String} {blocks : List (List String)} (h : block ∈ blocks) :
    (unlines block).toList <:+: (unlines (separate blocks)).toList := by
  induction blocks using separate.induct with
  | case1 => cases h
  | case2 only =>
    rw [List.mem_singleton] at h
    rw [h]
    exact List.infix_refl _
  | case3 first rest hnil ih =>
    have hlist : unlines (separate (first :: rest))
        = unlines first ++ unlines [""] ++ unlines (separate rest) := by
      rw [separate, ← unlines_append, ← unlines_append]
      . simp
      . exact hnil
    rw [hlist, String.toList_append, String.toList_append]
    rw [List.mem_cons] at h
    cases h with
    | inl heq =>
      rw [heq, List.append_assoc]
      exact (List.prefix_append _ _).isInfix
    | inr hmem => exact (ih hmem).trans (List.suffix_append _ _).isInfix

theorem isInfix_text {r : Resolution u} {i : u.Id} (o : Options) (hi : i ∈ r.order) :
    (unlines (typeLines u.nameOf o (u.get i))).toList <:+: (text o r).toList := by
  have hmem : typeLines u.nameOf o (u.get i) ∈ r.decls.map (typeLines u.nameOf o) :=
    List.mem_map_of_mem (List.mem_map_of_mem hi)
  apply (isInfix_separate hmem).trans
  unfold text lines
  simp only [unlines_append, String.toList_append, List.append_assoc]
  exact ⟨_, _, by rw [List.append_assoc]⟩

theorem leadsTo_of_mentions {d : Description} {u : Universe} {r : Resolution u}
    (h : d.Accepted u r) (o : Options) {type : TypeRef} {id : String} (hshows : Shows r type)
    (hmention : type.Mentions id) : ∃ i, LeadsTo o r (text o r) id i := by
  have hmentioned : ∃ site, (∃ function ∈ d.functions, function.MentionsAt id site)
      ∨ ∃ i ∈ r.order, (u.get i).MentionsAt i id site := by
    cases hshows with
    | decl hi hmakes => exact ⟨_, Or.inr ⟨_, hi, type, hmakes, hmention⟩⟩
    | function hmem hmakes =>
      rw [h.functions_eq] at hmem
      exact ⟨_, Or.inl ⟨_, hmem, type, hmakes, hmention⟩⟩
  obtain ⟨site, hmentioned⟩ := hmentioned
  obtain ⟨i, hi, hid⟩ := Resolution.mem_order_of_mentionedAt h.resolved hmentioned
  have hfound : u.lookup id = some i := Universe.lookup_eq_some_iff.2 hid
  have hwritten : typeText u.nameOf o (.named id) = (u.get i).declaredName := by
    simp only [typeText, Universe.nameOf, hfound]
  have hname : (u.get i).declaredName ∈ r.decls.map (·.declaredName) :=
    List.mem_map_of_mem (List.mem_map_of_mem hi)
  have hnames := h.nodup_names
  have hcount : ((r.decls.map (·.declaredName) ++ d.functions.map (·.name)).map some).count
      (some (u.get i).declaredName) = 1 := by
    apply List.count_eq_one_of_mem (hnames.map fun _ _ => Option.some.inj)
    exact List.mem_map_of_mem (List.mem_append_left _ hname)
  rw [List.nodup_append, Resolution.decls, List.map_map] at hnames
  obtain ⟨htypes, _, hapart⟩ := hnames
  rw [Resolution.decls, List.map_map] at hname
  refine ⟨i, hi, hfound, hwritten, isInfix_text o hi, ?_, ?_, ?_, ?_⟩
  . rw [hwritten]
    exact (declares_typeLines (h.isIdentifier_declaredName i) (h.writable_body hi)).declared
  . rw [hwritten, ← hcount, ← declaredNames_bodyLines h o]
    exact ⟨_, text_eq_append o r, rfl⟩
  . intro j hj heq
    rw [hwritten] at heq
    exact List.inj_on_of_nodup_map htypes hj hi heq
  . intro function hmem heq
    rw [h.functions_eq] at hmem
    rw [hwritten] at heq
    exact hapart _ hname _ (List.mem_map_of_mem hmem) heq.symm

end Bindings.Artifact
