import Bindings.Proofs.Native.Clause.Directives
import Bindings.Proofs.Native.Clause.Uniqueness

/-!
This module contains that what attributes ask for is decided by the sequence of the arguments of the
`serde` attributes among them, and only by those arguments that ask for something.
-/

namespace Bindings.Native

open Grammar Directive Directive.Clause

namespace Attribute

def Holds (a : Attribute) (row : List TokenTree) : Prop :=
  a.isNamed "serde" ∧ ∃ closed, a.body = .list row closed

inductive Spells (a : Attribute) : List Clause → Prop
  | other (h : a.isNamed "serde" = false) : Spells a []
  | empty (h : a.Holds []) : Spells a []
  | arguments {clauses : List Clause} {row last : List TokenTree} (h : a.Holds (row ++ last))
    (hrow : Separated Row clauses row) (hlast : Trailing last) : Spells a clauses

end Attribute

inductive SpellsAll : List Attribute → List Clause → Prop
  | nil : SpellsAll [] []
  | cons {a : Attribute} {attributes : List Attribute} {clauses clauses' : List Clause}
    (h : a.Spells clauses) (hs : SpellsAll attributes clauses') :
    SpellsAll (a :: attributes) (clauses ++ clauses')

variable {a whole first second : Attribute} {attributes before after : List Attribute}
variable {clause : Clause} {clauses clauses' : List Clause} {directives : List Directive}

/-! What is spelled -/

theorem Attribute.Holds.unique {row row' : List TokenTree} (h : a.Holds row) (h' : a.Holds row') :
    row = row' := by
  obtain ⟨-, closed, hbody⟩ := h
  obtain ⟨-, closed', hbody'⟩ := h'
  exact (AttributeBody.list.inj (hbody.symm.trans hbody')).1

theorem Attribute.Spells.unique (h : a.Spells clauses) (h' : a.Spells clauses') :
    clauses = clauses' := by
  cases h with
  | other h =>
    cases h' with
    | other | empty => rfl
    | arguments h' => exact absurd h'.1 (Bool.eq_false_iff.mp h)
  | empty h =>
    cases h' with
    | other | empty => rfl
    | arguments h' hrow' => exact absurd (h.unique h') (hrow'.append_ne_nil _).symm
  | arguments h hrow hlast =>
    cases h' with
    | other h' => exact absurd h.1 (Bool.eq_false_iff.mp h')
    | empty h' => exact absurd (h'.unique h) (hrow.append_ne_nil _).symm
    | arguments h' hrow' hlast' => exact hrow.unique hrow' hlast hlast' (h.unique h')

namespace SpellsAll

theorem cons_iff : SpellsAll (a :: attributes) clauses ↔
    ∃ clauses₁ clauses₂, a.Spells clauses₁ ∧ SpellsAll attributes clauses₂ ∧
      clauses = clauses₁ ++ clauses₂ := by
  constructor
  . intro h
    cases h with
    | cons ha hs => exact ⟨_, _, ha, hs, rfl⟩
  . rintro ⟨clauses₁, clauses₂, ha, hs, rfl⟩
    exact .cons ha hs

theorem unique (h : SpellsAll attributes clauses) (h' : SpellsAll attributes clauses') :
    clauses = clauses' := by
  induction h generalizing clauses' with
  | nil =>
    cases h'
    rfl
  | cons h _ ih =>
    obtain ⟨clauses₁, clauses₂, ha, hs, rfl⟩ := cons_iff.mp h'
    rw [h.unique ha, ih hs]

theorem cons_other_iff (h : a.isNamed "serde" = false) :
    SpellsAll (a :: attributes) clauses ↔ SpellsAll attributes clauses := by
  rw [cons_iff]
  constructor
  . rintro ⟨clauses₁, clauses₂, ha, hs, rfl⟩
    obtain rfl := ha.unique (.other h)
    exact hs
  . intro hs
    exact ⟨[], clauses, .other h, hs, rfl⟩

theorem append_congr {after' : List Attribute}
    (h : ∀ clauses, SpellsAll after clauses ↔ SpellsAll after' clauses) (before : List Attribute)
    (clauses : List Clause) :
    SpellsAll (before ++ after) clauses ↔ SpellsAll (before ++ after') clauses := by
  induction before generalizing clauses with
  | nil => exact h clauses
  | cons a before ih => simp only [List.cons_append, cons_iff, ih]

end SpellsAll

theorem Directive.Clause.Separated.append {P : α → List TokenTree → Prop} {as bs : List α}
    {row rows : List TokenTree} (h : Separated P as row) (hs : Separated P bs rows) (joint : Bool)
    (position : Position) :
    Separated P (as ++ bs) (row ++ .punct ',' joint position :: rows) := by
  induction h with
  | single h => exact .cons h joint position hs
  | cons h joint' position' _ ih =>
    rw [List.append_assoc]
    exact .cons h joint' position' ih

/--
An attribute with arguments and two others with a part of them each.
-/
inductive Splits (whole first second : Attribute) : Prop
  | intro {clauses clauses' : List Clause} {row row' last last₁ last₂ : List TokenTree}
    (h : Separated Row clauses row) (h' : Separated Row clauses' row') (joint : Bool)
    (position : Position) (hlast : Trailing last) (hlast₁ : Trailing last₁)
    (hlast₂ : Trailing last₂)
    (hwhole : whole.Holds (row ++ .punct ',' joint position :: row' ++ last))
    (hfirst : first.Holds (row ++ last₁)) (hsecond : second.Holds (row' ++ last₂))

theorem Splits.spellsAll_iff (h : Splits whole first second) :
    SpellsAll (whole :: attributes) clauses ↔
      SpellsAll (first :: second :: attributes) clauses := by
  obtain ⟨h, h', joint, position, hlast, hlast₁, hlast₂, hwhole, hfirst, hsecond⟩ := h
  have hwhole := Attribute.Spells.arguments hwhole (h.append h' joint position) hlast
  have hfirst := Attribute.Spells.arguments hfirst h hlast₁
  have hsecond := Attribute.Spells.arguments hsecond h' hlast₂
  simp only [SpellsAll.cons_iff]
  constructor
  . rintro ⟨clauses₁, clauses₂, ha, hs, rfl⟩
    obtain rfl := ha.unique hwhole
    exact ⟨_, _, hfirst, ⟨_, _, hsecond, hs, rfl⟩, List.append_assoc ..⟩
  . rintro ⟨clauses₁, _, ha, ⟨clauses₂, clauses₃, hb, hs, rfl⟩, rfl⟩
    obtain rfl := ha.unique hfirst
    obtain rfl := hb.unique hsecond
    exact ⟨_, _, hwhole, hs, (List.append_assoc ..).symm⟩

/-! What is read -/

namespace Directive

theorem ofAttribute_list_eq {tokens : List TokenTree} {closed : Position} (h : tokens ≠ [])
    (hbody : a.body = .list tokens closed) :
    ofAttribute a =
      ((arguments (named (rulesFor tokens) (TokenTree.sizeAll tokens + 1))).parse
        { trees := tokens, closed }).mapError .argument := by
  unfold ofAttribute
  rw [hbody]
  cases tokens with
  | nil => exact absurd rfl h
  | cons => rfl

theorem mapError_eq_ok_iff {ε ε' : Type} {f : ε → ε'} {x : Except ε α} {y : α} :
    x.mapError f = .ok y ↔ x = .ok y := by
  cases x <;> simp [Except.mapError]

theorem ofAttribute_eq_ok_iff (h : a.isNamed "serde") :
    ofAttribute a = .ok directives ↔
      ∃ clauses, a.Spells clauses ∧ Accepted clauses ∧
        clauses.filterMap directive? = directives := by
  have hnamed : ∀ tokens k, Meets (TokenTree.sizeAll tokens + 1) k
      (named (rulesFor tokens) (TokenTree.sizeAll tokens + 1) k) fun clause directive =>
        clause.directive? = some directive :=
    fun tokens => named_meets (Nat.le_refl _) (Nat.le_refl _)
  constructor
  . intro hread
    match hbody : a.body with
    | .bare | .value _ _ =>
      unfold ofAttribute at hread
      rw [hbody] at hread
      cases hread
    | .list [] closed =>
      unfold ofAttribute at hread
      rw [hbody] at hread
      cases hread
      exact ⟨[], .empty ⟨h, closed, hbody⟩, nofun, rfl⟩
    | .list (tree :: trees) closed =>
      rw [ofAttribute_list_eq (List.cons_ne_nil tree trees) hbody, mapError_eq_ok_iff,
        parse_eq_ok_iff] at hread
      obtain ⟨s, hs, hnone⟩ := hread
      obtain ⟨hleftover, hend⟩ := Carries.complaint?_eq_none.mp hnone
      obtain ⟨clauses, row, last, hrow, hlast, htrees, hdirectives⟩ :=
        separated_of_eq_ok (hnamed _) hs (Nat.le_refl _) (Nat.lt_succ_self _) hend hleftover
      have htrees : tree :: trees = row ++ last := htrees
      exact ⟨clauses, .arguments ⟨h, closed, htrees ▸ hbody⟩ hrow hlast,
        forall₂_directive?_iff.mp hdirectives⟩
  . rintro ⟨clauses, hspells, hdirectives⟩
    cases hspells with
    | other hother => exact absurd h (Bool.eq_false_iff.mp hother)
    | empty hempty =>
      obtain rfl := hdirectives.2
      obtain ⟨-, closed, hbody⟩ := hempty
      unfold ofAttribute
      rw [hbody]
      rfl
    | @arguments _ row last hholds hrow hlast =>
      obtain ⟨-, closed, hbody⟩ := hholds
      have hsize : TokenTree.sizeAll row < TokenTree.sizeAll (row ++ last) + 1 := by
        rw [TokenTree.sizeAll_append]
        omega
      obtain ⟨directives', hdirectives', hreads⟩ := arguments_reads (hnamed (row ++ last)) hrow
        hlast (forall₂_directive?_iff.mpr hdirectives) hsize
      obtain rfl : directives = directives' :=
        hdirectives.2.symm.trans (forall₂_directive?_iff.mp hdirectives').2
      rw [ofAttribute_list_eq (hrow.append_ne_nil last) hbody, mapError_eq_ok_iff,
        parse_eq_ok_iff]
      obtain ⟨s, hs, hready⟩ := hreads { trees := row ++ last, closed } ⟨rfl, Nat.le_refl _, rfl⟩
      exact ⟨s, hs, Carries.complaint?_eq_none.mpr ⟨hready.leftover, hready.trees⟩⟩

theorem ofAttributes_cons (a : Attribute) (attributes : List Attribute) :
    ofAttributes (a :: attributes) =
      if a.isNamed "serde" then do
        let directives ← ofAttribute a
        let others ← ofAttributes attributes
        return directives ++ others
      else ofAttributes attributes := by
  unfold ofAttributes
  split
  . next h =>
    have hfilter : (a :: attributes).filter (·.isNamed "serde")
        = a :: attributes.filter (·.isNamed "serde") := List.filter_cons_of_pos h
    rw [hfilter, List.mapM_cons]
    simp only [bind_assoc, pure_bind, List.flatten_cons]
  . next h =>
    have hfilter : (a :: attributes).filter (·.isNamed "serde")
        = attributes.filter (·.isNamed "serde") := List.filter_cons_of_neg h
    rw [hfilter]

theorem ofAttributes_eq_ok_iff :
    ofAttributes attributes = .ok directives ↔
      ∃ clauses, SpellsAll attributes clauses ∧ Accepted clauses ∧
        clauses.filterMap directive? = directives := by
  induction attributes generalizing directives with
  | nil =>
    constructor
    . rintro ⟨⟩
      exact ⟨[], .nil, nofun, rfl⟩
    . rintro ⟨_, ⟨⟩, -, rfl⟩
      rfl
  | cons a attributes ih =>
    rw [ofAttributes_cons]
    split
    . next h =>
      constructor
      . intro hread
        obtain ⟨directives₁, hfirst, hread⟩ := exists_of_bind_eq_ok hread
        obtain ⟨directives₂, hothers, hread⟩ := exists_of_bind_eq_ok hread
        cases hread
        obtain ⟨clauses₁, hspells₁, haccepted₁, rfl⟩ := (ofAttribute_eq_ok_iff h).mp hfirst
        obtain ⟨clauses₂, hspells₂, haccepted₂, rfl⟩ := ih.mp hothers
        exact ⟨_, .cons hspells₁ hspells₂, accepted_append.mpr ⟨haccepted₁, haccepted₂⟩,
          List.filterMap_append⟩
      . rintro ⟨clauses, hspells, haccepted, rfl⟩
        obtain ⟨clauses₁, clauses₂, hspells₁, hspells₂, rfl⟩ := SpellsAll.cons_iff.mp hspells
        obtain ⟨haccepted₁, haccepted₂⟩ := accepted_append.mp haccepted
        rw [(ofAttribute_eq_ok_iff h).mpr ⟨clauses₁, hspells₁, haccepted₁, rfl⟩,
          ih.mpr ⟨clauses₂, hspells₂, haccepted₂, rfl⟩, List.filterMap_append]
        rfl
    . next h => simp only [ih, SpellsAll.cons_other_iff (Bool.eq_false_iff.mpr h)]

end Directive

theorem Directives.ofAttributes_eq_ok_iff {d : Directives} :
    Directives.ofAttributes attributes = .ok d ↔
      ∃ clauses, SpellsAll attributes clauses ∧ Accepted clauses ∧
        Clause.directives clauses = d := by
  have hmap : Directives.ofAttributes attributes = .ok d ↔
      ∃ directives, Directive.ofAttributes attributes = .ok directives ∧
        Directives.ofList directives = d := by
    constructor
    . exact exists_of_map_eq_ok
    . rintro ⟨directives, hread, rfl⟩
      unfold Directives.ofAttributes
      rw [hread]
      rfl
  rw [hmap]
  constructor
  . rintro ⟨_, hread, rfl⟩
    obtain ⟨clauses, hspells, haccepted, rfl⟩ := Directive.ofAttributes_eq_ok_iff.mp hread
    exact ⟨clauses, hspells, haccepted, (ofList_filterMap_directive? haccepted).symm⟩
  . rintro ⟨clauses, hspells, haccepted, rfl⟩
    exact ⟨_, Directive.ofAttributes_eq_ok_iff.mpr ⟨clauses, hspells, haccepted, rfl⟩,
      ofList_filterMap_directive? haccepted⟩

/--
What attributes ask for is decided by the arguments that they spell one after the other, which are
spelled in one way only. The last name that is supplied for a rename, a rule, a tag or a content is
the one that is taken. Other attributes that spell the same arguments ask for the same, as far as
these count: an argument without a modelled name does not, whatever stands behind it. So neighbours
can be merged, an attribute can be split between its arguments, and attributes of other names can
stand anywhere.
-/
theorem Directives.ofAttributes_determined_by_arguments {d : Directives}
    (h : Directives.ofAttributes attributes = .ok d) :
    (∃! clauses, SpellsAll attributes clauses) ∧
      (∀ clauses, SpellsAll attributes clauses → d = Clause.directives clauses) ∧
      (∀ clauses attributes' clauses', SpellsAll attributes clauses →
        SpellsAll attributes' clauses' → relevant clauses' = relevant clauses →
        Directives.ofAttributes attributes' = .ok d) ∧
      (∀ clauses clauses' clause attributes', SpellsAll attributes (clauses ++ clauses') →
        modelled.any clause.isNamed = false →
        SpellsAll attributes' (clauses ++ clause :: clauses') →
        Directives.ofAttributes attributes' = .ok d) ∧
      (∀ before after whole first second, Splits whole first second →
        (attributes = before ++ whole :: after →
          Directives.ofAttributes (before ++ first :: second :: after) = .ok d) ∧
        (attributes = before ++ first :: second :: after →
          Directives.ofAttributes (before ++ whole :: after) = .ok d)) ∧
      (∀ before after a, a.isNamed "serde" = false → attributes = before ++ after →
        Directives.ofAttributes (before ++ a :: after) = .ok d) := by
  obtain ⟨clauses, hspells, haccepted, rfl⟩ := Directives.ofAttributes_eq_ok_iff.mp h
  have hsame : ∀ {attributes' clauses'}, SpellsAll attributes' clauses' →
      relevant clauses' = relevant clauses →
      Directives.ofAttributes attributes' = .ok (Clause.directives clauses) := by
    intro attributes' clauses' hspells' hrelevant
    refine Directives.ofAttributes_eq_ok_iff.mpr ⟨clauses', hspells', ?_, ?_⟩
    . rwa [← accepted_relevant_iff, hrelevant, accepted_relevant_iff]
    . rw [← directives_relevant, hrelevant, directives_relevant]
  refine ⟨⟨clauses, hspells, fun _ h => h.unique hspells⟩, ?_, ?_, ?_, ?_, ?_⟩
  . intro clauses' hspells'
    rw [hspells.unique hspells']
  . intro clauses₁ attributes' clauses' hspells₁ hspells' hrelevant
    obtain rfl := hspells.unique hspells₁
    exact hsame hspells' hrelevant
  . intro clauses₁ clauses₂ clause attributes' hspells₁ hmodelled hspells'
    obtain rfl := hspells.unique hspells₁
    exact hsame hspells' (relevant_insert hmodelled clauses₁ clauses₂)
  . intro before after whole first second hsplits
    have hiff : SpellsAll (before ++ whole :: after) clauses ↔
        SpellsAll (before ++ first :: second :: after) clauses :=
      SpellsAll.append_congr (fun _ => hsplits.spellsAll_iff) before clauses
    constructor
    . rintro rfl
      exact hsame (hiff.mp hspells) rfl
    . rintro rfl
      exact hsame (hiff.mpr hspells) rfl
  . rintro before after a ha rfl
    have hiff : SpellsAll (before ++ a :: after) clauses ↔ SpellsAll (before ++ after) clauses :=
      SpellsAll.append_congr (fun _ => SpellsAll.cons_other_iff ha) before clauses
    exact hsame (hiff.mpr hspells) rfl

def serdeAttribute (row : List TokenTree) : Attribute where
  path := ["serde"]
  body := .list row {}

/--
The row `rename = "a"`.
-/
def renameRow : List TokenTree :=
  Written.word "rename" :: Written.sign "=" ++ [.literal "\"a\"" (some "a") {}]

/--
The row `rename(serialize = "b", other(skip))`.
-/
def renameBothRow : List TokenTree :=
  [Written.word "rename", Written.group .paren
    (Written.word "serialize" :: Written.sign "=" ++ .literal "\"b\"" (some "b") {}
      :: Written.sign "," ++ [Written.word "other", Written.group .paren [Written.word "skip"]])]

def defaultRow : List TokenTree :=
  [Written.word "default"]

def renamedTwice : List Attribute :=
  [serdeAttribute renameRow, serdeAttribute renameBothRow]

def renameClause : Clause :=
  .value (some "rename") (some "a")

def renameBothClause : Clause :=
  .list (some "rename")
    [.value (some "serialize") (some "b"), .list (some "other") [.bare (some "skip")]]

theorem row_value (key literal text : String) :
    Row (.value (some key) (some text))
      (Written.word key :: Written.sign "=" ++ [.literal literal (some text) {}]) :=
  @Row.intro (.value (some key) (some text)) [Written.word key] _ (.name key {})
    (.value (some key) false {} (isExpression_literal literal text {}))

theorem row_bare (key : String) : Row (.bare (some key)) [Written.word key] :=
  @Row.intro (.bare (some key)) [Written.word key] [] (.name key {}) (.bare (some key))

theorem row_renameBoth : Row renameBothClause renameBothRow := by
  have hother : Row (.list (some "other") [.bare (some "skip")])
      [Written.word "other", Written.group .paren [Written.word "skip"]] :=
    @Row.intro (.list (some "other") [.bare (some "skip")]) [Written.word "other"] _
      (.name "other" {}) (.list (some "other") {} {} (.single (row_bare "skip")) .none)
  have hboth := Separated.cons (row_value "serialize" "\"b\"" "b") false {} (.single hother)
  exact @Row.intro renameBothClause [Written.word "rename"] _ (.name "rename" {})
    (@Tail.list (some "rename") {} {} _ _ [] hboth .none)

theorem spells_serdeAttribute {clause : Clause} {row : List TokenTree} (h : Row clause row) :
    (serdeAttribute row).Spells [clause] :=
  .arguments ⟨rfl, {}, by rw [List.append_nil]; rfl⟩ (.single h) .none

/--
A name that is given twice, the second time for each direction, stays if the arguments are merged,
and if something unknown or another attribute comes before them.
-/
theorem Directives.ofAttributes_renamedTwice :
    Directives.ofAttributes renamedTwice = .ok { rename := some "b" } ∧
      SpellsAll renamedTwice [renameClause, renameBothClause] ∧
      (∃! clauses, SpellsAll renamedTwice clauses) ∧
      { rename := some "b" } = Clause.directives [renameClause, renameBothClause] ∧
      Directives.ofAttributes (renamedTwice ++ [serdeAttribute defaultRow])
        = .ok { rename := some "b" } ∧
      Directives.ofAttributes (serdeAttribute defaultRow :: renamedTwice)
        = .ok { rename := some "b" } ∧
      Directives.ofAttributes
          [serdeAttribute (renameRow ++ .punct ',' false {} :: renameBothRow)]
        = .ok { rename := some "b" } ∧
      Directives.ofAttributes ({ path := ["doc"], body := .bare } :: renamedTwice)
        = .ok { rename := some "b" } := by
  have h : Directives.ofAttributes renamedTwice = .ok { rename := some "b" } := rfl
  have hrename : Row renameClause renameRow := row_value "rename" "\"a\"" "a"
  have hdefault : (serdeAttribute defaultRow).Spells [.bare (some "default")] :=
    spells_serdeAttribute (row_bare "default")
  have hspells : SpellsAll renamedTwice [renameClause, renameBothClause] :=
    .cons (spells_serdeAttribute hrename) (.cons (spells_serdeAttribute row_renameBoth) .nil)
  have hahead := SpellsAll.cons hdefault hspells
  have hlast := SpellsAll.cons hdefault .nil
  have hbehind : SpellsAll (renamedTwice ++ [serdeAttribute defaultRow])
      [renameClause, renameBothClause, .bare (some "default")] :=
    .cons (spells_serdeAttribute hrename) (.cons (spells_serdeAttribute row_renameBoth) hlast)
  have hsplits : Splits (serdeAttribute (renameRow ++ .punct ',' false {} :: renameBothRow))
      (serdeAttribute renameRow) (serdeAttribute renameBothRow) :=
    .intro (.single hrename) (.single row_renameBoth) false {} .none .none .none
      ⟨rfl, {}, rfl⟩ ⟨rfl, {}, rfl⟩ ⟨rfl, {}, rfl⟩
  obtain ⟨hunique, hdirectives, hrelevant, hinsert, hsplit, hother⟩ :=
    Directives.ofAttributes_determined_by_arguments h
  refine ⟨h, hspells, hunique, hdirectives _ hspells, ?_, ?_, ?_, ?_⟩
  . exact hrelevant _ _ _ hspells hbehind rfl
  . exact hinsert [] _ _ _ hspells rfl hahead
  . exact (hsplit [] [] _ _ _ hsplits).2 rfl
  . exact hother [] renamedTwice { path := ["doc"], body := .bare } rfl rfl

end Bindings.Native
