import Bindings.Proofs.Native.Clause.Arguments
import Bindings.Proofs.Native.Clause.Meaning

/-!
This module contains that arguments are read as the directives that they are.
-/

namespace Bindings.Native.Directive

open Grammar

namespace Clause

variable {α β : Type} {n N depth : Nat} {k : Option String} {tail rest : List TokenTree}
variable {clause : Clause} {clauses : List Clause} {r s : Reader}

theorem Meets.next {p : Parser α} {q : α → Parser β} {right : Clause → α → Prop}
    {right' : Clause → β → Prop} (h : Meets n k p right)
    (hreads : ∀ {clause b}, clause.key = k → right' clause b →
      (∃ a, right clause a) ∧ ∀ a, right clause a → ∃ b, right' clause b ∧ q a = pure b)
    (hcarries : ∀ a, Carries .whole n never (q a) (q a))
    (hfound : ∀ {a r b s}, q a r = .ok (b, s) →
      s = r ∧ ∀ clause, clause.key = k → right clause a → right' clause b) :
    Meets n k (p >>= q) right' where
  carries := h.carries.bind hcarries
  reads hkey htail hright hsize hrest := by
    obtain ⟨⟨a, ha⟩, hall⟩ := hreads hkey hright
    obtain ⟨a, ha, hp⟩ := h.reads hkey htail ha hsize hrest
    obtain ⟨b, hb, hq⟩ := hall a ha
    refine ⟨b, hb, hp.bind ?_⟩
    rw [hq]
    exact .pure b _
  found hp hwidth hsize hrest hnone := by
    obtain ⟨a, r₁, hp, hq⟩ := Carries.bind_eq_ok hp
    obtain ⟨rfl, hright'⟩ := hfound hq
    obtain ⟨clause, tail, hkey, htail, hright, hrow⟩ := h.found hp hwidth hsize hrest hnone
    exact ⟨clause, tail, hkey, htail, hright' clause hkey hright, hrow⟩

theorem Meets.map {p : Parser α} {right : Clause → α → Prop} {right' : Clause → β → Prop}
    (h : Meets n k p right) (g : α → β)
    (hright : ∀ {clause b}, clause.key = k → (right' clause b ↔ ∃ a, right clause a ∧ g a = b)) :
    Meets n k (do return g (← p)) right' := by
  refine h.next (fun hkey hb => ?_) (fun a => .pure _ rfl) (fun h => ?_)
  . obtain ⟨a, ha, -⟩ := (hright hkey).mp hb
    exact ⟨⟨a, ha⟩, fun a ha => ⟨g a, (hright hkey).mpr ⟨a, ha, rfl⟩, rfl⟩⟩
  . cases h
    exact ⟨rfl, fun clause hkey ha => (hright hkey).mpr ⟨_, ha, rfl⟩⟩

theorem Meets.congr {p : Parser α} {right right' : Clause → α → Prop} (h : Meets n k p right)
    (hright : ∀ {clause a}, clause.key = k → (right' clause a ↔ right clause a)) :
    Meets n k p right' := by
  refine { h with reads := ?_, found := ?_ }
  . intro clause tail rest a hkey htail ha hsize hrest
    obtain ⟨b, hb, hp⟩ := h.reads hkey htail ((hright hkey).mp ha) hsize hrest
    exact ⟨b, (hright hkey).mpr hb, hp⟩
  . intro r a s hp hwidth hsize hrest hnone
    obtain ⟨clause, tail, hkey, htail, ha, hrow⟩ := h.found hp hwidth hsize hrest hnone
    exact ⟨clause, tail, hkey, htail, (hright hkey).mpr ha, hrow⟩

/-! Values -/

theorem isExpression_literal (literal text : String) (position : Position) :
    IsExpression [.literal literal (some text) position] :=
  ⟨_, rfl⟩

theorem textOf_eq_some {row : List TokenTree} {text : String} (h : textOf row = some text) :
    ∃ literal position, row = [.literal literal (some text) position] := by
  unfold textOf at h
  split at h
  . cases h
    exact ⟨_, _, rfl⟩
  . cases h

theorem here_takes (tree : TokenTree) (rest : List TokenTree) :
    Takes here (tree :: rest) tree.position (tree :: rest) where
  length_le := Nat.le_refl _
  run := by
    rintro ⟨trees, _, _, _, _, written⟩ htrees _
    obtain rfl : trees = _ := htrees
    exact ⟨written, rfl⟩

theorem stringLiteral_takes (literal text : String) (position : Position)
    (rest : List TokenTree) :
    Takes stringLiteral (.literal literal (some text) position :: rest) text rest where
  length_le := Nat.le_succ _
  run _ htrees _ := ⟨_, Carries.stringLiteral_of_eq htrees⟩

theorem assignedText_takes (joint : Bool) (position position' : Position) (literal text : String)
    (rest : List TokenTree) :
    Takes assignedText
      (.punct '=' joint position :: .literal literal (some text) position' :: rest)
      (text, position') rest :=
  (Takes.sign (Nat.le_succ _) rfl).bind <| (here_takes _ rest).bind <|
    (stringLiteral_takes literal text position' rest).bind (.pure _ rest)

theorem assignedText_eq_ok {a : String × Position} (h : assignedText r = .ok (a, s)) :
    ∃ joint position literal position',
      r.trees = .punct '=' joint position :: .literal literal (some a.1) position' :: s.trees := by
  obtain ⟨u, r₁, hsign, h⟩ := Carries.bind_eq_ok h
  obtain ⟨joint, position, hequals, -⟩ := single_of_sign_eq_ok (c := '=') rfl hsign
  obtain ⟨place, r₂, hhere, h⟩ := Carries.bind_eq_ok h
  cases hhere
  obtain ⟨text, r₃, htext, h⟩ := Carries.bind_eq_ok h
  cases h
  obtain ⟨literal, position', rest, hliteral, rfl⟩ := Carries.stringLiteral_eq_ok htext
  exact ⟨joint, position, literal, position', by rw [hequals, hliteral]⟩

theorem assignedText_meets :
    Meets n k assignedText fun clause a => clause.text? = some a.1 where
  carries := by
    refine (Carries.sign "=" (by decide)).bind fun _ => Carries.hereBefore fun position => ?_
    have hliteral : Carries .whole n always Grammar.stringLiteral Grammar.stringLiteral :=
      .stringLiteral
    exact hliteral.bindAt fun _ => .pure _ rfl
  reads := by
    intro clause tail rest a hkey htail hright _ _
    cases htail with
    | bare | list => cases hright
    | value key joint position h =>
      obtain ⟨literal, position', rfl⟩ := textOf_eq_some hright
      refine ⟨(a.1, position'), hright, ?_⟩
      exact (assignedText_takes joint position position' literal a.1 rest).reads
  found := by
    intro r a s h _ _ _ _
    obtain ⟨joint, position, literal, position', hrow⟩ := assignedText_eq_ok h
    exact ⟨_, _, rfl, .value k joint position (isExpression_literal literal a.1 position'), rfl,
      hrow⟩

/-! Lists -/

section List

variable {read : Option String → Parser α} {right : Clause → α → Prop} {as : List α}
variable (hread : ∀ k, Meets n k (read k) right)

include hread

theorem list_reads (h : Tail (.list k clauses) tail) (has : List.Forall₂ right clauses as)
    (hsize : TokenTree.sizeAll tail ≤ n) (rest : List TokenTree) :
    ∃ bs, List.Forall₂ right clauses bs ∧
      Reads (Grammar.group .paren (arguments read)) (tail ++ rest) bs rest := by
  cases h with
  | @list _ opened closed _ body last h hlast =>
    rw [sizeAll_group, TokenTree.sizeAll_append] at hsize
    obtain ⟨bs, hbs, hreads⟩ := arguments_reads hread h hlast has (by omega)
    exact ⟨bs, hbs, hreads.group opened closed rest⟩

theorem list_of_eq_ok (h : Grammar.group .paren (arguments read) r = .ok (as, s))
    (hsize : TokenTree.sizeAll r.trees ≤ n) (hnone : s.leftover = none) :
    ∃ clauses, List.Forall₂ right clauses as ∧
      ∀ k, ∃ tail, Tail (.list k clauses) tail ∧ r.trees = tail ++ s.trees := by
  obtain ⟨body, opened, closed, rest, inner, htrees, hinner, rfl⟩ := Carries.group_eq_ok h
  obtain ⟨hleftover, hend⟩ := Carries.complaint?_eq_none.mp hnone
  have hbody : TokenTree.sizeAll body < n := by
    rw [htrees, sizeAll_group] at hsize
    omega
  obtain ⟨clauses, row, last, h, hlast, rfl, has⟩ :=
    separated_of_eq_ok hread hinner (Nat.le_refl _) hbody hend hleftover
  exact ⟨clauses, has, fun k => ⟨_, .list k opened closed h hlast, htrees⟩⟩

end List

/-! Arguments that are not looked into -/

theorem startsSign_equals_of_boundary (h : Boundary rest) : startsSign "=" rest = false := by
  cases h <;> rfl

theorem startsGroup_of_boundary (h : Boundary rest) : startsGroup .paren rest = false := by
  cases h <;> rfl

theorem skipArgument_succ (g : Rules) (depth : Nat) : skipArgument g (depth + 1) = (do
    if ← skipSign "=" then
      let _ ← g.expression true
    else if ← ahead (startsGroup .paren) then
      let _ ← Grammar.group .paren (arguments fun _ => skipArgument g depth)) :=
  rfl

theorem skipArgument_meets (hN : n ≤ N) (hdepth : n ≤ depth) (k : Option String) :
    Meets n k (skipArgument (rules N) depth) fun _ _ => True := by
  induction depth generalizing n k with
  | zero =>
    obtain rfl := Nat.le_zero.mp hdepth
    exact
      { carries := .lacks _ _
        reads := fun _ _ _ hsize => absurd hsize (Nat.not_lt_zero _)
        found := fun _ _ hsize => absurd hsize (Nat.not_lt_zero _) }
  | succ depth ih =>
    -- What stands in brackets is smaller, and it is read with one level less.
    have hread := ih (n := n - 1) (by omega) (by omega)
    rw [skipArgument_succ]
    refine ⟨?_, ?_, ?_⟩
    . have hexpression := (rules_alike hN hN).expression .whole true
      have hlist : Carries .whole (n - 1 + 1) never
          (Grammar.group .paren (arguments fun _ => skipArgument (rules N) depth))
          (Grammar.group .paren (arguments fun _ => skipArgument (rules N) depth)) :=
        .group (arguments_carries hread)
      refine (Carries.skipSignWhole "=" (by decide)).weak.bind fun _ =>
        .ite (hexpression.weak.bind fun _ => .pure _ rfl) ?_
      exact (Carries.aheadWhole _).bind fun _ =>
        .ite ((hlist.lower (by omega)).bind fun _ => .pure _ rfl) (.pure _ rfl)
    . intro clause tail rest a _ htail _ hsize hrest
      refine ⟨(), trivial, ?_⟩
      cases htail with
      | bare =>
        refine (Takes.skipSign_false (startsSign_equals_of_boundary hrest)).reads.bind ?_
        refine (Reads.ahead _ _).bind ?_
        rw [startsGroup_of_boundary hrest]
        exact .pure () rest
      | value key joint position h =>
        rw [TokenTree.sizeAll_cons] at hsize
        obtain ⟨expression, hreads⟩ := h.reads (N := N) (by omega) hrest
        refine (Takes.skipSign_true (Nat.le_succ _) rfl).reads.bind ?_
        exact hreads.bind (.pure () rest)
      | @list _ opened closed clauses body last h hlast =>
        have has : List.Forall₂ (fun _ _ => True) clauses (clauses.map fun _ => ()) :=
          List.forall₂_map_right_iff.mpr (List.forall₂_same.mpr fun _ _ => trivial)
        obtain ⟨bs, -, hreads⟩ :=
          list_reads hread (.list none opened closed h hlast) has (by omega) rest
        refine (Takes.skipSign_false rfl).reads.bind ((Reads.ahead _ _).bind ?_)
        exact hreads.bind (.pure () rest)
    . intro r a s h hwidth hsize hrest hnone
      obtain ⟨b, r₁, hequals, hbehind⟩ := Carries.bind_eq_ok h
      obtain ⟨rfl, hsign⟩ | ⟨rfl, rfl, -⟩ := skipSign_eq_ok hequals
      . obtain ⟨expression, r₂, hexpression, hpure⟩ := Carries.bind_eq_ok hbehind
        cases hpure
        obtain ⟨joint, position, htrees, -, hwidth₁⟩ := single_of_sign_eq_ok (c := '=') rfl hsign
        rw [htrees, TokenTree.sizeAll_cons] at hsize
        rw [htrees, List.length_cons] at hwidth
        obtain ⟨row, hrow, hisExpression⟩ :=
          isExpression_of_eq_ok hexpression (by omega) (by omega) hrest hnone
        refine ⟨.value k (textOf row), _, rfl, .value k joint position hisExpression, trivial, ?_⟩
        rw [htrees, hrow]
        rfl
      . have hbehind : (if startsGroup .paren r₁.trees then
            Grammar.group .paren (arguments fun _ => skipArgument (rules N) depth) >>= fun _ =>
              pure ()
          else pure () : Parser Unit) r₁ = .ok (a, s) := hbehind
        split at hbehind
        . obtain ⟨as, r₂, hlist, hpure⟩ := Carries.bind_eq_ok hbehind
          cases hpure
          obtain ⟨clauses, -, htail⟩ := list_of_eq_ok hread hlist (by omega) hnone
          obtain ⟨tail, htail, hrow⟩ := htail k
          exact ⟨.list k clauses, tail, rfl, htail, trivial, hrow⟩
        . cases hbehind
          exact ⟨.bare k, [], rfl, .bare k, trivial, rfl⟩

/-! Names for serialization -/

theorem someText_meets :
    Meets n k (some <$> assignedText) fun clause a => a.isSome ∧ clause.text? = a.map Prod.fst := by
  refine assignedText_meets.map some fun {clause b} _ => ?_
  cases b <;> simp

def IsHalf (clause : Clause) (a : Option (String × Position)) : Prop :=
  if clause.isNamed "serialize" then a.isSome ∧ clause.text? = a.map Prod.fst else a = none

theorem half_meets (hN : n ≤ N) (hdepth : n ≤ depth) (k : Option String) :
    Meets n k (serializedName.half (rules N) depth k) IsHalf := by
  have hnamed : ∀ {clause : Clause}, clause.key = k →
      clause.isNamed "serialize" = (k == some "serialize") := by
    rintro clause rfl
    rfl
  unfold serializedName.half
  split
  . next hk =>
    refine someText_meets.congr fun {clause a} hkey => ?_
    rw [IsHalf, hnamed hkey, hk]
    simp
  . next hk =>
    have hk : (k == some "serialize") = false := beq_eq_false_iff_ne.mpr hk
    refine (skipArgument_meets hN hdepth k).map (fun _ => none) fun {clause b} hkey => ?_
    rw [IsHalf, hnamed hkey, hk]
    simp [eq_comm]

theorem IsHalf.supplied {names : List (Option (String × Position))}
    (h : List.Forall₂ IsHalf clauses names) :
    (Clause.list k clauses).supplies ∧
      (Clause.list k clauses).supplied? = (names.filterMap id).getLast?.map Prod.fst := by
  suffices h : (clauses.filter (·.isNamed "serialize")).all (·.text?.isSome) ∧
      (clauses.filter (·.isNamed "serialize")).filterMap text?
        = (names.filterMap id).map Prod.fst from
    ⟨h.1, by rw [supplied?, h.2, List.getLast?_map]⟩
  induction h with
  | nil => exact ⟨rfl, rfl⟩
  | @cons clause name clauses names h _ ih =>
    unfold IsHalf at h
    split at h
    . next hnamed =>
      obtain ⟨hsome, htext⟩ := h
      obtain ⟨a, rfl⟩ := Option.isSome_iff_exists.mp hsome
      simp [hnamed, htext, ih.1, ih.2]
    . next hnamed => simp [hnamed, h, ih.1, ih.2]

theorem IsHalf.of_supplies (h : (Clause.list k clauses).supplies) :
    ∃ names, List.Forall₂ IsHalf clauses names := by
  have h : ∀ clause ∈ clauses.filter (·.isNamed "serialize"), clause.text?.isSome :=
    List.all_eq_true.mp h
  refine ⟨clauses.map fun clause =>
    if clause.isNamed "serialize" then clause.text?.map (·, {}) else none, ?_⟩
  refine List.forall₂_map_right_iff.mpr (List.forall₂_same.mpr fun clause hclause => ?_)
  unfold IsHalf
  split
  . next hnamed =>
    have := h clause (List.mem_filter.mpr ⟨hclause, hnamed⟩)
    simpa [Option.map_map, Function.comp_def] using this
  . rfl

theorem serializedName_meets (hN : n ≤ N) (hdepth : n ≤ depth) (k : Option String) :
    Meets n k (serializedName (rules N) depth) fun clause a =>
      clause.supplies ∧ clause.supplied? = a.map Prod.fst := by
  have hread := half_meets (N := N) (n := n) hN hdepth
  refine ⟨?_, ?_, ?_⟩
  . refine (Carries.aheadWhole _).bind fun _ => .ite (someText_meets (k := k)).carries ?_
    have hlist : Carries .whole (n + 1) never
        (Grammar.group .paren (arguments (serializedName.half (rules N) depth)))
        (Grammar.group .paren (arguments (serializedName.half (rules N) depth))) :=
      .group (arguments_carries hread)
    exact hlist.down.bind fun _ => .pure _ rfl
  . rintro clause tail rest a - htail ⟨hsupplies, hsupplied⟩ hsize -
    cases htail with
    | bare => cases hsupplies
    | value key joint position h =>
      obtain ⟨text, htext⟩ := Option.isSome_iff_exists.mp hsupplies
      obtain ⟨literal, position', rfl⟩ := textOf_eq_some htext
      refine ⟨some (text, position'), ⟨rfl, rfl⟩, (Reads.ahead _ _).bind ?_⟩
      exact (assignedText_takes joint position position' literal text rest).reads.map
    | @list _ opened closed clauses body last h hlast =>
      obtain ⟨names, hnames⟩ := IsHalf.of_supplies hsupplies
      obtain ⟨names, hnames, hreads⟩ :=
        list_reads hread (.list none opened closed h hlast) hnames (Nat.le_of_lt hsize) rest
      refine ⟨_, IsHalf.supplied hnames, (Reads.ahead _ _).bind ?_⟩
      exact hreads.bind (.pure _ rest)
  . intro r a s h hwidth hsize hrest hnone
    have h : (if startsSign "=" r.trees then some <$> assignedText
      else Grammar.group .paren (arguments (serializedName.half (rules N) depth)) >>= fun names =>
        pure (names.filterMap id).getLast? : Parser _) r = .ok (a, s) := h
    split at h
    . obtain ⟨clause, tail, hkey, htail, ⟨hsome, htext⟩, hrow⟩ :=
        (someText_meets (k := k)).found h hwidth hsize hrest hnone
      obtain ⟨a, rfl⟩ := Option.isSome_iff_exists.mp hsome
      exact ⟨clause, tail, hkey, htail, ⟨supplies_of_text? htext, supplied?_of_text? htext⟩, hrow⟩
    . obtain ⟨names, r₁, hlist, hpure⟩ := Carries.bind_eq_ok h
      cases hpure
      obtain ⟨clauses, hnames, htail⟩ := list_of_eq_ok hread hlist (Nat.le_of_lt hsize) hnone
      obtain ⟨tail, htail, hrow⟩ := htail k
      exact ⟨.list k clauses, tail, rfl, htail, IsHalf.supplied hnames, hrow⟩

/-! Directives -/

theorem bare_meets (a : α) : Meets n k (pure a) fun clause b => clause.isBare ∧ b = a where
  carries := .pure a rfl
  reads := by
    rintro clause tail rest b - htail ⟨hbare, rfl⟩ - -
    cases htail with
    | bare => exact ⟨b, ⟨rfl, rfl⟩, .pure b rest⟩
    | value | list => cases hbare
  found := by
    intro r b s h _ _ _ _
    cases h
    exact ⟨.bare k, [], rfl, .bare k, ⟨rfl, rfl⟩, rfl⟩

theorem exists_placed (name : Option String) :
    ∃ a : Option (String × Position), name = a.map Prod.fst :=
  ⟨name.map (·, {}), by simp [Option.map_map, Function.comp_def]⟩

theorem exists_text {P : String → Prop} :
    (∃ text, clause.text? = some text ∧ P text) ↔
      ∃ a : String × Position, clause.text? = some a.1 ∧ P a.1 :=
  ⟨fun ⟨text, h⟩ => ⟨(text, {}), h⟩, fun ⟨a, h⟩ => ⟨a.1, h⟩⟩

theorem ofName_eq (a : Option (String × Position)) :
    ofName a = ((a.map Prod.fst).map .rename).getD .inert := by
  cases a <;> rfl

theorem ofRuleName_of_eq {a : Option (String × Position)} {directive : Directive}
    (h : ofRule? (a.map Prod.fst) = some directive) : ofRuleName a = pure directive := by
  match a, h with
  | none, h =>
    cases h
    rfl
  | some (name, position), h =>
    obtain ⟨rule, hrule, rfl⟩ := Option.map_eq_some_iff.mp h
    unfold ofRuleName
    simp only [show RenameRule.ofName? name = some rule from hrule]

theorem ofRuleName_eq_ok {a : Option (String × Position)} {directive : Directive}
    (h : ofRuleName a r = .ok (directive, s)) :
    s = r ∧ ofRule? (a.map Prod.fst) = some directive := by
  match a, h with
  | none, h =>
    cases h
    exact ⟨rfl, rfl⟩
  | some (name, position), h =>
    unfold ofRuleName at h
    dsimp only at h
    cases hrule : RenameRule.ofName? name with
    | none =>
      rw [hrule] at h
      cases h
    | some rule =>
      rw [hrule] at h
      cases h
      exact ⟨rfl, Option.map_eq_some_iff.mpr ⟨rule, hrule, rfl⟩⟩

theorem ofRuleName_carries (a : Option (String × Position)) :
    Carries .whole n never (ofRuleName a) (ofRuleName a) := by
  unfold ofRuleName
  split
  . exact .pure _ rfl
  . split
    . exact .pure _ rfl
    . exact .complainAt _ _ _ _

theorem named_meets (hN : n ≤ N) (hdepth : n ≤ depth) (k : Option String) :
    Meets n k (named (rules N) depth k) fun clause directive =>
      clause.directive? = some directive := by
  have hname := serializedName_meets hN hdepth
  have hbare : ∀ {clause : Clause} {directive directive' : Directive},
      ((if clause.isBare then some directive else none) = some directive' ↔
        clause.isBare ∧ directive' = directive) := by
    intro clause directive directive'
    rw [Option.ite_none_right_eq_some, Option.some.injEq, eq_comm (a := directive)]
  unfold named
  split
  . refine (hname _).map ofName fun {clause directive} hkey => ?_
    simp only [directive?, hkey, ofName_eq]
    obtain ⟨a, ha⟩ := exists_placed clause.supplied?
    constructor
    . intro h
      split at h
      . next hsupplies =>
        cases h
        exact ⟨a, ⟨hsupplies, ha⟩, by rw [ha]⟩
      . cases h
    . rintro ⟨a, ⟨hsupplies, ha⟩, rfl⟩
      rw [if_pos hsupplies, ha]
  . refine (hname _).next (fun {clause directive} hkey h => ?_) ofRuleName_carries fun h => ?_
    . simp only [directive?, hkey] at h
      split at h
      . next hsupplies =>
        obtain ⟨a, ha⟩ := exists_placed clause.supplied?
        refine ⟨⟨a, hsupplies, ha⟩, fun a ⟨_, ha⟩ => ⟨directive, ?_, ?_⟩⟩
        . simp only [directive?, hkey, if_pos hsupplies, h]
        . exact ofRuleName_of_eq (ha ▸ h)
      . cases h
    . obtain ⟨rfl, hrule⟩ := ofRuleName_eq_ok h
      refine ⟨rfl, fun clause hkey ⟨hsupplies, ha⟩ => ?_⟩
      simp only [directive?, hkey, if_pos hsupplies, ha, hrule]
  . exact (bare_meets _).congr fun hkey => by simp only [directive?, hkey, hbare]
  . exact (bare_meets _).congr fun hkey => by simp only [directive?, hkey, hbare]
  . refine assignedText_meets.map (fun a => Directive.tag a.1) fun {clause directive} hkey => ?_
    simp only [directive?, hkey, Option.map_eq_some_iff]
    exact exists_text
  . refine assignedText_meets.map (fun a => Directive.content a.1) fun {clause directive} hkey => ?_
    simp only [directive?, hkey, Option.map_eq_some_iff]
    exact exists_text
  . exact (bare_meets _).congr fun hkey => by simp only [directive?, hkey, hbare]
  . exact (bare_meets _).congr fun hkey => by simp only [directive?, hkey, hbare]
  . refine (skipArgument_meets hN hdepth k).map (fun _ => Directive.inert)
      fun {clause directive} hkey => ?_
    simp only [directive?, hkey]
    simp

end Clause

end Bindings.Native.Directive
