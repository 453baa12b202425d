import Bindings.Proofs.Native.Carrying.Tests

/-!
This module contains that the parsers for single tokens and for sequences of entries read a row in
the same way in every place.
-/

namespace Bindings.Native.Grammar

namespace Carries

variable {α β σ : Type} {f : Frame} {n m : Nat} {p p' q q' : Parser α} {k k' : α → Parser β}
variable {eats : α → Bool} {eats' : β → Bool}

theorem of_take
    (h : ∀ {r a s}, p r = .ok (a, s) → ∃ front rest tokens, r.trees = front ++ rest ∧ front ≠ [] ∧
      s = { r with trees := rest, written := tokens ++ r.written } ∧
      ∀ {r' rest'}, r'.trees = front ++ rest' →
        p r' = .ok (a, { r' with trees := rest', written := tokens ++ r'.written })) :
    Carries f n eats p p where
  shrinks := by
    intro r a s hp
    obtain ⟨front, rest, tokens, htrees, hfront, rfl, -⟩ := h hp
    have := List.length_pos_iff.mpr hfront
    have := Bool.toNat_le (eats a)
    rw [htrees, List.length_append]
    show rest.length + _ ≤ _
    omega
  settled := by
    intro r a s hp hnone
    obtain ⟨front, rest, tokens, -, -, rfl, -⟩ := h hp
    exact hnone
  run := by
    intro row earlier r r' a s sees _ hp hrest
    obtain ⟨front, rest, tokens, htrees, -, rfl, hp'⟩ := h hp
    have hrest : f.rest.length + f.margin ≤ rest.length := hrest
    -- What is taken does not reach behind the row, as all that stands there is left.
    obtain ⟨row', rfl, rfl⟩ : ∃ row', row = front ++ row' ∧ rest = row' ++ f.rest := by
      obtain ⟨row', rfl, hrow⟩ | ⟨row', rfl, rfl⟩ :=
        List.append_eq_append_iff.mp (sees.trees.symm.trans htrees)
      . have := congrArg List.length hrow
        rw [List.length_append] at this
        obtain rfl : row' = [] := List.eq_nil_of_length_eq_zero (by omega)
        exact ⟨[], (List.append_nil _).symm.trans (List.append_nil _).symm, hrow.symm⟩
      . exact ⟨row', rfl, rfl⟩
    refine ⟨row', tokens ++ earlier, _, hp' (sees.trees'.trans (List.append_assoc ..)), ?_,
      List.suffix_append front row'⟩
    exact
      { trees := rfl, trees' := rfl, leftover := sees.leftover
        written := (congrArg _ sees.written).trans (List.append_assoc ..).symm
        written' := (congrArg _ sees.written').trans (List.append_assoc ..).symm
        width' := by
          have hwidth := sees.width'
          rw [sees.trees', List.append_assoc, List.length_append] at hwidth
          show (row' ++ f.rest').length ≤ r'.width
          omega }

theorem afterPunct_eq_some {chars : List Char} (hchars : chars ≠ []) {trees rest : List TokenTree}
    (h : afterPunct chars trees = some rest) :
    ∃ front, trees = front ++ rest ∧ front ≠ [] ∧
      ∀ rest', afterPunct chars (front ++ rest') = some rest' := by
  induction chars generalizing trees with
  | nil => exact absurd rfl hchars
  | cons c chars ih =>
    match chars, trees, h with
    | [], .punct other joint position :: trees, h =>
      unfold afterPunct at h
      split at h
      . next heq =>
        cases h
        exact ⟨[.punct other joint position], rfl, List.cons_ne_nil _ _, fun rest' => if_pos heq⟩
      . cases h
    | d :: chars, .punct other joint position :: trees, h =>
      unfold afterPunct at h
      split at h
      . next heq =>
        obtain ⟨front, rfl, -, hfront⟩ := ih (List.cons_ne_nil _ _) h
        exact ⟨.punct other joint position :: front, rfl, List.cons_ne_nil _ _,
          fun rest' => (if_pos heq).trans (hfront rest')⟩
      . cases h

theorem sign_eq_ok {text : String} {r s : Reader} {u : Unit}
    (h : Grammar.sign text r = .ok (u, s)) :
    ∃ rest, afterSign? text r.trees = some rest ∧
      s = { r with trees := rest, written := (Written.sign text).reverse ++ r.written } := by
  unfold Grammar.sign at h
  split at h
  . next rest hrest =>
    cases h
    exact ⟨rest, hrest, rfl⟩
  . cases h

theorem sign (text : String) (htext : text.toList ≠ []) {eats : Unit → Bool} :
    Carries f n eats (Grammar.sign text) (Grammar.sign text) := by
  refine of_take fun {r a s} h => ?_
  obtain ⟨rest, hrest, rfl⟩ := sign_eq_ok h
  obtain ⟨front, htrees, hfront, hother⟩ := afterPunct_eq_some htext hrest
  refine ⟨front, rest, _, htrees, hfront, rfl, fun {r' rest'} htrees' => ?_⟩
  have : afterSign? text r'.trees = some rest' := by
    rw [htrees']
    exact hother rest'
  unfold Grammar.sign
  rw [this]

theorem anyWord_of_eq {r : Reader} {text : String} {position : Position} {rest : List TokenTree}
    (h : r.trees = .word text position :: rest) :
    Grammar.anyWord r
      = .ok (text, { r with trees := rest, written := .word text position :: r.written }) := by
  obtain ⟨trees, _, _, _, _, _⟩ := r
  obtain rfl : trees = _ := h
  rfl

theorem anyWord_eq_ok {r s : Reader} {text : String} (h : Grammar.anyWord r = .ok (text, s)) :
    ∃ position rest, r.trees = .word text position :: rest ∧
      s = { r with trees := rest, written := .word text position :: r.written } := by
  match htrees : r.trees with
  | .word text position :: rest =>
    obtain ⟨rfl, rfl⟩ := Prod.mk.inj (Except.ok.inj ((anyWord_of_eq htrees).symm.trans h))
    exact ⟨position, rest, rfl, rfl⟩
  | [] | .lifetime _ _ :: _ | .punct _ _ _ :: _ | .literal _ _ _ :: _ | .group _ _ _ _ :: _ =>
    obtain ⟨trees, _, _, _, _, _⟩ := r
    obtain rfl : trees = _ := htrees
    cases h

theorem anyWord {eats : String → Bool} : Carries f n eats Grammar.anyWord Grammar.anyWord := by
  refine of_take fun {r a s} h => ?_
  obtain ⟨position, rest, htrees, rfl⟩ := anyWord_eq_ok h
  exact ⟨[.word a position], rest, [.word a position], htrees, List.cons_ne_nil _ _, rfl,
    anyWord_of_eq⟩

theorem lifetime_of_eq {r : Reader} {text : String} {position : Position} {rest : List TokenTree}
    (h : r.trees = .lifetime text position :: rest) :
    Grammar.lifetime r
      = .ok (text, { r with trees := rest, written := .lifetime text position :: r.written }) := by
  obtain ⟨trees, _, _, _, _, _⟩ := r
  obtain rfl : trees = _ := h
  rfl

theorem lifetime {eats : String → Bool} : Carries f n eats Grammar.lifetime Grammar.lifetime := by
  refine of_take fun {r a s} h => ?_
  match htrees : r.trees with
  | .lifetime text position :: rest =>
    obtain ⟨rfl, rfl⟩ := Prod.mk.inj (Except.ok.inj ((lifetime_of_eq htrees).symm.trans h))
    exact ⟨[.lifetime text position], rest, [.lifetime text position], rfl, List.cons_ne_nil _ _,
      rfl, lifetime_of_eq⟩
  | [] | .word _ _ :: _ | .punct _ _ _ :: _ | .literal _ _ _ :: _ | .group _ _ _ _ :: _ =>
    obtain ⟨trees, _, _, _, _, _⟩ := r
    obtain rfl : trees = _ := htrees
    cases h

theorem afterLiteral?_eq_some {trees tokens rest : List TokenTree}
    (h : afterLiteral? trees = some (tokens, rest)) :
    ∃ front, trees = front ++ rest ∧ front ≠ [] ∧
      ∀ rest', afterLiteral? (front ++ rest') = some (tokens, rest') := by
  unfold afterLiteral? at h
  split at h
  . next text value position trees =>
    cases h
    exact ⟨[.literal text value position], rfl, List.cons_ne_nil _ _, fun _ => rfl⟩
  . next text position trees =>
    split at h
    . next htext =>
      cases h
      exact ⟨[.word text position], rfl, List.cons_ne_nil _ _, fun _ => if_pos htext⟩
    . cases h
  . next joint position text value place trees =>
    split at h
    . next htext =>
      cases h
      exact ⟨[.punct '-' joint position, .literal text value place], rfl, List.cons_ne_nil _ _,
        fun _ => if_pos htext⟩
    . cases h
  . cases h

def literalFrom (trees : List TokenTree) : Parser Unit :=
  match afterLiteral? trees with
  | some (tokens, rest) => do
    Grammar.write tokens
    modify fun r => { r with trees := rest }
  | none => Grammar.lacks [.literal]

theorem literal_eq (r : Reader) : Grammar.literal r = literalFrom r.trees r := rfl

theorem literal_of_eq {r : Reader} {tokens rest : List TokenTree}
    (h : afterLiteral? r.trees = some (tokens, rest)) :
    Grammar.literal r
      = .ok ((), { r with trees := rest, written := tokens.reverse ++ r.written }) := by
  rw [literal_eq, literalFrom, h]
  rfl

theorem literal {eats : Unit → Bool} : Carries f n eats Grammar.literal Grammar.literal := by
  refine of_take fun {r a s} h => ?_
  match hliteral : afterLiteral? r.trees with
  | some (tokens, rest) =>
    obtain rfl := (Prod.mk.inj (Except.ok.inj ((literal_of_eq hliteral).symm.trans h))).2
    obtain ⟨front, htrees, hfront, hother⟩ := afterLiteral?_eq_some hliteral
    refine ⟨front, rest, _, htrees, hfront, rfl, fun {r' rest'} htrees' => literal_of_eq ?_⟩
    rw [htrees', hother]
  | none =>
    rw [literal_eq, literalFrom, hliteral] at h
    cases h

theorem stringLiteral_of_eq {r : Reader} {text value : String} {position : Position}
    {rest : List TokenTree} (h : r.trees = .literal text (some value) position :: rest) :
    Grammar.stringLiteral r = .ok (value, { r with
      trees := rest, written := .literal text (some value) position :: r.written }) := by
  obtain ⟨trees, _, _, _, _, _⟩ := r
  obtain rfl : trees = _ := h
  rfl

theorem stringLiteral_eq_ok {r s : Reader} {value : String}
    (h : Grammar.stringLiteral r = .ok (value, s)) :
    ∃ text position rest, r.trees = .literal text (some value) position :: rest ∧
      s = { r with
        trees := rest, written := .literal text (some value) position :: r.written } := by
  match htrees : r.trees with
  | .literal text (some value) position :: rest =>
    obtain ⟨rfl, rfl⟩ := Prod.mk.inj (Except.ok.inj ((stringLiteral_of_eq htrees).symm.trans h))
    exact ⟨text, position, rest, rfl, rfl⟩
  | [] | .word _ _ :: _ | .lifetime _ _ :: _ | .punct _ _ _ :: _ | .literal _ none _ :: _
  | .group _ _ _ _ :: _ =>
    obtain ⟨trees, _, _, _, _, _⟩ := r
    obtain rfl : trees = _ := htrees
    cases h

theorem stringLiteral {eats : String → Bool} :
    Carries f n eats Grammar.stringLiteral Grammar.stringLiteral := by
  refine of_take fun {r a s} h => ?_
  obtain ⟨text, position, rest, htrees, rfl⟩ := stringLiteral_eq_ok h
  exact ⟨[.literal text (some a) position], rest, [.literal text (some a) position], htrees,
    List.cons_ne_nil _ _, rfl, stringLiteral_of_eq⟩

theorem everything : Carries .whole n never Grammar.everything Grammar.everything where
  shrinks h := by
    obtain rfl := (Prod.mk.inj (Except.ok.inj h)).2
    exact Nat.zero_le _
  settled h hnone := by
    obtain rfl := (Prod.mk.inj (Except.ok.inj h)).2
    exact hnone
  run := by
    intro row tokens r r' a s sees _ h _
    obtain rfl := (Prod.mk.inj (Except.ok.inj h)).2
    have htrees : r.trees = row := sees.trees.trans (List.append_nil row)
    have htrees' : r'.trees = row := sees.trees'.trans (List.append_nil row)
    refine ⟨[], row.reverse ++ tokens,
      { r' with trees := [], written := r'.trees.reverse ++ r'.written }, rfl, ?_,
      List.nil_suffix⟩
    exact
      { trees := rfl, trees' := rfl, leftover := sees.leftover, width' := Nat.zero_le _
        written := by
          show r.trees.reverse ++ r.written = _
          rw [htrees, sees.written, List.append_assoc]
        written' := by
          show r'.trees.reverse ++ r'.written = _
          rw [htrees', sees.written', List.append_assoc] }

def delimiter? : List TokenTree → Option Delimiter
  | .group delimiter _ _ _ :: _ => some delimiter
  | _ => none

theorem delimiter?_local : Local delimiter? :=
  .of_head (fun tree _ _ => by cases tree <;> rfl) fun _ _ _ => rfl

theorem anyGroup_eq : Grammar.anyGroup = (do
    match delimiter? (← Grammar.trees) with
    | some delimiter =>
      Grammar.group delimiter Grammar.everything
      return delimiter
    | none => Grammar.lacks [.anyBrackets]) := by
  funext r
  obtain ⟨trees, _, _, _, _, _⟩ := r
  rcases trees with _ | ⟨⟨⟩, _⟩ <;> rfl

theorem anyGroup {eats : Delimiter → Bool} :
    Carries f n eats Grammar.anyGroup Grammar.anyGroup := by
  suffices h : Carries f (n + 1) eats Grammar.anyGroup Grammar.anyGroup from h.lower (Nat.le_succ n)
  rw [anyGroup_eq]
  refine trees fun trees trees' agree => ?_
  rw [agree _ delimiter?_local.blind]
  cases delimiter? trees' with
  | none => exact lacks _ _
  | some delimiter => exact (group everything).eat fun _ => pure delimiter rfl

theorem identifier_eq {r : Reader} {text : String} {position : Position} {rest : List TokenTree}
    (h : r.trees = .word text position :: rest) :
    Grammar.identifier r =
      if isKeyword text then .error ⟨r.place, .reservedWord text⟩
      else .ok (text, { r with trees := rest, written := .word text position :: r.written }) := by
  obtain ⟨trees, _, _, _, _, _⟩ := r
  obtain rfl : trees = _ := h
  show (if isKeyword text then Grammar.complain (.reservedWord text) else Grammar.anyWord) _ = _
  split <;> rfl

theorem identifier {eats : String → Bool} :
    Carries f n eats Grammar.identifier Grammar.identifier := by
  refine of_take fun {r a s} h => ?_
  match htrees : r.trees with
  | .word text position :: rest =>
    rw [identifier_eq htrees] at h
    split at h
    . cases h
    . next hkeyword =>
      obtain ⟨rfl, rfl⟩ := Prod.mk.inj (Except.ok.inj h)
      exact ⟨[.word text position], rest, [.word text position], rfl, List.cons_ne_nil _ _, rfl,
        fun htrees' => (identifier_eq htrees').trans (if_neg hkeyword)⟩
  | [] | .lifetime _ _ :: _ | .punct _ _ _ :: _ | .literal _ _ _ :: _ | .group _ _ _ _ :: _ =>
    obtain ⟨trees, _, _, _, _, _⟩ := r
    obtain rfl : trees = _ := htrees
    cases h

theorem word (text : String) {eats : Unit → Bool} :
    Carries f n eats (Grammar.word text) (Grammar.word text) := by
  suffices h : Carries f n always (Grammar.word text) (Grammar.word text) from
    h.weaken fun a => Bool.toNat_le (eats a)
  have hword : Carries f n always Grammar.anyWord Grammar.anyWord := anyWord
  exact (ahead (Local.startsWord text).blind).bind fun _ =>
    ite (hword.bindAt fun _ => pure () rfl) (lacks _ _)

theorem skipSignOf (text : String) (htext : text.toList ≠ []) (hblind : f.Blind (startsSign text)) :
    Carries f n id (Grammar.skipSign text) (Grammar.skipSign text) := by
  have hsign : Carries f n always (Grammar.sign text) (Grammar.sign text) := sign text htext
  exact (ahead hblind).bind fun _ => ite (hsign.bindAt fun _ => pure true rfl) (pure false rfl)

theorem skipSign (text : String) (htext : text.toList ≠ [] ∧ ',' ∉ text.toList) :
    Carries f n id (Grammar.skipSign text) (Grammar.skipSign text) :=
  skipSignOf text htext.1 (Local.startsSign text htext.2).blind

/-! Where nothing stands around a row, every test and what it is followed by are the same -/

theorem aheadWhole (test : List TokenTree → Bool) :
    Carries .whole n never (Grammar.ahead test) (Grammar.ahead test) :=
  ahead (Frame.blind_whole test)

theorem skipSignWhole (text : String) (htext : text.toList ≠ []) :
    Carries .whole n id (Grammar.skipSign text) (Grammar.skipSign text) :=
  skipSignOf text htext (Frame.blind_whole _)

theorem takenSinceWhole (before : List TokenTree) :
    Carries .whole n never (Grammar.takenSince before) (Grammar.takenSince before) :=
  treesWhole fun _ => pure _ rfl

theorem skipWord (text : String) :
    Carries f n id (Grammar.skipWord text) (Grammar.skipWord text) := by
  have hword : Carries f n always (Grammar.word text) (Grammar.word text) := word text
  exact (ahead (Local.startsWord text).blind).bind fun _ =>
    ite (hword.bindAt fun _ => pure true rfl) (pure false rfl)

theorem skipLifetime : Carries f n never Grammar.skipLifetime Grammar.skipLifetime :=
  (ahead Local.startsLifetime.blind).bind fun _ => ite (map lifetime) (pure none rfl)

/-! Sequences of entries -/

variable {stop : List TokenTree → Bool} {separator : String}

theorem separatedUntil (hseparator : separator.toList ≠ []) (hstop : f.Blind stop)
    (hp : Carries f n never p p') :
    Carries f n never (Grammar.separatedUntil separator stop p)
      (Grammar.separatedUntil separator stop p') := by
  refine repeating (fun entries => ?_) []
  refine (ahead hstop).bind fun _ => ite (pure _ rfl) <| hp.bind fun a => ?_
  refine (ahead hstop).bind fun _ => ite (pure _ rfl) ?_
  have hsign : Carries f n always (Grammar.sign separator) (Grammar.sign separator) :=
    sign separator hseparator
  exact hsign.bindAt fun _ => pure _ rfl

theorem separatedWhile (hseparator : separator.toList ≠ [])
    (hsign : f.Blind (startsSign separator)) (hstop : f.Blind stop) (hp : Carries f n never p p') :
    Carries f n never (Grammar.separatedWhile separator stop p)
      (Grammar.separatedWhile separator stop p') := by
  refine repeating (fun entries => ?_) []
  refine (ahead hstop).bind fun _ => ite (pure _ rfl) <| hp.bind fun a => ?_
  refine (skipSignOf separator hseparator hsign).bindAt fun b => ?_
  cases b <;> exact pure _ rfl

theorem terminated (hp : Carries .whole n never p p') :
    Carries .whole n never (Grammar.terminated p) (Grammar.terminated p') :=
  separatedUntil (by decide) (Frame.blind_whole _) hp

theorem whileAhead {test : List TokenTree → Bool} (htest : f.Blind test)
    (hp : Carries f n always p p') :
    Carries f n never (Grammar.whileAhead test p) (Grammar.whileAhead test p') := by
  refine repeating (fun entries => ?_) []
  refine (ahead htest).bind fun _ => ite (hp.bindAt fun _ => ?_) (pure _ rfl)
  exact pure _ rfl

theorem untilEnd (hp : Carries .whole n always p p') :
    Carries .whole n never (Grammar.untilEnd p) (Grammar.untilEnd p') :=
  whileAhead (Frame.blind_whole _) hp

theorem startsSegment_local : Local plainPath.startsSegment :=
  Local.startsIdentifier.or (Local.startsAnyWord _)

theorem plainPath {eats : Bool × List String → Bool} :
    Carries f n eats Grammar.plainPath Grammar.plainPath := by
  suffices h : Carries f n always Grammar.plainPath Grammar.plainPath from
    h.weaken fun a => Bool.toNat_le (eats a)
  have hnames : Carries f n always (Grammar.repeating plainPath.step [])
      (Grammar.repeating plainPath.step []) := by
    refine repeatingSome (fun names => ?_) []
    refine (ahead startsSegment_local.blind).bind fun _ => ite ?_ (lacks _ _)
    have hword : Carries f n always Grammar.anyWord Grammar.anyWord := anyWord
    refine hword.bindAt fun _ => ?_
    exact (skipSign "::" (by decide)).weak.bind fun _ => ite (pure _ rfl) (pure _ rfl)
  refine (skipSign "::" (by decide)).weak.bind fun global => ?_
  have hends : Carries f n always
      (Grammar.repeating plainPath.step [] >>= fun names => Pure.pure (global, names))
      (Grammar.repeating plainPath.step [] >>= fun names => Pure.pure (global, names)) :=
    hnames.bindAt fun _ => pure _ rfl
  exact (ahead startsSegment_local.blind).bind fun _ => ite (identifier.bind fun _ => hends) hends

end Carries

end Bindings.Native.Grammar
