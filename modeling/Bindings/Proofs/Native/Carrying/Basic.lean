import Bindings.Proofs.Native.TypeRow
import Bindings.Proofs.Validity

/-!
This module contains what it means that a parser reads a row in the same way wherever the row stands
and however deep its rules go, and how this goes through the ways in which parsers are put together.
-/

namespace Bindings.Native.Grammar

/--
What may stand behind a row: nothing, or a comma with anything behind it.
-/
inductive Boundary : List TokenTree → Prop
  | nil : Boundary []
  | comma (joint : Bool) (position : Position) (trees : List TokenTree) :
    Boundary (.punct ',' joint position :: trees)

/--
Two places in which a row is read: what stands behind the row and what has been written down before
it. A number of trees of the row stays unread.
-/
structure Frame where
  rest : List TokenTree
  rest' : List TokenTree
  past : List TokenTree
  past' : List TokenTree
  margin : Nat
  boundary : Boundary rest
  boundary' : Boundary rest'

namespace Frame

def whole : Frame :=
  ⟨[], [], [], [], 0, .nil, .nil⟩

def fresh (f : Frame) : Frame :=
  { f with past := [], past' := [] }

def inside (f : Frame) : Frame :=
  { f with margin := f.margin + 1 }

def BlindOn (f : Frame) (kind : List TokenTree → Prop) (test : List TokenTree → β) : Prop :=
  ∀ row, kind row → test (row ++ f.rest) = test (row ++ f.rest')

def Blind (f : Frame) (test : List TokenTree → β) : Prop :=
  f.BlindOn (f.margin ≤ ·.length) test

def AgreeOn (f : Frame) (kind : List TokenTree → Prop) (trees trees' : List TokenTree) : Prop :=
  ∀ ⦃β : Type⦄ (test : List TokenTree → β), f.BlindOn kind test → test trees = test trees'

def Agree (f : Frame) (trees trees' : List TokenTree) : Prop :=
  f.AgreeOn (f.margin ≤ ·.length) trees trees'

structure Sees (f : Frame) (row tokens : List TokenTree) (r r' : Reader) : Prop where
  trees : r.trees = row ++ f.rest
  trees' : r'.trees = row ++ f.rest'
  written : r.written = tokens ++ f.past
  written' : r'.written = tokens ++ f.past'
  leftover : r.leftover = none ↔ r'.leftover = none
  width' : r'.trees.length ≤ r'.width

end Frame

/--
Where a parser succeeds in one place without leaving the row, another one does the same in the
other place, if the row has fewer than `n` tokens. The parser takes a tree if its result is such
that it `eats`.
-/
structure Carries (f : Frame) (n : Nat) (eats : α → Bool) (p p' : Parser α) : Prop where
  shrinks : ∀ {r a s}, p r = .ok (a, s) → s.trees.length + (eats a).toNat ≤ r.trees.length
  settled : ∀ {r a s}, p r = .ok (a, s) → s.leftover = none → r.leftover = none
  run : ∀ {row tokens r r' a s}, f.Sees row tokens r r' → TokenTree.sizeAll row < n →
    p r = .ok (a, s) → f.rest.length + f.margin ≤ s.trees.length →
    ∃ row' tokens' s', p' r' = .ok (a, s') ∧ f.Sees row' tokens' s s' ∧ row' <:+ row

def never (_ : α) : Bool := false

def always (_ : α) : Bool := true

theorem one_le_size (tree : TokenTree) : 1 ≤ tree.size := by
  cases tree <;> simp [TokenTree.size]

theorem sizeAll_group (delimiter : Delimiter) (body : List TokenTree) (opened closed : Position)
    (trees : List TokenTree) :
    TokenTree.sizeAll (.group delimiter body opened closed :: trees)
      = TokenTree.sizeAll body + 2 + TokenTree.sizeAll trees :=
  rfl

theorem sizeAll_le_of_suffix {row row' : List TokenTree} (h : row' <:+ row) :
    TokenTree.sizeAll row' ≤ TokenTree.sizeAll row := by
  obtain ⟨front, rfl⟩ := h
  rw [TokenTree.sizeAll_append]
  omega

theorem sizeAll_lt_of_suffix {row row' : List TokenTree} (h : row' <:+ row)
    (hlength : row'.length < row.length) : TokenTree.sizeAll row' < TokenTree.sizeAll row := by
  obtain ⟨front, rfl⟩ := h
  cases front with
  | nil => simp at hlength
  | cons tree front =>
    have := one_le_size tree
    rw [List.cons_append, TokenTree.sizeAll_cons, TokenTree.sizeAll_append]
    omega

namespace Frame

variable {f : Frame} {row tokens : List TokenTree} {r r' : Reader}

theorem Sees.length (h : f.Sees row tokens r r') :
    r.trees.length = row.length + f.rest.length := by
  rw [h.trees, List.length_append]

theorem Sees.agreeOn {kind : List TokenTree → Prop} (h : f.Sees row tokens r r')
    (hkind : kind row) : f.AgreeOn kind r.trees r'.trees := by
  intro β test blind
  rw [h.trees, h.trees']
  exact blind row hkind

theorem AgreeOn.refl {kind : List TokenTree → Prop} (trees : List TokenTree) :
    f.AgreeOn kind trees trees :=
  fun _ _ _ => rfl

theorem blind_whole (test : List TokenTree → β) : Frame.whole.Blind test :=
  fun _ _ => rfl

end Frame

namespace Carries

variable {α β σ : Type} {f : Frame} {n m : Nat} {p p' q q' : Parser α} {k k' : α → Parser β}
variable {eats : α → Bool} {eats' : β → Bool}

theorem bind_eq_ok {p : Parser α} {k : α → Parser β} {r s : Reader} {b : β}
    (h : (p >>= k) r = .ok (b, s)) : ∃ a r₁, p r = .ok (a, r₁) ∧ k a r₁ = .ok (b, s) := by
  obtain ⟨⟨a, r₁⟩, hp, hk⟩ := exists_of_bind_eq_ok h
  exact ⟨a, r₁, hp, hk⟩

theorem bind_of_eq_ok {p : Parser α} {k : α → Parser β} {r r₁ : Reader} {a : α}
    (h : p r = .ok (a, r₁)) : (p >>= k) r = k a r₁ := by
  show (p r).bind (fun result => k result.1 result.2) = _
  rw [h]
  rfl

theorem lower (h : Carries f n eats p p') (hle : m ≤ n) : Carries f m eats p p' where
  shrinks := h.shrinks
  settled := h.settled
  run sees hsize := h.run sees (Nat.lt_of_lt_of_le hsize hle)

theorem weaken {weaker : α → Bool} (h : Carries f n eats p p')
    (hle : ∀ a, (weaker a).toNat ≤ (eats a).toNat) : Carries f n weaker p p' where
  shrinks hp := Nat.le_trans (Nat.add_le_add_left (hle _) _) (h.shrinks hp)
  settled := h.settled
  run := h.run

theorem weak (h : Carries f n eats p p') : Carries f n never p p' :=
  h.weaken fun _ => Nat.zero_le _

theorem strengthen (h : Carries f n never p p')
    (hshrinks : ∀ {r a s}, p r = .ok (a, s) → s.trees.length + (eats a).toNat ≤ r.trees.length) :
    Carries f n eats p p' where
  shrinks := hshrinks
  settled := h.settled
  run := h.run

theorem down (h : Carries f (n + 1) never p p') : Carries f n never p p' :=
  h.lower (Nat.le_succ n)

theorem zero (h : Carries f n eats p q) : Carries f 0 eats p p' where
  shrinks := h.shrinks
  settled := h.settled
  run _ hsize := absurd hsize (Nat.not_lt_zero _)

theorem bindAt (hp : Carries f n eats p p')
    (hk : ∀ a, Carries f (if eats a then n - 1 else n) (if eats a then never else eats')
      (k a) (k' a)) :
    Carries f n eats' (p >>= k) (p' >>= k') where
  shrinks := by
    intro r b s h
    obtain ⟨a, r₁, hp₁, hk₁⟩ := bind_eq_ok h
    have hfirst := hp.shrinks hp₁
    have hnext := (hk a).shrinks hk₁
    have hle := Bool.toNat_le (eats' b)
    cases heats : eats a with
    | false =>
      rw [heats] at hnext
      simp only [Bool.false_eq_true, if_false] at hnext
      omega
    | true =>
      rw [heats] at hfirst
      simp only [Bool.toNat_true] at hfirst
      omega
  settled := by
    intro r b s h hnone
    obtain ⟨a, r₁, hp₁, hk₁⟩ := bind_eq_ok h
    exact hp.settled hp₁ ((hk a).settled hk₁ hnone)
  run := by
    intro row tokens r r' b s sees hsize h hrest
    obtain ⟨a, r₁, hp₁, hk₁⟩ := bind_eq_ok h
    have hfirst := hp.shrinks hp₁
    have hnext := (hk a).shrinks hk₁
    obtain ⟨row₁, tokens₁, r₁', hp₁', sees₁, hsuffix⟩ := hp.run sees hsize hp₁ (by omega)
    -- A row of which a tree has been taken is smaller by at least one token.
    have hsize₁ : TokenTree.sizeAll row₁ < if eats a then n - 1 else n := by
      cases heats : eats a with
      | false => exact Nat.lt_of_le_of_lt (sizeAll_le_of_suffix hsuffix) hsize
      | true =>
        rw [sees.length, sees₁.length, heats, Bool.toNat_true] at hfirst
        have := sizeAll_lt_of_suffix hsuffix (by omega)
        rw [if_pos rfl]
        omega
    obtain ⟨row₂, tokens₂, s', hk₁', sees₂, hsuffix₂⟩ := (hk a).run sees₁ hsize₁ hk₁ hrest
    exact ⟨row₂, tokens₂, s', (bind_of_eq_ok hp₁').trans hk₁', sees₂, hsuffix₂.trans hsuffix⟩

theorem bind (hp : Carries f n never p p') (hk : ∀ a, Carries f n eats' (k a) (k' a)) :
    Carries f n eats' (p >>= k) (p' >>= k') :=
  hp.bindAt hk

theorem eat (hp : Carries f (n + 1) always p p') (hk : ∀ a, Carries f n never (k a) (k' a)) :
    Carries f (n + 1) eats' (p >>= k) (p' >>= k') :=
  hp.bindAt hk

theorem start (hp : Carries f n always p p') (hk : ∀ a, Carries f n never (k a) (k' a)) :
    Carries f n eats' (p >>= k) (p' >>= k') :=
  hp.bindAt fun a => (hk a).lower (Nat.sub_le n 1)

theorem branch {p p' : Parser Bool} {k k' : Bool → Parser β} (hp : Carries f (n + 1) id p p')
    (htrue : Carries f n never (k true) (k' true))
    (hfalse : Carries f (n + 1) eats' (k false) (k' false)) :
    Carries f (n + 1) eats' (p >>= k) (p' >>= k') :=
  hp.bindAt fun
    | true => htrue
    | false => hfalse

theorem inside (hp : Carries f.inside n eats p p')
    (hk : ∀ a, Carries f n always (k a) (k' a)) : Carries f n eats' (p >>= k) (p' >>= k') where
  shrinks := by
    intro r b s h
    obtain ⟨a, r₁, hp₁, hk₁⟩ := bind_eq_ok h
    have hfirst := hp.shrinks hp₁
    have hnext : _ + 1 ≤ _ := (hk a).shrinks hk₁
    have hle := Bool.toNat_le (eats' b)
    omega
  settled := by
    intro r b s h hnone
    obtain ⟨a, r₁, hp₁, hk₁⟩ := bind_eq_ok h
    exact hp.settled hp₁ ((hk a).settled hk₁ hnone)
  run := by
    intro row tokens r r' b s sees hsize h hrest
    obtain ⟨a, r₁, hp₁, hk₁⟩ := bind_eq_ok h
    have hnext : _ + 1 ≤ _ := (hk a).shrinks hk₁
    -- What comes next takes a tree and leaves the margin, so the first parser leaves one tree more.
    have hrest₁ : f.rest.length + (f.margin + 1) ≤ r₁.trees.length := by omega
    obtain ⟨row₁, tokens₁, r₁', hp₁', ⟨h₁, h₂, h₃, h₄, h₅, h₆⟩, hsuffix⟩ :=
      hp.run ⟨sees.1, sees.2, sees.3, sees.4, sees.5, sees.6⟩ hsize hp₁ hrest₁
    obtain ⟨row₂, tokens₂, s', hk₁', sees₂, hsuffix₂⟩ := (hk a).run ⟨h₁, h₂, h₃, h₄, h₅, h₆⟩
      (Nat.lt_of_le_of_lt (sizeAll_le_of_suffix hsuffix) hsize) hk₁ hrest
    exact ⟨row₂, tokens₂, s', (bind_of_eq_ok hp₁').trans hk₁', sees₂, hsuffix₂.trans hsuffix⟩

theorem of_const {a : α} (hp : ∀ r, p r = .ok (a, r)) (hp' : ∀ r, p' r = .ok (a, r))
    (heats : eats a = false) : Carries f n eats p p' where
  shrinks := by
    intro r b s h
    obtain ⟨rfl, rfl⟩ := Prod.mk.inj (Except.ok.inj ((hp r).symm.trans h))
    rw [heats]
    exact Nat.le_refl _
  settled := by
    intro r b s h hnone
    obtain ⟨rfl, rfl⟩ := Prod.mk.inj (Except.ok.inj ((hp r).symm.trans h))
    exact hnone
  run := by
    intro row tokens r r' b s sees _ h _
    obtain ⟨rfl, rfl⟩ := Prod.mk.inj (Except.ok.inj ((hp r).symm.trans h))
    exact ⟨row, tokens, r', hp' r', sees, List.suffix_rfl⟩

theorem pure (a : α) (heats : eats a = false) :
    Carries f n eats (Pure.pure a) (Pure.pure a) :=
  of_const (fun _ => rfl) (fun _ => rfl) heats

theorem fails (h : ∀ r x, p r ≠ .ok x) : Carries f n eats p p' where
  shrinks hp := absurd hp (h _ _)
  settled hp := absurd hp (h _ _)
  run _ _ hp := absurd hp (h _ _)

theorem lacks (whats whats' : List Expectation) :
    Carries f n eats (Grammar.lacks whats) (Grammar.lacks whats') :=
  fails fun _ _ h => nomatch h

theorem complain (problem problem' : Problem) :
    Carries f n eats (Grammar.complain problem) (Grammar.complain problem') :=
  fails fun _ _ h => nomatch h

theorem complainAt (position position' : Position) (problem problem' : Problem) :
    Carries f n eats (Grammar.complainAt position problem)
      (Grammar.complainAt position' problem') :=
  fails fun _ _ h => nomatch h

theorem ite {c : Prop} [Decidable c] (hp : Carries f n eats p p') (hq : Carries f n eats q q') :
    Carries f n eats (if c then p else q) (if c then p' else q') := by
  split
  . exact hp
  . exact hq

theorem iteOf {b b' : Bool} (h : b = b') (hp : Carries f n eats p p')
    (hq : Carries f n eats q q') :
    Carries f n eats (if b then p else q) (if b' then p' else q') := by
  subst h
  exact ite hp hq

/-! Branches that go on in the same way -/

theorem join {c : Prop} [Decidable c] (hp : Carries f n never p p') (hq : Carries f n never q q')
    (hk : ∀ a, Carries f n eats' (k a) (k' a)) :
    Carries f n eats' (if c then p >>= k else q >>= k) (if c then p' >>= k' else q' >>= k') :=
  ite (hp.bind hk) (hq.bind hk)

theorem when {c : Prop} [Decidable c] {o o' : Parser β} (hp : Carries f n never p p')
    (ho : Carries f n eats' o o') :
    Carries f n eats' (if c then p >>= fun _ => o else o) (if c then p' >>= fun _ => o' else o') :=
  ite (hp.bind fun _ => ho) ho

theorem startJoin {c c' : Parser Bool} (hc : Carries f n id c c') (hp : Carries f n never p p')
    (hq : Carries f n always q q') (hk : ∀ a, Carries f n never (k a) (k' a)) :
    Carries f n eats' (c >>= fun b => if b then p >>= k else q >>= k)
      (c' >>= fun b => if b then p' >>= k' else q' >>= k') :=
  hc.bindAt fun
    | true => (hp.bind hk).lower (Nat.sub_le n 1)
    | false => hq.start hk

theorem startEither {c : Prop} [Decidable c] (hp : Carries f n always p p')
    (hq : Carries f n always q q') (hk : ∀ a, Carries f n never (k a) (k' a)) :
    Carries f n eats' (if c then p >>= k else q >>= k) (if c then p' >>= k' else q' >>= k') :=
  ite (hp.start hk) (hq.start hk)

theorem eatEither {c : Prop} [Decidable c] (hp : Carries f (n + 1) always p p')
    (hq : Carries f (n + 1) always q q') (hk : ∀ a, Carries f n never (k a) (k' a)) :
    Carries f (n + 1) eats' (if c then p >>= k else q >>= k)
      (if c then p' >>= k' else q' >>= k') :=
  ite (hp.eat hk) (hq.eat hk)

theorem map {g : α → β} {some? : Bool} (hp : Carries f n (fun _ => some?) p p') :
    Carries f n (fun _ => some?) (g <$> p) (g <$> p') := by
  show Carries f n (fun _ => some?) (p >>= fun a => Pure.pure (g a))
    (p' >>= fun a => Pure.pure (g a))
  exact hp.bindAt fun a => pure (g a) (by cases some? <;> rfl)

theorem treesOn {kind : List TokenTree → Prop} {k k' : List TokenTree → Parser α}
    (hk : ∀ trees trees', f.AgreeOn kind trees trees' → Carries f n eats (k trees) (k' trees'))
    (hkind : ∀ row (r : Reader) a s, r.trees = row ++ f.rest → k r.trees r = .ok (a, s) →
      f.rest.length + f.margin ≤ s.trees.length → kind row) :
    Carries f n eats (Grammar.trees >>= k) (Grammar.trees >>= k') where
  shrinks {r _ _} h := (hk r.trees r.trees (.refl _)).shrinks h
  settled {r _ _} h := (hk r.trees r.trees (.refl _)).settled h
  run {row _ r _ a s} sees hsize h hrest :=
    (hk _ _ (sees.agreeOn (hkind row r a s sees.trees h hrest))).run sees hsize h hrest

theorem trees {k k' : List TokenTree → Parser α}
    (hk : ∀ trees trees', f.Agree trees trees' → Carries f n eats (k trees) (k' trees')) :
    Carries f n eats (Grammar.trees >>= k) (Grammar.trees >>= k') := by
  refine treesOn hk fun row r a s htrees h hrest => ?_
  have hshrinks := (hk r.trees r.trees (.refl _)).shrinks h
  rw [htrees, List.length_append] at hshrinks
  omega

theorem treesWhole {k k' : List TokenTree → Parser α}
    (hk : ∀ trees, Carries .whole n eats (k trees) (k' trees)) :
    Carries .whole n eats (Grammar.trees >>= k) (Grammar.trees >>= k') :=
  trees fun trees trees' agree => by
    obtain rfl : trees = trees' := agree id (Frame.blind_whole id)
    exact hk trees

theorem treesBefore {k k' : List TokenTree → Parser α}
    (hk : ∀ trees trees', f.inside.Agree trees trees' →
      Carries f n always (k trees) (k' trees')) :
    Carries f n eats (Grammar.trees >>= k) (Grammar.trees >>= k') := by
  suffices h : Carries f n always (Grammar.trees >>= k) (Grammar.trees >>= k') from
    h.weaken fun a => Bool.toNat_le (eats a)
  refine treesOn hk fun row r a s htrees h hrest => ?_
  have hshrinks : _ + 1 ≤ _ := (hk r.trees r.trees (.refl _)).shrinks h
  rw [htrees, List.length_append] at hshrinks
  show f.margin + 1 ≤ _
  omega

theorem ahead {test : List TokenTree → Bool} (blind : f.Blind test) :
    Carries f n never (Grammar.ahead test) (Grammar.ahead test) :=
  trees fun _ _ agree => by
    rw [agree test blind]
    exact pure _ rfl

theorem here {k k' : Position → Parser α}
    (hk : ∀ position position', Carries f n eats (k position) (k' position')) :
    Carries f n eats (Grammar.here >>= k) (Grammar.here >>= k') where
  shrinks {r _ _} h := (hk r.place r.place).shrinks h
  settled {r _ _} h := (hk r.place r.place).settled h
  run {_ _ r r' _ _} sees hsize h hrest := (hk r.place r'.place).run sees hsize h hrest

theorem hereBefore {k k' : Position → Parser α}
    (hk : ∀ position, Carries f n always (k position) (k' position)) :
    Carries f n eats (Grammar.here >>= k) (Grammar.here >>= k') where
  shrinks := by
    intro r a s h
    have hshrinks : _ + 1 ≤ _ := (hk r.place).shrinks h
    have hle := Bool.toNat_le (eats a)
    omega
  settled {r _ _} h := (hk r.place).settled h
  run := by
    intro row tokens r r' a s sees hsize h hrest
    have hshrinks : _ + 1 ≤ _ := (hk r.place).shrinks h
    have hplace : r.place = r'.place := by
      have hlength := sees.length
      unfold Reader.place
      rw [sees.trees, sees.trees']
      cases row with
      | nil => simp at hlength; omega
      | cons tree row => rfl
    obtain ⟨row', tokens', s', hrun, hsees, hsuffix⟩ := (hk r.place).run sees hsize h hrest
    refine ⟨row', tokens', s', ?_, hsees, hsuffix⟩
    show k' r'.place r' = _
    rw [← hplace]
    exact hrun

/-! What parsers write down -/

theorem silently_eq_ok {r s : Reader} {a : α} (h : Grammar.silently p r = .ok (a, s)) :
    ∃ after, p r = .ok (a, after) ∧ s = { after with written := r.written } := by
  obtain ⟨⟨b, after⟩, hp, h⟩ := exists_of_bind_eq_ok h
  obtain ⟨rfl, rfl⟩ := Prod.mk.inj (Except.ok.inj h)
  exact ⟨after, hp, rfl⟩

theorem silently_of_eq_ok {r after : Reader} {a : α} (h : p r = .ok (a, after)) :
    Grammar.silently p r = .ok (a, { after with written := r.written }) := by
  unfold Grammar.silently
  rw [h]
  rfl

theorem silently (hp : Carries f n eats p p') :
    Carries f n eats (Grammar.silently p) (Grammar.silently p') where
  shrinks := by
    intro r a s h
    obtain ⟨after, hp₁, rfl⟩ := silently_eq_ok h
    have hshrinks := hp.shrinks hp₁
    exact hshrinks
  settled := by
    intro r a s h hnone
    obtain ⟨after, hp₁, rfl⟩ := silently_eq_ok h
    exact hp.settled hp₁ hnone
  run := by
    intro row tokens r r' a s sees hsize h hrest
    obtain ⟨after, hp₁, rfl⟩ := silently_eq_ok h
    obtain ⟨row', _, after', hrun, hsees, hsuffix⟩ := hp.run sees hsize hp₁ hrest
    exact ⟨row', tokens, _, silently_of_eq_ok hrun,
      { hsees with written := sees.written, written' := sees.written' }, hsuffix⟩

theorem recorded_eq_ok {r s : Reader} {a : α × List TokenTree}
    (h : Grammar.recorded p r = .ok (a, s)) :
    ∃ after, p { r with written := [] } = .ok (a.1, after) ∧ a.2 = after.written.reverse ∧
      s = { after with written := r.written } := by
  obtain ⟨⟨b, after⟩, hp, h⟩ := exists_of_bind_eq_ok h
  obtain ⟨rfl, rfl⟩ := Prod.mk.inj (Except.ok.inj h)
  exact ⟨after, hp, rfl, rfl⟩

theorem recorded_of_eq_ok {r after : Reader} {a : α}
    (h : p { r with written := [] } = .ok (a, after)) :
    Grammar.recorded p r =
      .ok ((a, after.written.reverse), { after with written := r.written }) := by
  unfold Grammar.recorded
  rw [h]
  rfl

theorem recorded {some? : Bool} (hp : Carries f.fresh n (fun _ => some?) p p') :
    Carries f n (fun _ => some?) (Grammar.recorded p) (Grammar.recorded p') where
  shrinks := by
    intro r a s h
    obtain ⟨after, hp₁, -, rfl⟩ := recorded_eq_ok h
    have hshrinks := hp.shrinks hp₁
    exact hshrinks
  settled := by
    intro r a s h hnone
    obtain ⟨after, hp₁, -, rfl⟩ := recorded_eq_ok h
    have hsettled := hp.settled hp₁ hnone
    exact hsettled
  run := by
    intro row tokens r r' a s sees hsize h hrest
    obtain ⟨after, hp₁, htokens, rfl⟩ := recorded_eq_ok h
    have hfresh : f.fresh.Sees row [] { r with written := [] } { r' with written := [] } :=
      { trees := sees.trees, trees' := sees.trees', leftover := sees.leftover,
        width' := sees.width', written := rfl, written' := rfl }
    obtain ⟨row', _, after', hrun, hsees, hsuffix⟩ := hp.run hfresh hsize hp₁ hrest
    have hwritten : after'.written = after.written := hsees.written'.trans hsees.written.symm
    refine ⟨row', tokens, { after' with written := r'.written }, ?_, ?_, hsuffix⟩
    . rw [recorded_of_eq_ok hrun, hwritten, ← htokens]
    . exact { trees := hsees.trees, trees' := hsees.trees', leftover := hsees.leftover,
              width' := hsees.width', written := sees.written, written' := sees.written' }

theorem tokensOf {some? : Bool} (hp : Carries f.fresh n (fun _ => some?) p p') :
    Carries f n (fun _ => some?) (Grammar.tokensOf p) (Grammar.tokensOf p') :=
  map (recorded hp)

theorem write (tokens : List TokenTree) :
    Carries f n never (Grammar.write tokens) (Grammar.write tokens) where
  shrinks h := by
    obtain ⟨rfl, rfl⟩ := Prod.mk.inj (Except.ok.inj h)
    exact Nat.le_refl _
  settled h hnone := by
    obtain ⟨rfl, rfl⟩ := Prod.mk.inj (Except.ok.inj h)
    exact hnone
  run := by
    intro row earlier r r' a s sees _ h _
    obtain ⟨rfl, rfl⟩ := Prod.mk.inj (Except.ok.inj h)
    refine ⟨row, tokens.reverse ++ earlier, { r' with written := tokens.reverse ++ r'.written },
      rfl, ?_, List.suffix_rfl⟩
    exact { sees with
      written := (congrArg _ sees.written).trans (List.append_assoc ..).symm
      written' := (congrArg _ sees.written').trans (List.append_assoc ..).symm }

def thenTaken (p : List TokenTree → Parser α) (k : List TokenTree → α → Parser β) : Parser β := do
  let before ← Grammar.trees
  let a ← p before
  k (← takenSince before) a

theorem thenTaken_eq_ok {p : List TokenTree → Parser α} {k : List TokenTree → α → Parser β}
    {r s : Reader} {b : β} (h : thenTaken p k r = .ok (b, s)) :
    ∃ a r₁, p r.trees r = .ok (a, r₁) ∧
      k (r.trees.take (r.trees.length - r₁.trees.length)) a r₁ = .ok (b, s) := by
  have h : (p r.trees >>= fun a => takenSince r.trees >>= fun taken => k taken a) r = _ := h
  obtain ⟨a, r₁, hp, hk⟩ := bind_eq_ok h
  exact ⟨a, r₁, hp, hk⟩

theorem thenTaken_of_eq_ok {p : List TokenTree → Parser α} {k : List TokenTree → α → Parser β}
    {r r₁ : Reader} {a : α} (h : p r.trees r = .ok (a, r₁)) :
    thenTaken p k r = k (r.trees.take (r.trees.length - r₁.trees.length)) a r₁ :=
  bind_of_eq_ok (p := p r.trees)
    (k := fun a => takenSince r.trees >>= fun taken => k taken a) h

theorem since {p p' : List TokenTree → Parser α} {k k' : List TokenTree → α → Parser β}
    (hp : ∀ trees trees', f.Agree trees trees' → Carries f n eats (p trees) (p' trees'))
    (hk : ∀ taken a, Carries f n (if eats a then never else eats') (k taken a) (k' taken a)) :
    Carries f n eats' (thenTaken p k) (thenTaken p' k') where
  shrinks := by
    intro r b s h
    obtain ⟨a, r₁, hp₁, hk₁⟩ := thenTaken_eq_ok h
    have hfirst := (hp r.trees r.trees (.refl _)).shrinks hp₁
    have hnext := (hk _ _).shrinks hk₁
    have hle := Bool.toNat_le (eats' b)
    cases heats : eats a with
    | false =>
      rw [heats] at hnext
      simp only [Bool.false_eq_true, if_false] at hnext
      omega
    | true =>
      rw [heats] at hfirst
      simp only [Bool.toNat_true] at hfirst
      omega
  settled := by
    intro r b s h hnone
    obtain ⟨a, r₁, hp₁, hk₁⟩ := thenTaken_eq_ok h
    exact (hp r.trees r.trees (.refl _)).settled hp₁ ((hk _ _).settled hk₁ hnone)
  run := by
    intro row tokens r r' b s sees hsize h hrest
    obtain ⟨a, r₁, hp₁, hk₁⟩ := thenTaken_eq_ok h
    have hfirst := (hp r.trees r.trees (.refl _)).shrinks hp₁
    have hnext := (hk _ _).shrinks hk₁
    have hlength := sees.length
    obtain ⟨row₁, tokens₁, r₁', hp₁', sees₁, hsuffix⟩ :=
      (hp r.trees r'.trees (sees.agreeOn (by omega))).run sees hsize hp₁ (by omega)
    have htaken : r'.trees.take (r'.trees.length - r₁'.trees.length)
        = r.trees.take (r.trees.length - r₁.trees.length) := by
      rw [sees.trees, sees.trees', sees₁.trees, sees₁.trees']
      simp only [List.length_append, Nat.add_sub_add_right]
      rw [List.take_append_of_le_length (Nat.sub_le _ _),
        List.take_append_of_le_length (Nat.sub_le _ _)]
    obtain ⟨row₂, tokens₂, s', hk₁', sees₂, hsuffix₂⟩ := (hk _ _).run sees₁
      (Nat.lt_of_le_of_lt (sizeAll_le_of_suffix hsuffix) hsize) hk₁ hrest
    refine ⟨row₂, tokens₂, s', ?_, sees₂, hsuffix₂.trans hsuffix⟩
    rw [thenTaken_of_eq_ok hp₁', htaken]
    exact hk₁'

theorem verbatim (hp : Carries f n eats p p') :
    Carries f n eats (Grammar.verbatim p) (Grammar.verbatim p') :=
  since (k := fun taken a => do Grammar.write taken; return a) (fun _ _ _ => silently hp)
    fun taken a => bind (write taken) fun _ => pure a <| by
      cases heats : eats a <;> simp [never, heats]

/-! Brackets and loops -/

theorem group_eq_ok {delimiter : Delimiter} {r s : Reader} {a : α}
    (h : Grammar.group delimiter p r = .ok (a, s)) :
    ∃ body opened closed rest inner, r.trees = .group delimiter body opened closed :: rest ∧
      p { trees := body, closed, delimiter := some delimiter, leftover := r.leftover }
        = .ok (a, inner) ∧
      s = { r with
        trees := rest
        leftover := inner.complaint?
        written := .group delimiter inner.written.reverse opened closed :: r.written } := by
  unfold Grammar.group at h
  split at h
  . next other body opened closed rest htrees =>
    split at h
    . next hother =>
      subst hother
      obtain ⟨⟨b, inner⟩, hp, h⟩ := exists_of_bind_eq_ok h
      obtain ⟨rfl, rfl⟩ := Prod.mk.inj (Except.ok.inj h)
      exact ⟨body, opened, closed, rest, inner, htrees, hp, rfl⟩
    . cases h
  . cases h

theorem group_of_eq_ok {delimiter : Delimiter} {r inner : Reader} {a : α} {body : List TokenTree}
    {opened closed : Position} {rest : List TokenTree}
    (htrees : r.trees = .group delimiter body opened closed :: rest)
    (hp : p { trees := body, closed, delimiter := some delimiter, leftover := r.leftover }
      = .ok (a, inner)) :
    Grammar.group delimiter p r = .ok (a, { r with
      trees := rest
      leftover := inner.complaint?
      written := .group delimiter inner.written.reverse opened closed :: r.written }) := by
  unfold Grammar.group
  rw [htrees]
  simp only [if_true, hp]
  rfl

theorem complaint?_eq_none {r : Reader} :
    r.complaint? = none ↔ r.leftover = none ∧ r.trees = [] := by
  unfold Reader.complaint?
  cases r.leftover <;> cases r.trees <;> simp

theorem group {delimiter : Delimiter} (hp : Carries .whole n never p p') :
    Carries f (n + 1) eats (Grammar.group delimiter p) (Grammar.group delimiter p') where
  shrinks := by
    intro r a s h
    obtain ⟨body, opened, closed, rest, inner, htrees, -, rfl⟩ := group_eq_ok h
    have := Bool.toNat_le (eats a)
    rw [htrees, List.length_cons]
    show rest.length + _ ≤ _
    omega
  settled := by
    intro r a s h hnone
    obtain ⟨body, opened, closed, rest, inner, htrees, hp₁, rfl⟩ := group_eq_ok h
    have := hp.settled hp₁ (complaint?_eq_none.mp hnone).1
    exact this
  run := by
    intro row tokens r r' a s sees hsize h hrest
    obtain ⟨body, opened, closed, rest, inner, htrees, hp₁, rfl⟩ := group_eq_ok h
    have hrest : f.rest.length + f.margin ≤ rest.length := hrest
    cases row with
    | nil =>
      have := congrArg List.length (sees.trees.symm.trans htrees)
      simp only [List.nil_append, List.length_cons] at this
      omega
    | cons tree row =>
      obtain ⟨rfl, rfl⟩ := List.cons.inj (sees.trees.symm.trans htrees)
      have hbody : TokenTree.sizeAll body < n := by
        rw [sizeAll_group] at hsize
        omega
      have hsees : Frame.whole.Sees body []
          { trees := body, closed, delimiter := some delimiter, leftover := r.leftover }
          { trees := body, closed, delimiter := some delimiter, leftover := r'.leftover } :=
        { trees := (List.append_nil _).symm, trees' := (List.append_nil _).symm, written := rfl,
          written' := rfl, leftover := sees.leftover, width' := Nat.le_refl _ }
      obtain ⟨row', tokens', inner', hrun, hinner, -⟩ := hp.run hsees hbody hp₁ (Nat.zero_le _)
      have hwritten : inner'.written = inner.written := hinner.written'.trans hinner.written.symm
      have hleft : inner.trees = [] ↔ inner'.trees = [] := by
        rw [hinner.trees, hinner.trees']
        rfl
      refine ⟨row, .group delimiter inner.written.reverse opened closed :: tokens, _,
        group_of_eq_ok sees.trees' hrun, ?_, List.suffix_cons _ _⟩
      exact
        { trees := rfl, trees' := rfl
          written := congrArg _ sees.written
          written' := by
            rw [hwritten]
            exact congrArg _ sees.written'
          leftover := by
            rw [complaint?_eq_none, complaint?_eq_none, hinner.leftover, hleft]
          width' := by
            have := sees.width'
            rw [sees.trees'] at this
            exact Nat.le_trans (Nat.le_succ _) this }

theorem go_eq_ok {step : σ → Parser (σ ⊕ α)} {count : Nat} {state : σ} {r s : Reader} {a : α}
    (h : repeating.go step (count + 1) state r = .ok (a, s)) :
    (∃ next r₁, step state r = .ok (.inl next, r₁) ∧
      repeating.go step count next r₁ = .ok (a, s)) ∨ step state r = .ok (.inr a, s) := by
  obtain ⟨result, r₁, hstep, h⟩ := bind_eq_ok h
  cases result with
  | inl next => exact .inl ⟨next, r₁, hstep, h⟩
  | inr b =>
    obtain ⟨rfl, rfl⟩ := Prod.mk.inj (Except.ok.inj h)
    exact .inr hstep

section Loop

variable {step step' : σ → Parser (σ ⊕ α)} {some? : Bool}
variable (hstep : ∀ state, Carries f n (fun result => result.isLeft || some?)
  (step state) (step' state))

include hstep

theorem go_shrinks (count : Nat) (state : σ) {r s : Reader} {a : α}
    (h : repeating.go step count state r = .ok (a, s)) :
    s.trees.length + some?.toNat ≤ r.trees.length := by
  induction count generalizing state r with
  | zero => cases h
  | succ count ih =>
    obtain ⟨next, r₁, hnext, h⟩ | h := go_eq_ok h
    . have := (hstep state).shrinks hnext
      have := ih next h
      omega
    . have := (hstep state).shrinks h
      simpa using this

theorem go_settled (count : Nat) (state : σ) {r s : Reader} {a : α}
    (h : repeating.go step count state r = .ok (a, s)) (hnone : s.leftover = none) :
    r.leftover = none := by
  induction count generalizing state r with
  | zero => cases h
  | succ count ih =>
    obtain ⟨next, r₁, hnext, h⟩ | h := go_eq_ok h
    . exact (hstep state).settled hnext (ih next h)
    . exact (hstep state).settled h hnone

theorem go_run (count count' : Nat) (state : σ) {row tokens : List TokenTree} {r r' s : Reader}
    {a : α} (sees : f.Sees row tokens r r') (hsize : TokenTree.sizeAll row < n)
    (hcount : r'.trees.length < count') (h : repeating.go step count state r = .ok (a, s))
    (hrest : f.rest.length + f.margin ≤ s.trees.length) :
    ∃ row' tokens' s', repeating.go step' count' state r' = .ok (a, s') ∧
      f.Sees row' tokens' s s' ∧ row' <:+ row := by
  -- On the steps of the first loop. The second one has more of them than there are trees.
  induction count generalizing state row tokens r r' count' with
  | zero => cases h
  | succ count ih =>
    obtain ⟨count', rfl⟩ := Nat.exists_eq_add_of_lt hcount
    obtain ⟨next, r₁, hnext, h⟩ | h := go_eq_ok h
    . have hfirst : _ + 1 ≤ _ := (hstep state).shrinks hnext
      have hothers := go_shrinks hstep count next h
      obtain ⟨row₁, tokens₁, r₁', hnext', sees₁, hsuffix⟩ :=
        (hstep state).run sees hsize hnext (by omega)
      have hsize₁ := Nat.lt_of_le_of_lt (sizeAll_le_of_suffix hsuffix) hsize
      have hcount₁ : r₁'.trees.length < r'.trees.length + count' := by
        have hlength := sees.length
        have hlength₁ := sees₁.length
        rw [sees.trees', sees₁.trees', List.length_append, List.length_append]
        omega
      obtain ⟨row₂, tokens₂, s', hrun, sees₂, hsuffix₂⟩ :=
        ih (r'.trees.length + count') next sees₁ hsize₁ hcount₁ h
      exact ⟨row₂, tokens₂, s', (bind_of_eq_ok hnext').trans hrun, sees₂, hsuffix₂.trans hsuffix⟩
    . obtain ⟨row₁, tokens₁, s', hstep', sees₁, hsuffix⟩ := (hstep state).run sees hsize h hrest
      exact ⟨row₁, tokens₁, s', bind_of_eq_ok hstep', sees₁, hsuffix⟩

theorem repeatingAt (state : σ) :
    Carries f n (fun _ => some?) (Grammar.repeating step state)
      (Grammar.repeating step' state) where
  shrinks h := go_shrinks hstep _ _ h
  settled h := go_settled hstep _ _ h
  run sees hsize h hrest :=
    go_run hstep _ _ _ sees hsize (Nat.lt_succ_of_le sees.width') h hrest

end Loop

theorem repeating {step step' : σ → Parser (σ ⊕ α)}
    (hstep : ∀ state, Carries f n Sum.isLeft (step state) (step' state)) (state : σ) :
    Carries f n never (Grammar.repeating step state) (Grammar.repeating step' state) :=
  repeatingAt (fun state => (hstep state).weaken fun _ => by simp) state

theorem repeatingSome {step step' : σ → Parser (σ ⊕ α)}
    (hstep : ∀ state, Carries f n always (step state) (step' state)) (state : σ) :
    Carries f n always (Grammar.repeating step state) (Grammar.repeating step' state) :=
  repeatingAt (fun state => (hstep state).weaken fun _ => by simp [always]) state

end Carries

end Bindings.Native.Grammar
