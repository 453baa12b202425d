import Bindings.Proofs.Native.Carrying.Patterns

/-!
This module contains that expressions are read in the same way in every place, if what is nested in
them is.
-/

namespace Bindings.Native.Grammar

namespace Carries

variable {f : Frame} {n : Nat} {g g' : Rules} (h : Rules.Alike n g g')

include h

/-! Operators -/

theorem rangeTail (literals : Bool) {eats : Unit → Bool} :
    Carries f (n + 1) eats (Grammar.rangeTail g literals) (Grammar.rangeTail g' literals) := by
  refine (rangeSign false).eat fun closed =>
    (ahead (Local.endsRange literals).blind).bind fun _ => ?_
  exact ite ((h.operand f literals _).bind fun _ => pure _ rfl) (pure _ rfl)

theorem castTail {eats : Unit → Bool} :
    Carries f (n + 1) eats (Grammar.castTail g) (Grammar.castTail g') := by
  refine (word "as").eat fun _ => (writtenType h false).bind fun _ =>
    trees fun trees trees' agree => ?_
  rw [agree _ Local.castContinuation?.blind]
  split
  . exact complain _ _
  . exact pure _ rfl

theorem operators_step (literals : Bool) (base : Precedence) (left : Expression) :
    Carries f (n + 1) Sum.isLeft (operators.step g literals base left)
      (operators.step g' literals base left) := by
  refine trees fun trees trees' agree => ite (pure _ rfl) ?_
  rw [agree _ Local.binaryOperator?.blind]
  split
  . next text p hoperator =>
    have htext : text.toList ≠ [] :=
      (by decide : ∀ operator ∈ binaryOperators, operator.1.toList ≠ []) _
        (List.mem_of_find?_eq_some hoperator)
    refine ite (pure _ rfl) (when (complain _ _) ?_)
    exact (sign text htext).eat fun _ => (h.operand f literals p).bind fun _ => pure _ rfl
  . refine iteOf (agree _ ((Local.const _).and Local.startsAssignment).blind) ?_ ?_
    . exact (sign "=" (by decide)).eat fun _ => (h.operand f literals _).bind fun _ => pure _ rfl
    refine iteOf (agree _ ((Local.const _).and (Local.startsSign ".." (by decide))).blind)
      ((rangeTail h literals).start fun _ => pure _ rfl) ?_
    exact iteOf (agree _ ((Local.const _).and (Local.startsWord _)).blind)
      ((castTail h).start fun _ => pure _ rfl) (pure _ rfl)

theorem operators (literals : Bool) (base : Precedence) (left : Expression) :
    Carries f (n + 1) never (Grammar.operators g literals base left)
      (Grammar.operators g' literals base left) :=
  repeating (operators_step h literals base) left

/-! Expressions that end with a block -/

theorem ifExpression {eats : Unit → Bool} :
    Carries f (n + 1) eats (Grammar.ifExpression g) (Grammar.ifExpression g') := by
  suffices h : Carries f (n + 1) always (Grammar.ifExpression g) (Grammar.ifExpression g') from
    h.weaken fun _ => Bool.toNat_le _
  refine repeatingSome (fun _ => ?_) ()
  refine (word "if").eat fun _ => (h.expression f false).weak.bind fun _ =>
    (block h).down.bind fun _ => ?_
  refine (skipWord "else").weak.bind fun _ => ite (pure _ rfl) ?_
  refine (ahead (Local.startsWord _).blind).bind fun _ => ite (pure _ rfl) ?_
  refine (ahead (Local.startsGroup _).blind).bind fun _ => ?_
  exact when (lacks _ _) ((block h).down.bind fun _ => pure _ rfl)

theorem whileExpression {eats : Unit → Bool} :
    Carries f (n + 1) eats (Grammar.whileExpression g) (Grammar.whileExpression g') :=
  (word "while").eat fun _ => (h.expression f false).weak.bind fun _ =>
    (attributedBlock h).down.bind fun _ => pure _ rfl

theorem forExpression {eats : Unit → Bool} :
    Carries f (n + 1) eats (Grammar.forExpression g) (Grammar.forExpression g') :=
  (word "for").eat fun _ => (alternatives h).bind fun _ => (word "in").bind fun _ =>
    (h.expression f false).weak.bind fun _ => (attributedBlock h).down.bind fun _ => pure _ rfl

theorem wordBlock (text : String) {eats : Unit → Bool} :
    Carries f (n + 1) eats (Grammar.wordBlock g text) (Grammar.wordBlock g' text) :=
  (word text).eat fun _ => (attributedBlock h).down.bind fun _ => pure _ rfl

theorem arm {eats : Unit → Bool} :
    Carries .whole n eats (Grammar.arm g) (Grammar.arm g') := by
  refine (attributes h).down.bind fun _ => (alternatives h).bind fun _ => ?_
  have hbody : Carries .whole n always
      (do
        Grammar.sign "=>"
        let body ← g.boundary
        if body = .block || (← Grammar.atEnd) then
          let _ ← Grammar.skipSign ","
        else
          Grammar.sign ",")
      (do
        Grammar.sign "=>"
        let body ← g'.boundary
        if body = .block || (← Grammar.atEnd) then
          let _ ← Grammar.skipSign ","
        else
          Grammar.sign ",") := by
    refine (sign "=>" (by decide)).start fun _ => h.boundary.bind fun _ => ?_
    refine (ahead (Frame.blind_whole _)).bind fun _ => ite ?_ (sign "," (by decide))
    exact (skipSignOf "," (by decide) (Frame.blind_whole _)).weak.bind fun _ => pure _ rfl
  refine (skipWord "if").weak.bind fun _ => ite ?_ (hbody.weaken fun _ => Bool.toNat_le _)
  exact (h.expression _ true).weak.bind fun _ => hbody.weaken fun _ => Bool.toNat_le _

theorem matchExpression {eats : Unit → Bool} :
    Carries f (n + 1) eats (Grammar.matchExpression g) (Grammar.matchExpression g') := by
  have harms : Carries f (n + 1) never
      (Grammar.group .brace do
        let _ ← Grammar.innerAttributes g
        let _ ← Grammar.untilEnd (Grammar.arm g))
      (Grammar.group .brace do
        let _ ← Grammar.innerAttributes g'
        let _ ← Grammar.untilEnd (Grammar.arm g')) :=
    group ((innerAttributes h).bind fun _ => (untilEnd (arm h)).bind fun _ => pure _ rfl)
  exact (word "match").eat fun _ => (h.expression f false).weak.bind fun _ => harms.down

theorem labelled {eats : Unit → Bool} :
    Carries f (n + 1) eats (Grammar.labelled g) (Grammar.labelled g') := by
  refine lifetime.start fun _ => (sign ":" (by decide)).bind fun _ =>
    trees fun trees trees' agree => ?_
  refine iteOf (agree _ (Local.startsWord _).blind) (whileExpression h) ?_
  refine iteOf (agree _ (Local.startsWord _).blind) (forExpression h) ?_
  refine iteOf (agree _ (Local.startsWord _).blind) (wordBlock h _) ?_
  refine iteOf (agree _ (Local.startsGroup _).blind) ?_ (lacks _ _)
  exact (attributedBlock h).bind fun _ => pure _ rfl

theorem control {eats : Unit → Bool} :
    Carries f (n + 1) eats (Grammar.control g) (Grammar.control g') := by
  refine trees fun trees trees' agree => ?_
  refine iteOf (agree _ (Local.startsWord _).blind) (ifExpression h) ?_
  refine iteOf (agree _ (Local.startsWord _).blind) (whileExpression h) ?_
  refine iteOf (agree _ (Local.startsWord _).blind) (forExpression h) ?_
  refine iteOf (agree _ (Local.startsWord _).blind) (wordBlock h _) ?_
  refine iteOf (agree _ (Local.startsWord _).blind) (matchExpression h) ?_
  refine iteOf (agree _ (Local.startsWord _).blind) (wordBlock h _) ?_
  refine iteOf (agree _ (Local.startsWord _).blind) (wordBlock h _) ?_
  refine iteOf (agree _ (Local.startsWord _).blind) ((word "try").start fun _ => block h) ?_
  refine iteOf (agree _ Local.startsLifetime.blind) (labelled h) ?_
  exact (attributedBlock h).start fun _ => pure _ rfl

/-! Operands -/

theorem callArguments {eats : Unit → Bool} :
    Carries f (n + 1) eats (Grammar.callArguments g) (Grammar.callArguments g') := by
  suffices h : Carries f (n + 1) always (Grammar.callArguments g) (Grammar.callArguments g') from
    h.weaken fun _ => Bool.toNat_le _
  have hgroup : Carries f (n + 1) always
      (Grammar.group .paren (Grammar.terminated (g.expression true)))
      (Grammar.group .paren (Grammar.terminated (g'.expression true))) :=
    group (terminated (h.expression _ true).weak)
  exact hgroup.start fun _ => pure _ rfl

theorem turbofish : Carries f (n + 1) never (Grammar.turbofish g) (Grammar.turbofish g') := by
  refine bind (silently ?_) fun _ => write _
  exact (sign "::" (by decide)).bind fun _ => arguments h

theorem memberTail {eats : Unit → Bool} :
    Carries f (n + 1) eats (Grammar.memberTail g) (Grammar.memberTail g') := by
  refine (sign "." (by decide)).start fun _ => skipNestedMembers.bind fun _ => ite ?_ (pure _ rfl)
  refine (skipWord "await").weak.bind fun _ => ite ?_ (pure _ rfl)
  refine member.bind fun _ => (ahead (Local.startsSign "::" (by decide)).blind).bind fun _ =>
    ite ?_ ?_
  . exact (turbofish h).bind fun _ => callArguments h
  refine (ahead (Local.startsGroup _).blind).bind fun _ => ite (callArguments h) (pure _ rfl)

theorem tails (operand : Expression) :
    Carries f (n + 1) never (Grammar.tails g operand) (Grammar.tails g' operand) := by
  refine repeating (fun operand => trees fun trees trees' agree => ?_) operand
  refine iteOf (agree _ (Local.startsGroup _).blind)
    ((callArguments h).start fun _ => pure _ rfl) ?_
  refine iteOf (agree _ (Local.startsMember.and (Local.const _)).blind)
    ((memberTail h).start fun _ => pure _ rfl) ?_
  refine iteOf (agree _ (Local.startsGroup _).blind) ?_ ?_
  . have hgroup : Carries f (n + 1) always (Grammar.group .bracket (g.expression true))
        (Grammar.group .bracket (g'.expression true)) :=
      group (h.expression _ true).weak
    exact hgroup.start fun _ => pure _ rfl
  exact iteOf (agree _ ((Local.startsSign "?" (by decide)).and (Local.const _)).blind)
    ((sign "?" (by decide)).start fun _ => pure _ rfl) (pure _ rfl)

theorem literalField :
    Carries .whole n never (Grammar.literalField g) (Grammar.literalField g') := by
  refine (attributes h).down.bind fun _ => member.bind fun _ =>
    (ahead (Frame.blind_whole _)).bind fun _ => ite ?_ (pure _ rfl)
  exact (sign ":" (by decide)).bind fun _ => (h.expression _ true).weak.bind fun _ => pure _ rfl

theorem literalFields :
    Carries .whole n never (Grammar.literalFields g) (Grammar.literalFields g') := by
  refine repeating (fun _ => (ahead (Frame.blind_whole _)).bind fun _ => ite (pure _ rfl) ?_) ()
  refine (ahead (Frame.blind_whole _)).bind fun _ => ite ?_ ?_
  . refine (sign ".." (by decide)).bind fun _ => (ahead (Frame.blind_whole _)).bind fun _ => ?_
    refine ite ?_ (pure _ rfl)
    exact (h.expression _ true).weak.bind fun _ => pure _ rfl
  . refine (literalField h).bind fun _ => (ahead (Frame.blind_whole _)).bind fun _ =>
      ite (pure _ rfl) ?_
    exact (sign "," (by decide)).start fun _ => pure _ rfl

theorem pathExpression (literals : Bool) {eats : Expression → Bool} : Carries f (n + 1) eats
    (Grammar.pathExpression g literals) (Grammar.pathExpression g' literals) := by
  refine (pathType h true).start fun path => (write _).bind fun _ => ?_
  refine (ahead (Local.startsMacroCall path).blind).bind fun _ => ite
    (macroArguments.bind fun _ => pure _ rfl) ?_
  refine (ahead (Local.startsGroup _).blind).bind fun _ => ite ?_ (pure _ rfl)
  exact (group (literalFields h)).bind fun _ => pure _ rfl

theorem asyncBlock {eats : Unit → Bool} :
    Carries f (n + 1) eats (Grammar.asyncBlock g) (Grammar.asyncBlock g') :=
  (word "async").start fun _ => (skipWord "move").weak.bind fun _ => block h

theorem closureInput : Carries f n never (Grammar.closureInput g) (Grammar.closureInput g') := by
  refine (attributes h).down.bind fun _ => (pattern h).down.bind fun _ => ?_
  refine (skipSign ":" (by decide)).weak.bind fun _ => ite ?_ (pure _ rfl)
  exact (writtenType h true).bind fun _ => pure _ rfl

def closureBody (g : Rules) (literals : Bool) : Parser Unit := do
  let _ ← Grammar.skipWord "const"
  let _ ← Grammar.skipWord "static"
  let _ ← Grammar.skipWord "async"
  let _ ← Grammar.skipWord "move"
  Grammar.sign "|"
  let _ ← Grammar.separatedUntil "," (startsSign "|") (Grammar.closureInput g)
  Grammar.sign "|"
  if ← Grammar.skipSign "->" then
    let _ ← g.writtenType true
    Grammar.block g
  else
    let _ ← g.expression literals

theorem closureBody_carries (literals : Bool) {eats : Unit → Bool} :
    Carries f (n + 1) eats (closureBody g literals) (closureBody g' literals) := by
  refine (skipWord "const").weak.bind fun _ => (skipWord "static").weak.bind fun _ => ?_
  refine (skipWord "async").weak.bind fun _ => (skipWord "move").weak.bind fun _ => ?_
  refine (sign "|" (by decide)).eat fun _ => ?_
  refine (separatedUntil (by decide) (Local.startsSign "|" (by decide)).blind (closureInput h)).bind
    fun _ => (sign "|" (by decide)).bind fun _ => ?_
  refine (skipSign "->" (by decide)).weak.bind fun _ => ite ?_ ?_
  . exact (writtenType h true).bind fun _ => (block h).down
  . exact (h.expression f literals).weak.bind fun _ => pure _ rfl

theorem closure (literals : Bool) {eats : Unit → Bool} :
    Carries f (n + 1) eats (Grammar.closure g literals) (Grammar.closure g' literals) :=
  (skipBinder h).weak.bind fun _ => closureBody_carries h literals

omit h in
theorem builtin {eats : Unit → Bool} : Carries f n eats Grammar.builtin Grammar.builtin := by
  suffices h : Carries f (n + 1) eats Grammar.builtin Grammar.builtin from h.lower (Nat.le_succ n)
  exact verbatim <| (word "builtin").start fun _ => (sign "#" (by decide)).bind fun _ =>
    identifier.bind fun _ => group everything

theorem arrayElements :
    Carries .whole n never (Grammar.arrayElements g) (Grammar.arrayElements g') := by
  refine (ahead (Frame.blind_whole _)).bind fun _ => ite (pure _ rfl) ?_
  refine (h.expression _ true).weak.bind fun _ => (ahead (Frame.blind_whole _)).bind fun _ =>
    ite (pure _ rfl) ?_
  refine (skipSignOf "," (by decide) (Frame.blind_whole _)).weak.bind fun _ => ite ?_ ?_
  . exact (terminated (h.expression _ true).weak).bind fun _ => pure _ rfl
  refine (skipSign ";" (by decide)).weak.bind fun _ => ite ?_ (lacks _ _)
  exact (h.expression _ true).weak.bind fun _ => pure _ rfl

theorem breakExpression (literals : Bool) {eats : Unit → Bool} : Carries f (n + 1) eats
    (Grammar.breakExpression g literals) (Grammar.breakExpression g' literals) := by
  refine (word "break").eat fun _ => trees fun trees trees' agree => ?_
  refine iteOf
    (agree _ (Local.startsLifetime.next (Local.startsSign ":" (by decide)) rfl).blind) ?_ ?_
  . exact here fun _ _ => (h.expression f true).weak.bind fun _ =>
      fails fun _ _ h => nomatch h
  refine skipLifetime.bind fun _ => (ahead Local.startsExpression.blind).bind fun _ =>
    (ahead (Local.startsGroup _).blind).bind fun _ => ite ?_ (pure _ rfl)
  exact (h.expression f true).weak.bind fun _ => pure _ rfl

theorem jump (text : String) {eats : Unit → Bool} :
    Carries f (n + 1) eats (Grammar.jump g text) (Grammar.jump g' text) := by
  refine (word text).eat fun _ => (ahead Local.startsExpression.blind).bind fun _ =>
    ite ?_ (pure _ rfl)
  exact (h.expression f true).weak.bind fun _ => pure _ rfl

theorem letExpression (literals : Bool) {eats : Unit → Bool} : Carries f (n + 1) eats
    (Grammar.letExpression g literals) (Grammar.letExpression g' literals) :=
  (word "let").eat fun _ => (alternatives h).bind fun _ => (sign "=" (by decide)).bind fun _ =>
    (h.unary f literals).bind fun left => (operators h literals _ left).down.bind fun _ =>
      pure _ rfl

omit h in
theorem word_shrinks {text : String} {r s : Reader} (hp : Grammar.word text r = .ok ((), s)) :
    s.trees.length + 1 ≤ r.trees.length := by
  have hword : Carries .whole 0 always (Grammar.word text) (Grammar.word text) := word text
  exact hword.shrinks hp

omit h in
theorem sign_shrinks {text : String} (htext : text.toList ≠ []) {r s : Reader}
    (hp : Grammar.sign text r = .ok ((), s)) : s.trees.length + 1 ≤ r.trees.length := by
  have hsign : Carries .whole 0 always (Grammar.sign text) (Grammar.sign text) := sign text htext
  exact hsign.shrinks hp

theorem forExpression_shrinks {r s : Reader} {a : Unit}
    (hp : Grammar.forExpression g r = .ok (a, s)) : s.trees.length + 4 ≤ r.trees.length := by
  have hblock : Carries .whole (n + 1) always (Grammar.attributedBlock g)
    (Grammar.attributedBlock g') := attributedBlock h
  obtain ⟨_, r₁, hp₁, hp⟩ := bind_eq_ok hp
  obtain ⟨_, r₂, hp₂, hp⟩ := bind_eq_ok hp
  obtain ⟨_, r₃, hp₃, hp⟩ := bind_eq_ok hp
  obtain ⟨_, r₄, hp₄, hp⟩ := bind_eq_ok hp
  obtain ⟨_, r₅, hp₅, hp⟩ := bind_eq_ok hp
  cases hp
  have h₁ := word_shrinks hp₁
  have h₂ := (alternatives h (f := Frame.whole)).shrinks hp₂
  have h₃ := word_shrinks hp₃
  have h₄ : _ + 1 ≤ _ := (h.expression .whole false).shrinks hp₄
  have h₅ : _ + 1 ≤ _ := hblock.shrinks hp₅
  omega

theorem binder_shrinks {r s : Reader} {a : Unit} (hp : Grammar.binder g r = .ok (a, s)) :
    s.trees.length + 3 ≤ r.trees.length := by
  have hparams := separatedUntil (show ",".toList ≠ [] by decide)
    (Local.startsSign ">" (by decide)).blind (binder_param h (endsConstraint_blind Frame.whole))
  obtain ⟨_, r₁, hp₁, hp⟩ := bind_eq_ok hp
  obtain ⟨_, r₂, hp₂, hp⟩ := bind_eq_ok hp
  obtain ⟨_, r₃, hp₃, hp⟩ := bind_eq_ok hp
  have h₁ := word_shrinks hp₁
  have h₂ := sign_shrinks (by decide) hp₂
  have h₃ := hparams.shrinks hp₃
  have h₄ := sign_shrinks (by decide) hp
  omega

theorem closure_shrinks {literals : Bool} {r s : Reader} {a : Unit}
    (hfor : startsWord "for" r.trees = true) (hp : Grammar.closure g literals r = .ok (a, s)) :
    s.trees.length + 4 ≤ r.trees.length := by
  obtain ⟨_, r₁, hbinder, hp⟩ := bind_eq_ok hp
  have h₁ : r₁.trees.length + 3 ≤ r.trees.length := by
    obtain ⟨_, _, hahead, hbinder⟩ := bind_eq_ok hbinder
    obtain ⟨rfl, rfl⟩ := Prod.mk.inj (Except.ok.inj hahead)
    rw [if_pos hfor] at hbinder
    obtain ⟨_, _, hbinder, hend⟩ := bind_eq_ok hbinder
    cases hend
    exact binder_shrinks h hbinder
  have hbody : Carries .whole (n + 1) always (closureBody g literals) (closureBody g' literals) :=
    closureBody_carries h literals
  have h₂ : _ + 1 ≤ _ := hbody.shrinks hp
  omega

omit h in
theorem control_of_for {r : Reader} (hfor : startsWord "for" r.trees = true) :
    Grammar.control g r = Grammar.forExpression g r := by
  obtain ⟨trees, _, _, _, _, _⟩ := r
  match trees, hfor with
  | .word text _ :: _, hfor =>
    obtain rfl : text = "for" := eq_of_beq hfor
    rfl

omit h in
theorem atom_of_for {literals : Bool} {r : Reader} (hfor : startsWord "for" r.trees = true) :
    Grammar.atom g literals r =
      if startsControl r.trees then (do Grammar.control g; return .block : Parser Expression) r
      else if startsClosure r.trees then
        (do Grammar.closure g literals; return .other : Parser Expression) r
      else Grammar.lacks [.expression] r := by
  obtain ⟨trees, _, _, _, _, _⟩ := r
  match trees, hfor with
  | .word text position :: row, hfor =>
    obtain rfl : text = "for" := eq_of_beq hfor
    show (if startsControl (.word "for" position :: row) then _
      else if startsClosure (.word "for" position :: row) then _ else _ : Parser Expression) _ = _
    dsimp only
    cases startsControl (.word "for" position :: row)
    . cases startsClosure (.word "for" position :: row) <;> rfl
    . rfl

theorem atom_showsGenerics (literals : Bool) {row : List TokenTree} {r s : Reader} {a : Expression}
    (htrees : r.trees = row ++ f.rest) (hp : Grammar.atom g literals r = .ok (a, s))
    (hrest : f.rest.length + f.margin ≤ s.trees.length) : Local.ShowsGenerics row := by
  intro hfor
  have hfor : startsWord "for" r.trees = true := by
    rw [htrees, Local.startsWord "for" row f.rest f.boundary]
    exact hfor
  have hshrinks : s.trees.length + 4 ≤ r.trees.length := by
    rw [atom_of_for hfor] at hp
    split at hp
    . obtain ⟨_, _, hcontrol, hp⟩ := bind_eq_ok hp
      cases hp
      rw [control_of_for hfor] at hcontrol
      exact forExpression_shrinks h hcontrol
    . split at hp
      . obtain ⟨_, _, hclosure, hp⟩ := bind_eq_ok hp
        cases hp
        exact closure_shrinks h hfor hclosure
      . cases hp
  rw [htrees, List.length_append] at hshrinks
  omega

theorem atom (literals : Bool) {eats : Expression → Bool} : Carries f (n + 1) eats
    (Grammar.atom g literals) (Grammar.atom g' literals) := by
  -- A `for` begins a loop or a closure. The trees behind it tell which, and as either one takes
  -- them all, they belong to the row.
  refine treesOn (fun trees trees' (agree : f.AgreeOn Local.ShowsGenerics trees trees') => ?_)
    fun row r a s htrees hp hrest => atom_showsGenerics h literals htrees hp hrest
  have hlocal {test : List TokenTree → Bool} (htest : Local test) : test trees = test trees' :=
    agree test fun row _ =>
      (htest row f.rest f.boundary).trans (htest row f.rest' f.boundary').symm
  have hcontrol : startsControl trees = startsControl trees' := agree _ fun row hrow =>
    (Local.startsControl_append hrow f.boundary).trans
      (Local.startsControl_append hrow f.boundary').symm
  have hclosure : startsClosure trees = startsClosure trees' := agree _ fun row hrow =>
    (Local.startsClosure_append hrow f.boundary).trans
      (Local.startsClosure_append hrow f.boundary').symm
  refine iteOf hcontrol ((control h).start fun _ => pure _ rfl) ?_
  refine iteOf (hlocal ((Local.startsWord _).next (Local.startsSign "#" (by decide)) rfl))
    (builtin.start fun _ => pure _ rfl) ?_
  refine iteOf (hlocal Local.startsPathExpression) (pathExpression h literals) ?_
  refine iteOf (hlocal (Local.startsSign ".." (by decide)))
    ((rangeTail h literals).start fun _ => pure _ rfl) ?_
  refine iteOf (hlocal Local.startsLiteral) (literal.start fun _ => pure _ rfl) ?_
  refine iteOf (hlocal Local.startsAsyncBlock) ((asyncBlock h).start fun _ => pure _ rfl) ?_
  refine iteOf hclosure ((closure h literals).start fun _ => pure _ rfl) ?_
  refine iteOf (hlocal (Local.startsGroup _)) ((callArguments h).start fun _ => pure _ rfl) ?_
  refine iteOf (hlocal (Local.startsGroup _))
    (start (group (arrayElements h)) fun _ => pure _ rfl) ?_
  refine iteOf (hlocal (Local.startsWord _))
    ((breakExpression h literals).start fun _ => pure _ rfl) ?_
  refine iteOf (hlocal (Local.startsWord _)) ((word "continue").start fun _ =>
    skipLifetime.bind fun _ => pure _ rfl) ?_
  refine iteOf (hlocal (Local.startsWord _)) ((jump h "return").start fun _ => pure _ rfl) ?_
  refine iteOf (hlocal (Local.startsWord _)) ((jump h "yield").start fun _ => pure _ rfl) ?_
  refine iteOf (hlocal (Local.startsWord _)) (start (verbatim ?_) fun _ => pure _ rfl) ?_
  . exact (word "become").eat fun _ => (h.expression f true).weak.bind fun _ => pure _ rfl
  refine iteOf (hlocal (Local.startsWord _))
    ((letExpression h literals).start fun _ => pure _ rfl) ?_
  refine iteOf (hlocal (Local.startsWord _)) ((word "_").start fun _ => pure _ rfl) ?_
  exact fails fun _ _ h => nomatch h

theorem addressTail (literals : Bool) :
    Carries f n never (Grammar.addressTail g literals) (Grammar.addressTail g' literals) := by
  refine trees fun trees trees' agree => ?_
  have hunary : Carries f n never (g.unary literals >>= fun _ => Pure.pure ())
      (g'.unary literals >>= fun _ => Pure.pure ()) :=
    (h.unary f literals).bind fun _ => pure _ rfl
  refine iteOf (agree _ ((Local.startsWord _).next (Local.startsAnyWord _) rfl).blind) ?_ ?_
  . exact (word "raw").bind fun _ => anyWord.bind fun _ => hunary
  . exact (skipWord "mut").weak.bind fun _ => hunary

theorem unary (literals : Bool) {eats : Expression → Bool} : Carries f (n + 1) eats
    (Grammar.unary g literals) (Grammar.unary g' literals) := by
  refine (attributes h).bind fun attributes => (skipSign "&" (by decide)).branch
    ((addressTail h literals).bind fun _ => pure _ rfl) ?_
  refine trees fun trees trees' agree => ?_
  rw [agree _ Local.leadingOperator?.blind]
  split
  . next text hoperator =>
    have htext : text.toList ≠ [] :=
      (by decide : ∀ text ∈ ["*", "!", "-"], text.toList ≠ []) _
        (List.mem_of_find?_eq_some hoperator)
    exact (sign text htext).eat fun _ => (h.unary f literals).bind fun _ => pure _ rfl
  . refine here fun _ _ => (atom h literals).start fun operand => (tails h operand).bind fun _ => ?_
    exact ite (fails fun _ _ h => nomatch h) (pure _ rfl)

def GoesOn {σ α : Type} (p : Parser (σ ⊕ α)) : Prop :=
  ∀ r a s, p r ≠ .ok (.inr a, s)

omit h in
theorem GoesOn.pure {σ α : Type} (state : σ) :
    GoesOn (Pure.pure (.inl state) : Parser (σ ⊕ α)) :=
  fun _ _ _ h => nomatch h

omit h in
theorem GoesOn.bind {β σ α : Type} {p : Parser β} {k : β → Parser (σ ⊕ α)}
    (hk : ∀ b, GoesOn (k b)) : GoesOn (p >>= k) := by
  intro r a s hp
  obtain ⟨b, r₁, -, hp⟩ := bind_eq_ok hp
  exact hk b r₁ a s hp

omit h in
theorem operators_step_goesOn {literals : Bool} {base : Precedence} {left a : Expression}
    {r s : Reader} (hleft : left ≠ .range) (hnext : nextPrecedence? r.trees = some base) :
    operators.step g literals base left r ≠ .ok (.inr a, s) := by
  intro hp
  obtain ⟨_, _, htrees, hp⟩ := bind_eq_ok hp
  obtain ⟨rfl, rfl⟩ := Prod.mk.inj (Except.ok.inj htrees)
  have hcovers : Precedence.covers base base = true := by simp [Precedence.covers]
  unfold nextPrecedence? at hnext
  rw [if_neg hleft] at hp
  cases hoperator : binaryOperator? r.trees with
  | some operator =>
    obtain ⟨text, p⟩ := operator
    rw [hoperator] at hp hnext
    obtain rfl : p = base := Option.some.inj hnext
    dsimp only at hp
    rw [if_neg (by simp [hcovers])] at hp
    split at hp
    . exact GoesOn.bind (fun _ => .bind fun _ => .bind fun _ => .pure _) _ _ _ hp
    . exact GoesOn.bind (fun _ => .bind fun _ => .pure _) _ _ _ hp
  | none =>
    rw [hoperator] at hp hnext
    dsimp only at hp hnext
    split at hnext
    . next hassign =>
      obtain rfl := Option.some.inj hnext
      rw [if_pos (by simp [hcovers, hassign])] at hp
      exact GoesOn.bind (fun _ => .bind fun _ => .pure _) _ _ _ hp
    rw [if_neg (by simp [*])] at hp
    split at hnext
    . next hrange =>
      obtain rfl := Option.some.inj hnext
      rw [if_pos (by simp [hcovers, hrange])] at hp
      exact GoesOn.bind (fun _ => .pure _) _ _ _ hp
    rw [if_neg (by simp [*])] at hp
    split at hnext
    . next hcast =>
      obtain rfl := Option.some.inj hnext
      rw [if_pos (by simp [hcovers, hcast])] at hp
      exact GoesOn.bind (fun _ => .pure _) _ _ _ hp
    . cases hnext

theorem operators_shrinks {literals : Bool} {base : Precedence} {left : Expression} {r s : Reader}
    {a : Expression} (hleft : left ≠ .range) (hnext : nextPrecedence? r.trees = some base)
    (hp : Grammar.operators g literals base left r = .ok (a, s)) :
    s.trees.length + 1 ≤ r.trees.length := by
  have hstep (left : Expression) : Carries .whole (n + 1) (fun result => result.isLeft || false)
      (operators.step g literals base left) (operators.step g' literals base left) :=
    (operators_step h literals base left).weaken fun _ => by simp
  obtain ⟨next, r₁, hfirst, hothers⟩ | hp := go_eq_ok hp
  . have h₁ : _ + 1 ≤ _ := (hstep left).shrinks hfirst
    have h₂ := go_shrinks hstep _ _ hothers
    omega
  . exact absurd hp (operators_step_goesOn hleft hnext)

theorem operand_step (literals : Bool) (p : Precedence) (left : Expression) :
    Carries f (n + 1) Sum.isLeft (operand.step g literals p left)
      (operand.step g' literals p left) := by
  refine strengthen (trees fun trees trees' agree => ?_) fun {r a s} hp => ?_
  . rw [agree _ Local.nextPrecedence?.blind]
    split
    . exact ite ((operators h literals _ left).bind fun _ => pure _ rfl) (pure _ rfl)
    . exact pure _ rfl
  . obtain ⟨_, _, htrees, hp⟩ := bind_eq_ok hp
    obtain ⟨rfl, rfl⟩ := Prod.mk.inj (Except.ok.inj htrees)
    cases hnext : nextPrecedence? r.trees with
    | none =>
      rw [hnext] at hp
      cases hp
      exact Nat.le_refl _
    | some next =>
      rw [hnext] at hp
      dsimp only at hp
      by_cases hcondition : (left ≠ .range
        && (p.rank < next.rank || (p = .assign && next = .assign))) = true
      . rw [if_pos hcondition] at hp
        obtain ⟨_, _, hp, hend⟩ := bind_eq_ok hp
        cases hend
        simp only [Bool.and_eq_true, decide_eq_true_eq] at hcondition
        exact operators_shrinks h hcondition.1 hnext hp
      . rw [if_neg hcondition] at hp
        cases hp
        exact Nat.le_refl _

theorem operand (literals : Bool) (p : Precedence) :
    Carries f (n + 1) never (Grammar.operand g literals p) (Grammar.operand g' literals p) :=
  (unary h literals).bind fun left => repeating (operand_step h literals p) left

theorem expression (literals : Bool) {eats : Expression → Bool} : Carries f (n + 1) eats
    (Grammar.expression g literals) (Grammar.expression g' literals) :=
  (unary h literals).start fun left => operators h literals .jump left

theorem boundary {eats : Expression → Bool} :
    Carries .whole (n + 1) eats (Grammar.boundary g) (Grammar.boundary g') := by
  refine (attributes h).bind fun _ => (ahead (Frame.blind_whole _)).bind fun _ => ite ?_ ?_
  . refine (control h).start fun _ => (ahead (Frame.blind_whole _)).bind fun _ =>
      ite ?_ (pure _ rfl)
    exact (tails h .block).bind fun operand => operators h true .jump operand
  . exact (unary h true).start fun left => operators h true .jump left

end Carries

end Bindings.Native.Grammar
