import Bindings.Native.Grammar.File
import Bindings.Proofs.Native.Carrying.Primitives

/-!
This module contains that attributes, paths and generic parameters are read in the same way in every
place, if what is nested in them is.
-/

namespace Bindings.Native.Grammar

/--
Two sets of rules that read rows of fewer than `n` tokens alike. Some of the rules only read what
stands in brackets.
-/
structure Rules.Alike (n : Nat) (g g' : Rules) : Prop where
  type : ∀ f plus, Carries f n never (g.type plus) (g'.type plus)
  bound : ∀ f capture const?, Carries f n never (g.bound capture const?) (g'.bound capture const?)
  expression : ∀ f literals, Carries f n always (g.expression literals) (g'.expression literals)
  operand : ∀ f literals p, Carries f n never (g.operand literals p) (g'.operand literals p)
  unary : ∀ f literals, Carries f n never (g.unary literals) (g'.unary literals)
  boundary : Carries .whole n never g.boundary g'.boundary
  pattern : ∀ f, Carries f n never g.pattern g'.pattern
  statements : Carries .whole n never g.statements g'.statements
  fields : Carries .whole n never g.fields g'.fields
  importTree : ∀ root, Carries .whole n never (g.importTree root) (g'.importTree root)
  item : Carries .whole n always g.item g'.item

namespace Carries

variable {f : Frame} {n : Nat} {g g' : Rules} (h : Rules.Alike n g g')

include h

theorem writtenType (plus : Bool) : Carries f n never (g.writtenType plus) (g'.writtenType plus) :=
  (h.type f plus).bind fun type => (write type.tokens).bind fun _ => pure type rfl

/-! Attributes -/

theorem attributeContent_value :
    Carries .whole n never (attributeContent.value g) (attributeContent.value g') := by
  refine treesWhole fun trees => ?_
  split
  . exact literal.bind fun _ => pure _ rfl
  . exact literal.bind fun _ => pure _ rfl
  . refine ite ((complain _ _).bind fun _ => ?_) ?_
    . exact (h.expression _ true).weak.bind fun _ => pure _ rfl
    . exact (h.expression _ true).weak.bind fun _ => pure _ rfl

theorem attributeContent :
    Carries .whole n never (Grammar.attributeContent g) (Grammar.attributeContent g') := by
  refine hereBefore fun position => (skipWord "unsafe").startJoin (pure _ rfl) plainPath
    fun (global, path) => treesWhole fun trees => ?_
  split
  . exact anyGroup.bind fun _ => pure _ rfl
  . exact (sign "=" (by decide)).bind fun _ => (attributeContent_value h).bind fun _ => pure _ rfl
  . exact pure _ rfl

theorem attributes : Carries f (n + 1) never (Grammar.attributes g) (Grammar.attributes g') := by
  refine whileAhead (Local.startsSign "#" (by decide)).blind ?_
  exact (sign "#" (by decide)).bind fun _ => group (attributeContent h)

theorem innerAttributes :
    Carries .whole n never (Grammar.innerAttributes g) (Grammar.innerAttributes g') := by
  refine whileAhead (Frame.blind_whole _) ?_
  refine (sign "#" (by decide)).start fun _ => (sign "!" (by decide)).bind fun _ => ?_
  exact (group (attributeContent h)).lower (Nat.le_succ n)

theorem block {eats : Unit → Bool} :
    Carries f (n + 1) eats (Grammar.block g) (Grammar.block g') :=
  group h.statements

theorem attributedBlock {eats : List Attribute → Bool} :
    Carries f (n + 1) eats (Grammar.attributedBlock g) (Grammar.attributedBlock g') :=
  group <| (innerAttributes h).bind fun _ => h.statements.bind fun _ => pure _ rfl

/-! Paths -/

theorem constant : Carries f (n + 1) never (Grammar.constant g) (Grammar.constant g') := by
  refine (ahead Local.startsLiteral.blind).bind fun _ => ite literal ?_
  refine (ahead Local.startsIdentifier.blind).bind fun _ => ite ?_ ?_
  . exact identifier.bind fun _ => pure _ rfl
  . refine (ahead (Local.startsGroup _).blind).bind fun _ => ite ?_ (lacks _ _)
    exact (attributedBlock h).bind fun _ => pure _ rfl

theorem argument_value : Carries f n never (argument.value g) (argument.value g') := by
  refine (sign "=" (by decide)).bind fun _ => ?_
  refine (ahead Local.startsConstant.blind).bind fun _ => ite (constant h).down ?_
  exact (writtenType h true).bind fun _ => pure _ rfl

theorem argument_constraint (hends : f.Blind endsConstraint) :
    Carries f n never (argument.constraint g) (argument.constraint g') := by
  refine (sign ":" (by decide)).bind fun _ => ?_
  exact (separatedWhile (by decide) (Local.startsSign "+" (by decide)).blind hends
    (h.bound f false true)).bind fun _ => pure _ rfl

theorem argument (hends : f.Blind endsConstraint) :
    Carries f n never (Grammar.argument g) (Grammar.argument g') := by
  refine trees fun trees trees' agree => ?_
  refine iteOf
    (agree _ (Local.startsLifetime.next (Local.startsSign "+" (by decide)).not rfl).blind)
    (lifetime.bind fun _ => pure _ rfl) ?_
  refine iteOf (agree _ Local.startsConstant.blind)
    ((tokensOf (constant h).down).bind fun _ => pure _ rfl) ?_
  refine (h.type _ true).bind fun type => ?_
  split
  . refine (ahead (Local.startsSign "=" (by decide)).blind).bind fun _ => ite ?_ ?_
    . exact (tokensOf (argument_value h)).bind fun _ => pure _ rfl
    . refine (ahead (Local.startsSign ":" (by decide)).blind).bind fun _ => ite ?_ (pure _ rfl)
      exact (tokensOf (argument_constraint h hends)).bind fun _ => pure _ rfl
  . exact pure _ rfl

theorem arguments {eats : List Argument × Bool → Bool} :
    Carries f (n + 1) eats (Grammar.arguments g) (Grammar.arguments g') := by
  refine (sign "<" (by decide)).eat fun _ => ?_
  refine inside (separatedUntil (by decide) (Local.startsSign ">" (by decide)).blind
    (argument h (endsConstraint_blind f))) fun entries => ?_
  exact (sign ">" (by decide)).start fun _ => pure _ rfl

theorem segment (inExpression : Bool) {eats : Segment → Bool} :
    Carries f (n + 1) eats (Grammar.segment g inExpression) (Grammar.segment g' inExpression) := by
  refine (ahead (Local.startsAnyWord _).blind).bind fun _ =>
    ite (anyWord.start fun _ => pure _ rfl) ?_
  refine (ahead (Local.startsWord _).blind).bind fun _ => startEither anyWord identifier
    fun name => ?_
  refine (ahead (Local.startsArguments _).blind).bind fun _ => ite ?_ (pure _ rfl)
  refine (skipSign "::" (by decide)).weak.bind fun turbofish => (arguments h).bind fun _ => ?_
  exact pure _ rfl

theorem path (inExpression : Bool) {eats : Bool × List Segment → Bool} :
    Carries f (n + 1) eats (Grammar.path g inExpression) (Grammar.path g' inExpression) := by
  refine (skipSign "::" (by decide)).weak.bind fun global =>
    (segment h inExpression).start fun _ => ?_
  refine (whileAhead Local.continuesPath.blind ?_).bind fun _ => pure _ rfl
  exact (sign "::" (by decide)).start fun _ => segment h inExpression

theorem writtenPath (inExpression : Bool) {eats : Unit → Bool} : Carries f (n + 1) eats
    (Grammar.writtenPath g inExpression) (Grammar.writtenPath g' inExpression) :=
  (silently (path h inExpression)).start fun _ => write _

theorem qualifiedPath_behindSign (inExpression : Bool) {eats : Unit → Bool} : Carries f (n + 1) eats
    (qualifiedPath.behindSign g inExpression) (qualifiedPath.behindSign g' inExpression) :=
  (sign "::" (by decide)).start fun _ => (silently (segment h inExpression)).bind fun _ => write _

theorem qualifiedPath (inExpression : Bool) {eats : Unit → Bool} : Carries f (n + 1) eats
    (Grammar.qualifiedPath g inExpression) (Grammar.qualifiedPath g' inExpression) := by
  have hsegment : Carries f n always (qualifiedPath.behindSign g inExpression)
      (qualifiedPath.behindSign g' inExpression) :=
    (qualifiedPath_behindSign h inExpression).lower (Nat.le_succ n)
  refine (sign "<" (by decide)).eat fun _ => (writtenType h true).bind fun _ => ?_
  refine (skipWord "as").weak.bind fun _ => when (writtenPath h false).down ?_
  refine (sign ">" (by decide)).bind fun _ => hsegment.weak.bind fun _ => ?_
  exact (whileAhead (Local.startsSign "::" (by decide)).blind hsegment).bind fun _ => pure _ rfl

theorem pathType (inExpression : Bool) {eats : TypeExpr → Bool} : Carries f (n + 1) eats
    (Grammar.pathType g inExpression) (Grammar.pathType g' inExpression) := by
  refine (ahead (Local.startsSign "<" (by decide)).blind).bind fun _ => ite ?_ ?_
  . have htokens : Carries f (n + 1) always
        (Grammar.tokensOf (Grammar.qualifiedPath g inExpression))
        (Grammar.tokensOf (Grammar.qualifiedPath g' inExpression)) :=
      tokensOf (qualifiedPath h inExpression)
    exact htokens.start fun _ => pure _ rfl
  . exact (silently (path h inExpression)).start fun _ => pure _ rfl

omit h in
theorem macroArguments {eats : Delimiter → Bool} :
    Carries f n eats Grammar.macroArguments Grammar.macroArguments :=
  (sign "!" (by decide)).start fun _ => anyGroup

/-! Generic parameters -/

omit h in
theorem behindColon {α : Type} {bounds bounds' : Parser (List α)}
    (hbounds : Carries f.fresh n never bounds bounds') :
    Carries f n never (Grammar.behindColon bounds) (Grammar.behindColon bounds') := by
  refine (ahead (Local.startsSign ":" (by decide)).blind).bind fun _ => ite ?_ (pure _ rfl)
  refine (recorded ((sign ":" (by decide)).bind fun _ => hbounds)).bind fun _ => ?_
  exact ite (write _) (pure _ rfl)

omit h in
theorem behindColonWhole {α : Type} {bounds bounds' : Parser (List α)}
    (hbounds : Carries .whole n never bounds bounds') :
    Carries .whole n never (Grammar.behindColon bounds) (Grammar.behindColon bounds') :=
  behindColon hbounds

omit h in
theorem lifetimeParam (hends : f.Blind endsConstraint) :
    Carries f n never Grammar.lifetimeParam Grammar.lifetimeParam := by
  refine lifetime.bind fun _ => ?_
  exact (behindColon (separatedWhile (by decide) (Local.startsSign "+" (by decide)).blind hends
    lifetime)).bind fun _ => pure _ rfl

theorem typeParam : Carries f n never (Grammar.typeParam g) (Grammar.typeParam g') := by
  refine identifier.bind fun name => ?_
  refine (behindColon (separatedWhile (by decide) (Local.startsSign "+" (by decide)).blind
    Local.endsParam.blind (h.bound _ false true))).bind fun _ => ?_
  exact (skipSign "=" (by decide)).weak.bind fun _ => when (writtenType h true) (pure _ rfl)

theorem constParam : Carries f n never (Grammar.constParam g) (Grammar.constParam g') := by
  refine (word "const").bind fun _ => identifier.bind fun name => ?_
  refine (sign ":" (by decide)).bind fun _ => (writtenType h true).bind fun _ => ?_
  exact (skipSign "=" (by decide)).weak.bind fun _ => when (constant h).down (pure _ rfl)

theorem binder_param (hends : f.Blind endsConstraint) :
    Carries f n never (binder.param g) (binder.param g') := by
  refine (attributes h).down.bind fun _ => ?_
  refine (ahead Local.startsIdentifier.blind).bind fun _ => ite (typeParam h) ?_
  refine (ahead Local.startsLifetime.blind).bind fun _ => ite (lifetimeParam hends) ?_
  exact (ahead (Local.startsWord _).blind).bind fun _ => ite (constParam h) (lacks _ _)

theorem binder {eats : Unit → Bool} :
    Carries f (n + 1) eats (Grammar.binder g) (Grammar.binder g') := by
  refine (word "for").eat fun _ => (sign "<" (by decide)).bind fun _ => ?_
  refine inside (separatedUntil (by decide) (Local.startsSign ">" (by decide)).blind
    (binder_param h (endsConstraint_blind f))) fun _ => sign ">" (by decide)

theorem skipBinder : Carries f (n + 1) id (Grammar.skipBinder g) (Grammar.skipBinder g') :=
  (ahead (Local.startsWord _).blind).bind fun _ =>
    ite ((binder h).start fun _ => pure _ rfl) (pure _ rfl)

theorem genericParam (hends : f.Blind endsConstraint) :
    Carries f n never (Grammar.genericParam g) (Grammar.genericParam g') := by
  refine recorded ((attributes h).down.bind fun _ => ?_)
  refine (ahead Local.startsLifetime.blind).bind fun _ => ite (lifetimeParam hends) ?_
  refine (ahead Local.startsIdentifier.blind).bind fun _ => ite (typeParam h) ?_
  refine (ahead (Local.startsWord _).blind).bind fun _ => ite (constParam h) ?_
  exact (ahead (Local.startsWord _).blind).bind fun _ => ite (map anyWord) (lacks _ _)

theorem generics : Carries f (n + 1) never (Grammar.generics g) (Grammar.generics g') := by
  refine (ahead (Local.startsSign "<" (by decide)).blind).bind fun _ => ite (pure _ rfl) ?_
  have hentries : Carries f n never
      (Grammar.separatedUntil "," (startsSign ">") (Grammar.genericParam g) >>= fun entries => do
        Grammar.sign ">"
        return entries)
      (Grammar.separatedUntil "," (startsSign ">") (Grammar.genericParam g') >>= fun entries => do
        Grammar.sign ">"
        return entries) :=
    inside (separatedUntil (by decide) (Local.startsSign ">" (by decide)).blind
      (genericParam h (endsConstraint_blind f))) fun _ =>
        (sign ">" (by decide)).start fun _ => pure _ rfl
  refine (silently ((sign "<" (by decide)).eat fun _ => hentries)).bind fun _ => ?_
  exact when (write _) (pure _ rfl)

theorem condition : Carries .whole n never (Grammar.condition g) (Grammar.condition g') := by
  refine treesWhole fun trees => ite ?_ ?_
  . refine lifetime.bind fun _ => (sign ":" (by decide)).bind fun _ => ?_
    exact (separatedWhile (by decide) (Frame.blind_whole _) (Frame.blind_whole _) lifetime).bind
      fun _ => pure _ rfl
  . refine (skipBinder h).weak.down.bind fun _ => (writtenType h true).bind fun _ => ?_
    refine (sign ":" (by decide)).bind fun _ => ?_
    exact (separatedWhile (by decide) (Frame.blind_whole _) (Frame.blind_whole _)
      (h.bound _ false true)).bind fun _ => pure _ rfl

theorem conditions : Carries .whole n never (Grammar.conditions g) (Grammar.conditions g') := by
  refine (ahead (Frame.blind_whole _)).bind fun _ => ite (pure _ rfl) ?_
  have hconditions : Carries .whole n never
      (Grammar.separatedWhile "," endsConditions (Grammar.condition g))
      (Grammar.separatedWhile "," endsConditions (Grammar.condition g')) :=
    separatedWhile (by decide) (Frame.blind_whole _) (Frame.blind_whole _) (condition h)
  refine bind (recorded ?_) fun _ => when (write _) (pure _ rfl)
  exact (word "where").bind fun _ => (ahead (Frame.blind_whole _)).bind fun _ =>
    when (complain _ _) hconditions

end Carries

end Bindings.Native.Grammar
