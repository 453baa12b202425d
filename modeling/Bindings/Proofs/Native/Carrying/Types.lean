import Bindings.Proofs.Native.Carrying.Generics

/-!
This module contains that bounds and types are read in the same way in every place, if what is
nested in them is.
-/

namespace Bindings.Native.Grammar

namespace Carries

variable {f : Frame} {n : Nat} {g g' : Rules} (h : Rules.Alike n g g')

include h

/-! Bounds -/

theorem result (plus : Bool) :
    Carries f (n + 1) never (Grammar.result g plus) (Grammar.result g' plus) :=
  (skipSign "->" (by decide)).branch (map (writtenType h plus)) (pure _ rfl)

omit h in
theorem captured_name : Carries f n never captured.name captured.name := by
  refine (ahead Local.startsLifetime.blind).bind fun _ => ite (lifetime.bind fun _ => pure _ rfl) ?_
  refine (ahead (Local.startsIdentifier.or (Local.startsWord _)).blind).bind fun _ =>
    ite ?_ (lacks _ _)
  exact anyWord.bind fun _ => pure _ rfl

omit h in
theorem captured : Carries f n never Grammar.captured Grammar.captured := by
  refine (word "use").bind fun _ => (sign "<" (by decide)).bind fun _ => ?_
  refine inside (silently (separatedUntil (by decide) (Local.startsSign ">" (by decide)).blind ?_))
    fun entries => (write _).bind fun _ => sign ">" (by decide)
  refine (recorded captured_name).bind fun _ => ?_
  exact (ahead (endsConstraint_blind f)).bind fun _ => when (lacks _ _) (pure _ rfl)

omit h in
theorem constness (allowed : Bool) :
    Carries f n never (Grammar.constness allowed) (Grammar.constness allowed) := by
  suffices h : Carries f (n + 1) never (Grammar.constness allowed) (Grammar.constness allowed) from
    h.down
  refine here fun _ _ => (ahead (Local.startsGroup _).blind).bind fun _ => ite ?_ ?_
  . exact (group (word "const")).bind fun _ => when (complainAt _ _ _ _) (pure _ rfl)
  . refine (skipWord "const").weak.bind fun _ => ite ?_ (pure _ rfl)
    exact when (complainAt _ _ _ _) (pure _ rfl)

theorem traitPath : Carries f (n + 1) never (Grammar.traitPath g) (Grammar.traitPath g') := by
  refine (silently (path h false)).bind fun (global, segments) => trees fun trees trees' agree => ?_
  refine iteOf (agree _ ((Local.const _).and
    ((Local.startsGroup .paren).pastSign (by decide))).blind) ?_ (write _)
  refine (silently (skipSign "::" (by decide)).weak).bind fun _ => (write _).bind fun _ => ?_
  refine bind (group ?_) fun _ => (result h false).bind fun _ => pure _ rfl
  exact (terminated (writtenType h true)).bind fun _ => pure _ rfl

theorem traitBound (const? : Bool) :
    Carries f (n + 1) never (Grammar.traitBound g const?) (Grammar.traitBound g' const?) := by
  refine (skipBinder h).weak.bind fun quantified => (constness const?).bind fun isConst => ?_
  refine here fun _ _ => (skipSign "?" (by decide)).weak.bind fun relaxed => ?_
  refine join (skipBinder h).weak (pure _ rfl) fun quantified => (traitPath h).bind fun _ => ?_
  exact when (complainAt _ _ _ _) (pure _ rfl)

omit h in
theorem bound_eq (g : Rules) (capture const? : Bool) : Grammar.bound g capture const? = (do
    let before ← Grammar.trees
    if startsLifetime before then
      let _ ← Grammar.lifetime
      return .lifetime
    if startsWord "use" before then
      let position ← Grammar.here
      Grammar.captured
      if !capture then Grammar.complainAt position (.broken .captureBound)
      return .capture
    thenTaken
      (fun before => Grammar.recorded do
        if startsGroup .paren before then Grammar.group .paren (Grammar.traitBound g const?)
        else Grammar.traitBound g const?)
      fun taken (isConst, tokens) => do
        Grammar.write (if isConst then taken else tokens)
        return .trait) := by
  funext r
  show (if startsLifetime r.trees then _ else _ : Parser Bound) r
    = (if startsLifetime r.trees then _ else _ : Parser Bound) r
  split
  . rfl
  . split <;> rfl

theorem bound (capture const? : Bool) :
    Carries f (n + 1) never (Grammar.bound g capture const?) (Grammar.bound g' capture const?) := by
  rw [bound_eq, bound_eq]
  refine trees fun trees trees' agree => ?_
  refine iteOf (agree _ Local.startsLifetime.blind) (lifetime.bind fun _ => pure _ rfl) ?_
  refine iteOf (agree _ (Local.startsWord _).blind) ?_ ?_
  . refine here fun _ _ => captured.bind fun _ => when (complainAt _ _ _ _) (pure _ rfl)
  have hbound (trees trees' : List TokenTree) (agree : f.Agree trees trees') :
      Carries f (n + 1) never
        (Grammar.recorded do
          if startsGroup .paren trees then Grammar.group .paren (Grammar.traitBound g const?)
          else Grammar.traitBound g const?)
        (Grammar.recorded do
          if startsGroup .paren trees' then Grammar.group .paren (Grammar.traitBound g' const?)
          else Grammar.traitBound g' const?) :=
    recorded <| iteOf (agree _ (Local.startsGroup _).blind) (group (traitBound h const?).down)
      (traitBound h const?)
  exact since hbound fun taken a => (write _).bind fun _ => pure _ rfl

theorem moreBounds (capture const? : Bool) : Carries f (n + 1) never
    (Grammar.moreBounds g capture const?) (Grammar.moreBounds g' capture const?) := by
  refine (skipSign "+" (by decide)).weak.bind fun _ => ite ?_ (pure _ rfl)
  exact (separatedWhile (by decide) (Local.startsSign "+" (by decide)).blind
    (Local.startsBound const?).not.blind (bound h capture const?)).bind fun _ => pure _ rfl

theorem bounds (plus capture const? : Bool) : Carries f (n + 1) never
    (Grammar.bounds g plus capture const?) (Grammar.bounds g' plus capture const?) := by
  refine (bound h capture const?).bind fun _ => ?_
  exact join (moreBounds h capture const?) (pure _ rfl) fun _ => pure _ rfl

/-! Types -/

omit h in
theorem skipConvention : Carries f n never Grammar.skipConvention Grammar.skipConvention :=
  (skipWord "extern").weak.bind fun _ => ite
    ((ahead Local.startsString.blind).bind fun _ => ite literal (pure _ rfl)) (pure _ rfl)

theorem bareInput (first : Bool) :
    Carries .whole n never (Grammar.bareInput g first) (Grammar.bareInput g' first) := by
  refine treesWhole fun trees => ite (verbatim ?_) ?_
  . refine (word "mut").bind fun _ => (ahead (Frame.blind_whole _)).bind fun _ => ?_
    refine (word "self").bind fun _ => ite ?_ (pure _ rfl)
    exact (sign ":" (by decide)).bind fun _ => (h.type _ true).bind fun _ => pure _ rfl
  . refine ite ?_ ((writtenType h true).bind fun _ => pure _ rfl)
    refine anyWord.bind fun _ => (sign ":" (by decide)).bind fun _ => ?_
    exact (writtenType h true).bind fun _ => pure _ rfl

omit h in
theorem variadicInput {eats : Unit → Bool} :
    Carries .whole n eats Grammar.variadicInput Grammar.variadicInput := by
  have hsign : Carries .whole n always
      (Grammar.sign "..." >>= fun _ => Grammar.skipSign "," >>= fun _ => Pure.pure ())
      (Grammar.sign "..." >>= fun _ => Grammar.skipSign "," >>= fun _ => Pure.pure ()) :=
    (sign "..." (by decide)).start fun _ =>
      (skipSignOf "," (by decide) (Frame.blind_whole _)).weak.bind fun _ => pure _ rfl
  refine (ahead (Frame.blind_whole _)).bind fun _ => ite ?_ (hsign.weaken fun _ => Bool.toNat_le _)
  exact anyWord.start fun _ => (sign ":" (by decide)).bind fun _ => hsign.weak

theorem bareInputs : Carries .whole n never (Grammar.bareInputs g) (Grammar.bareInputs g') := by
  refine repeating
    (fun first => (ahead (Frame.blind_whole _)).bind fun _ => ite (pure _ rfl) ?_) true
  refine (attributes h).down.bind fun _ => (ahead (Frame.blind_whole _)).bind fun _ => ite ?_ ?_
  . exact variadicInput.bind fun _ => pure _ rfl
  . refine (bareInput h first).bind fun _ => (ahead (Frame.blind_whole _)).bind fun _ =>
      ite (pure _ rfl) ?_
    exact (sign "," (by decide)).start fun _ => pure _ rfl

theorem bareFunction :
    Carries f (n + 1) never (Grammar.bareFunction g) (Grammar.bareFunction g') := by
  refine (skipWord "unsafe").weak.bind fun _ => skipConvention.bind fun _ =>
    (word "fn").bind fun _ => ?_
  exact (group (bareInputs h)).bind fun _ => (result h false).bind fun _ => pure _ rfl

theorem objectBounds (plus : Bool) (position position' : Position) : Carries f (n + 1) never
    (Grammar.objectBounds g plus position) (Grammar.objectBounds g' plus position') :=
  (bounds h plus false false).bind fun _ => ite (complainAt _ _ _ _) (pure _ rfl)

omit h in
theorem objectType_eq (g : Rules) (plus : Bool) : Grammar.objectType g plus =
    thenTaken
      (fun _ => do
        let position ← Grammar.here
        Grammar.recorded do
          Grammar.word "dyn"
          let starred ← Grammar.skipSign "*"
          Grammar.objectBounds g plus position
          return starred)
      fun taken (starred, tokens) =>
        if starred then return .refused .other taken else return .refused .traitObject tokens := by
  funext r
  show Except.bind (Grammar.recorded _ r) _ = Except.bind (Grammar.recorded _ r) _
  congr 1
  funext ((starred, tokens), s)
  cases starred <;> rfl

theorem objectType (plus : Bool) :
    Carries f (n + 1) never (Grammar.objectType g plus) (Grammar.objectType g' plus) := by
  have hobject : Carries f (n + 1) never
      (do
        let position ← Grammar.here
        Grammar.recorded do
          Grammar.word "dyn"
          let starred ← Grammar.skipSign "*"
          Grammar.objectBounds g plus position
          return starred)
      (do
        let position ← Grammar.here
        Grammar.recorded do
          Grammar.word "dyn"
          let starred ← Grammar.skipSign "*"
          Grammar.objectBounds g' plus position
          return starred) :=
    here fun _ _ => recorded <| (word "dyn").bind fun _ => (skipSign "*" (by decide)).weak.bind
      fun _ => (objectBounds h plus _ _).bind fun _ => pure _ rfl
  rw [objectType_eq, objectType_eq]
  exact since (fun _ _ _ => hobject) fun taken _ => ite (pure _ rfl) (pure _ rfl)

theorem implType (plus : Bool) :
    Carries f (n + 1) never (Grammar.implType g plus) (Grammar.implType g' plus) := by
  refine here fun _ _ => (word "impl").bind fun _ => (bounds h plus true true).bind fun _ => ?_
  exact ite (complainAt _ _ _ _) (pure _ rfl)

theorem namedType (plus : Bool) :
    Carries f (n + 1) never (Grammar.namedType g plus) (Grammar.namedType g' plus) := by
  refine (pathType h false).bind fun path => ?_
  refine (ahead (Local.startsMacroCall path).blind).bind fun _ => ite ?_ ?_
  . exact (tokensOf macroArguments).bind fun _ => pure _ rfl
  . split
    . refine (ahead (Local.startsSign "+" (by decide)).blind).bind fun _ => ite ?_ (pure _ rfl)
      exact (tokensOf (moreBounds h false false)).bind fun _ => pure _ rfl
    . exact pure _ rfl

theorem quantifiedType (plus : Bool) :
    Carries f (n + 1) never (Grammar.quantifiedType g plus) (Grammar.quantifiedType g' plus) := by
  refine (tokensOf (binder h)).bind fun quantifier => ?_
  refine (ahead Local.startsBareFunction.blind).bind fun _ => ite ?_ ?_
  . exact (tokensOf (bareFunction h)).bind fun _ => pure _ rfl
  . refine (ahead (Local.startsIdentifier.or (Local.startsAnyWord _)).blind).bind fun _ =>
      when (lacks _ _) ?_
    refine (pathType h false).bind fun path => ?_
    refine (ahead (Local.startsMacroCall path).blind).bind fun _ => ite ?_ ?_
    . exact (tokensOf macroArguments).bind fun _ => pure _ rfl
    . exact join (tokensOf (moreBounds h false false)) (pure _ rfl) fun _ => pure _ rfl

theorem furtherBounds :
    Carries f (n + 1) never (Grammar.furtherBounds g) (Grammar.furtherBounds g') :=
  whileAhead (Local.startsSign "+" (by decide)).blind <|
    (sign "+" (by decide)).start fun _ => bound h false false

theorem elements : Carries .whole n never (Grammar.elements g) (Grammar.elements g') := by
  refine (ahead (Frame.blind_whole _)).bind fun _ => ite (pure _ rfl) ?_
  refine (h.type _ true).bind fun _ => (skipSignOf "," (by decide) (Frame.blind_whole _)).weak.bind
    fun _ => ite ?_ (pure _ rfl)
  exact (terminated (h.type _ true)).bind fun _ => pure _ rfl

theorem parenthesizedType (plus : Bool) : Carries f (n + 1) never
    (Grammar.parenthesizedType g plus) (Grammar.parenthesizedType g' plus) := by
  refine trees fun trees trees' agree => ?_
  refine iteOf (agree _ (Local.inBody startsLifetime).blind) ?_ ?_
  . refine bind (group ?_) fun _ => pure _ rfl
    exact here fun _ _ => tokensOf (objectBounds h true _ _).down
  refine iteOf (agree _ (Local.inBody (startsSign "?")).blind) ?_ ?_
  . refine bind (tokensOf (group (traitBound h false).down)) fun _ => ?_
    exact (tokensOf (furtherBounds h)).weak.bind fun _ => pure _ rfl
  refine bind (group (elements h)) fun entries => ?_
  split
  . split
    . refine (ahead (Local.startsSign "+" (by decide)).blind).bind fun _ => ite ?_ (pure _ rfl)
      exact (tokensOf (furtherBounds h)).weak.bind fun _ => pure _ rfl
    . exact pure _ rfl
  . exact pure _ rfl

theorem sequenceType {eats : TypeExpr → Bool} :
    Carries f (n + 1) eats (Grammar.sequenceType g) (Grammar.sequenceType g') := by
  refine group <| (h.type _ true).bind fun _ => (skipSign ";" (by decide)).weak.bind fun _ =>
    ite ?_ ?_
  . exact (tokensOf (h.expression _ true)).weak.bind fun _ => pure _ rfl
  . exact pure _ rfl

theorem referenceType :
    Carries f (n + 1) never (Grammar.referenceType g) (Grammar.referenceType g') := by
  refine (sign "&" (by decide)).eat fun _ => skipLifetime.bind fun _ => ?_
  exact (skipWord "mut").weak.bind fun _ => (h.type f false).bind fun _ => pure _ rfl

theorem pointerType :
    Carries f (n + 1) never (Grammar.pointerType g) (Grammar.pointerType g') := by
  have htarget : Carries f n never (g.writtenType false >>= fun _ => Pure.pure ())
      (g'.writtenType false >>= fun _ => Pure.pure ()) :=
    (writtenType h false).bind fun _ => pure _ rfl
  exact (sign "*" (by decide)).eat fun _ => (ahead (Local.startsAnyWord _).blind).bind fun _ =>
    ite (anyWord.bind fun _ => htarget) ((lacks _ _).bind fun _ => htarget)

theorem type (plus : Bool) :
    Carries f (n + 1) never (Grammar.type g plus) (Grammar.type g' plus) := by
  refine trees fun trees trees' agree => ?_
  refine iteOf (agree _ (Local.startsWord _).blind) (quantifiedType h plus) ?_
  refine iteOf (agree _ (Local.startsGroup _).blind) (parenthesizedType h plus) ?_
  refine iteOf (agree _ Local.startsBareFunction.blind) (map (tokensOf (bareFunction h))) ?_
  refine iteOf (agree _ Local.startsPath.blind) (namedType h plus) ?_
  refine iteOf (agree _ (Local.startsWord _).blind) (objectType h plus) ?_
  refine iteOf (agree _ (Local.startsGroup _).blind) (sequenceType h) ?_
  refine iteOf (agree _ (Local.startsSign "*" (by decide)).blind) (map (tokensOf (pointerType h)))
    ?_
  refine iteOf (agree _ (Local.startsSign "&" (by decide)).blind) (referenceType h) ?_
  refine iteOf (agree _ (Local.startsSign "!" (by decide)).blind)
    (map (tokensOf (sign "!" (by decide)))) ?_
  refine iteOf (agree _ (Local.startsWord _).blind) (map (tokensOf (implType h plus))) ?_
  refine iteOf (agree _ (Local.startsWord _).blind) (map (tokensOf (word "_"))) ?_
  refine iteOf (agree _ Local.startsLifetime.blind) ?_ (lacks _ _)
  exact here fun _ _ => map (tokensOf (objectBounds h true _ _))

end Carries

end Bindings.Native.Grammar
