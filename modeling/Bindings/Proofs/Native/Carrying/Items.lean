import Bindings.Proofs.Native.Carrying.Expressions

/-!
This module contains that items and statements are read in the same way in every place, if what is
nested in them is. Both only stand in brackets.
-/

namespace Bindings.Native.Grammar

namespace Carries

variable {n : Nat} {g g' : Rules}

/-! Fields and variants -/

theorem visibility : Carries .whole n never Grammar.visibility Grammar.visibility := by
  suffices h : Carries .whole (n + 1) never Grammar.visibility Grammar.visibility from h.down
  refine (skipWord "pub").weak.bind fun _ => ite (pure _ rfl) ?_
  refine (aheadWhole _).bind fun _ => ite (pure _ rfl) ?_
  refine bind (group ?_) fun _ => pure _ rfl
  refine (skipWord "in").weak.bind fun _ => ite ?_ ?_
  . exact plainPath.bind fun _ => pure _ rfl
  . exact anyWord.bind fun _ => pure _ rfl

variable (h : Rules.Alike n g g')

include h

theorem namedField :
    Carries .whole (n + 1) never (Grammar.namedField g) (Grammar.namedField g') := by
  refine (attributes h).bind fun _ => visibility.bind fun _ => (aheadWhole _).bind fun _ => ?_
  refine eatEither anyWord identifier fun name => (sign ":" (by decide)).bind fun _ => ?_
  refine (aheadWhole _).bind fun _ => ite ?_ ((writtenType h true).bind fun _ => pure _ rfl)
  refine treesWhole fun before => bind (verbatim ?_) fun _ =>
    (takenSinceWhole before).bind fun _ => pure _ rfl
  exact anyWord.bind fun _ => (down (group h.fields)).bind fun _ => pure _ rfl

theorem tupleField : Carries .whole n never (Grammar.tupleField g) (Grammar.tupleField g') :=
  (attributes h).down.bind fun _ => visibility.bind fun _ =>
    (writtenType h true).bind fun _ => pure _ rfl

theorem namedFields :
    Carries .whole (n + 1) never (Grammar.namedFields g) (Grammar.namedFields g') :=
  (terminated (namedField h)).bind fun _ => pure _ rfl

theorem variantFields :
    Carries .whole n never (Grammar.variantFields g) (Grammar.variantFields g') := by
  refine treesWhole fun trees => ite ?_ (ite ?_ (pure _ rfl))
  . exact (down (group (namedFields h).down)).bind fun _ => pure _ rfl
  . exact (down (group (terminated (tupleField h)))).bind fun _ => pure _ rfl

theorem variantItem : Carries .whole n never (Grammar.variantItem g) (Grammar.variantItem g') := by
  refine (attributes h).down.bind fun _ => (silently visibility).bind fun _ => ?_
  refine identifier.bind fun _ => (variantFields h).bind fun _ => ?_
  refine (skipSign "=" (by decide)).weak.bind fun _ => ite ?_ (pure _ rfl)
  exact (h.expression _ true).weak.bind fun _ => pure _ rfl

theorem structFields :
    Carries .whole n never (Grammar.structFields g) (Grammar.structFields g') := by
  refine (conditions h).bind fun _ => treesWhole fun trees => ite ?_ (ite ?_ (ite ?_ (lacks _ _)))
  . refine (down (group (terminated (tupleField h)))).bind fun _ => (conditions h).bind fun _ => ?_
    refine (aheadWhole _).bind fun _ => when (lacks _ _) ?_
    exact (sign ";" (by decide)).bind fun _ => pure _ rfl
  . exact (down (group (namedFields h).down)).bind fun _ => pure _ rfl
  . exact (sign ";" (by decide)).bind fun _ => pure _ rfl

/-! Functions -/

theorem receiver : Carries .whole n never (Grammar.receiver g) (Grammar.receiver g') := by
  refine (skipSign "&" (by decide)).weak.bind fun _ => when skipLifetime ?_
  refine (skipWord "mut").weak.bind fun _ => hereBefore fun position =>
    (word "self").start fun _ => ?_
  refine (skipSign ":" (by decide)).weak.bind fun _ => ite ?_ (pure _ rfl)
  exact (writtenType h true).bind fun _ => pure _ rfl

theorem typedInput : Carries .whole n never (Grammar.typedInput g) (Grammar.typedInput g') := by
  refine (aheadWhole _).bind fun _ => ite ?_ ?_
  . exact (write _).bind fun _ => (writtenType h true).bind fun _ => pure _ rfl
  refine (pattern h).down.bind fun bound => (sign ":" (by decide)).bind fun _ => ?_
  refine (skipSign "..." (by decide)).weak.bind fun _ => ite (pure _ rfl) ?_
  split
  . exact (writtenType h true).bind fun _ => pure _ rfl
  . exact (writtenType h true).bind fun _ => pure _ rfl

theorem inputs : Carries .whole n never (Grammar.inputs g) (Grammar.inputs g') := by
  have hfinish (inputs : List InputItem) : Carries .whole n Sum.isLeft
      (Grammar.inputs.finish inputs) (Grammar.inputs.finish inputs) :=
    (aheadWhole _).bind fun _ => when (sign "," (by decide)) (pure _ rfl)
  have hproceed (input : InputItem) (inputs : List InputItem) : Carries .whole n Sum.isLeft
      (Grammar.inputs.proceed input inputs) (Grammar.inputs.proceed input inputs) :=
    (aheadWhole _).bind fun _ => ite (pure _ rfl) ((sign "," (by decide)).start fun _ => pure _ rfl)
  refine repeating (fun inputs => (aheadWhole _).bind fun _ => ite (pure _ rfl) ?_) []
  refine (attributes h).down.bind fun _ => (skipSign "..." (by decide)).weak.bind fun _ =>
    ite (hfinish inputs) ?_
  refine (aheadWhole _).bind fun _ => ite ?_ ?_
  . refine (receiver h).bind fun position => when (complainAt _ _ _ _) ?_
    exact when (complainAt _ _ _ _) (hproceed _ inputs)
  . refine (typedInput h).bind fun input => ?_
    cases input with
    | none => exact hfinish inputs
    | some input => exact hproceed input inputs

theorem signature (attributes : List Attribute) (visibility : Visibility) (safe : Bool)
    {eats : FunctionItem → Bool} : Carries .whole (n + 1) eats
    (Grammar.signature g attributes visibility safe)
    (Grammar.signature g' attributes visibility safe) := by
  refine (skipWord "const").weak.bind fun _ => (skipWord "async").weak.bind fun _ => ?_
  refine (skipWord "unsafe").weak.bind fun _ => when (skipWord "safe").weak ?_
  refine skipConvention.bind fun _ => (word "fn").eat fun _ => identifier.bind fun _ => ?_
  refine (generics h).down.bind fun _ => (down (group (inputs h))).bind fun _ => ?_
  exact (result h true).down.bind fun _ => (conditions h).bind fun _ => pure _ rfl

theorem functionBody :
    Carries .whole (n + 1) never (Grammar.functionBody g) (Grammar.functionBody g') :=
  (skipSign ";" (by decide)).weak.bind fun _ => ite (pure _ rfl) (map (attributedBlock h))

/-! Items in traits, implementations and foreign blocks -/

theorem constantItem {eats : Unit → Bool} :
    Carries .whole (n + 1) eats (Grammar.constantItem g) (Grammar.constantItem g') := by
  refine (word "const").eat fun _ => (aheadWhole _).bind fun _ => ?_
  have hrest : Carries .whole n never
      (do
        let _ ← Grammar.generics g
        Grammar.sign ":"
        let _ ← g.writtenType true
        if ← Grammar.skipSign "=" then
          let _ ← g.expression true
        let _ ← Grammar.conditions g
        Grammar.sign ";")
      (do
        let _ ← Grammar.generics g'
        Grammar.sign ":"
        let _ ← g'.writtenType true
        if ← Grammar.skipSign "=" then
          let _ ← g'.expression true
        let _ ← Grammar.conditions g'
        Grammar.sign ";") := by
    refine (generics h).down.bind fun _ => (sign ":" (by decide)).bind fun _ => ?_
    refine (writtenType h true).bind fun _ => (skipSign "=" (by decide)).weak.bind fun _ => ?_
    refine when (h.expression _ true).weak ?_
    exact (conditions h).bind fun _ => sign ";" (by decide)
  exact ite (anyWord.bind fun _ => hrest) (fails fun _ _ h => nomatch h)

theorem staticItem (untyped : Bool) {eats : Unit → Bool} :
    Carries .whole (n + 1) eats (Grammar.staticItem g untyped) (Grammar.staticItem g' untyped) := by
  have hvalue : Carries .whole n never
      (do
        if ← Grammar.skipSign "=" then
          let _ ← g.expression true
        Grammar.sign ";")
      (do
        if ← Grammar.skipSign "=" then
          let _ ← g'.expression true
        Grammar.sign ";") :=
    (skipSign "=" (by decide)).weak.bind fun _ =>
      when (h.expression _ true).weak (sign ";" (by decide))
  refine (word "static").eat fun _ => (skipWord "mut").weak.bind fun _ =>
    identifier.bind fun _ => ?_
  refine (aheadWhole _).bind fun _ => ite ?_ hvalue
  exact (sign ":" (by decide)).bind fun _ => (writtenType h true).bind fun _ => hvalue

theorem typeDefinition (before behind : Bool)
    {eats : String × List GenericParam × Option TypeExpr → Bool} : Carries .whole (n + 1) eats
    (Grammar.typeDefinition g before behind) (Grammar.typeDefinition g' before behind) := by
  refine (word "type").eat fun _ => identifier.bind fun name => (generics h).down.bind fun _ => ?_
  refine (aheadWhole _).bind fun bounded => (behindColonWhole (separatedUntil (by decide)
    (Frame.blind_whole _) (bound h false true).down)).bind fun _ => ?_
  refine join (conditions h) (pure _ rfl) fun conditional => ?_
  refine (skipSign "=" (by decide)).weak.bind fun _ => join (map (writtenType h true)) (pure _ rfl)
    fun target => ?_
  exact when (conditions h) ((sign ";" (by decide)).bind fun _ => pure _ rfl)

omit h in
theorem macroItem (named : Bool) {eats : Unit → Bool} :
    Carries .whole n eats (Grammar.macroItem named) (Grammar.macroItem named) := by
  refine plainPath.start fun _ => (sign "!" (by decide)).bind fun _ =>
    (aheadWhole _).bind fun _ => ?_
  refine when anyWord (anyGroup.bind fun _ => ite (sign ";" (by decide)) (pure _ rfl))

theorem functionItem (safe : Bool) {eats : Unit → Bool} :
    Carries .whole (n + 1) eats (Grammar.functionItem g safe) (Grammar.functionItem g' safe) :=
  (signature h [] .inherited safe).start fun _ => (functionBody h).bind fun _ => pure _ rfl

theorem associatedItem (inTrait : Bool) {eats : Unit → Bool} : Carries .whole (n + 1) eats
    (Grammar.associatedItem g inTrait) (Grammar.associatedItem g' inTrait) := by
  refine (attributes h).bind fun _ => visibility.bind fun visibility =>
    (aheadWhole _).bind fun _ => ?_
  refine join (pure _ rfl) (skipWord "default").weak fun isDefault => treesWhole fun trees => ?_
  refine ite (functionItem h false) (ite (constantItem h) (ite ?_ (ite (macroItem _) (lacks _ _))))
  exact (typeDefinition h false true).start fun _ => pure _ rfl

theorem foreignItem {eats : Unit → Bool} :
    Carries .whole (n + 1) eats (Grammar.foreignItem g) (Grammar.foreignItem g') := by
  refine (attributes h).bind fun _ => visibility.bind fun visibility => treesWhole fun trees => ?_
  refine ite (functionItem h true) (ite ?_ (ite ?_ (ite (macroItem _) (lacks _ _))))
  . exact when anyWord (staticItem h false)
  . exact (typeDefinition h true true).start fun _ => pure _ rfl

theorem itemsBlock {α : Type} {p p' : Parser α} (hp : Carries .whole n always p p')
    {eats : List α → Bool} : Carries .whole (n + 1) eats (Grammar.itemsBlock g p)
      (Grammar.itemsBlock g' p') :=
  group ((innerAttributes h).bind fun _ => untilEnd hp)

/-! Items -/

omit h in
theorem skipAlias (missing : Expectation) :
    Carries .whole n never (Grammar.skipAlias missing) (Grammar.skipAlias missing) := by
  refine (skipWord "as").weak.bind fun _ => ite ?_ (pure _ rfl)
  refine (aheadWhole _).bind fun _ => ite (anyWord.bind fun _ => pure _ rfl) ?_
  exact ite (identifier.bind fun _ => pure _ rfl) (lacks _ _)

theorem importTree (root : Bool) :
    Carries .whole (n + 1) never (Grammar.importTree g root) (Grammar.importTree g' root) := by
  refine treesWhole fun trees => ite ?_ (ite (sign "*" (by decide)) (ite (group ?_) (lacks _ _)))
  . exact anyWord.eat fun _ => (skipSign "::" (by decide)).weak.bind fun _ =>
      ite (h.importTree false) (skipAlias _)
  . refine (terminated ?_).bind fun _ => pure _ rfl
    exact join (skipSign "::" (by decide)).weak (pure _ rfl) fun rooted => h.importTree _

theorem importItem {eats : Unit → Bool} :
    Carries .whole (n + 1) eats (Grammar.importItem g) (Grammar.importItem g') :=
  (word "use").eat fun _ => (skipSign "::" (by decide)).weak.bind fun global =>
    (importTree h _).down.bind fun _ => sign ";" (by decide)

omit h in
theorem externalCrate {eats : Unit → Bool} :
    Carries .whole n eats Grammar.externalCrate Grammar.externalCrate := by
  refine (word "extern").start fun _ => (word "crate").bind fun _ =>
    (skipWord "self").weak.bind fun _ => ?_
  exact when identifier ((skipAlias _).bind fun _ => sign ";" (by decide))

theorem foreignBlock {eats : Unit → Bool} :
    Carries .whole (n + 1) eats (Grammar.foreignBlock g) (Grammar.foreignBlock g') := by
  refine (skipWord "unsafe").weak.bind fun _ => (word "extern").start fun _ =>
    (aheadWhole _).bind fun _ => ?_
  refine when literal ((itemsBlock h ?_).bind fun _ => pure _ rfl)
  exact (foreignItem h).lower (Nat.le_succ n)

theorem externItem (visibility : Visibility) {eats : Unit → Bool} : Carries .whole (n + 1) eats
    (Grammar.externItem g visibility) (Grammar.externItem g' visibility) :=
  treesWhole fun _ => ite externalCrate (ite (foreignBlock h) (lacks _ _))

theorem traitBody : Carries .whole n never (Grammar.traitBody g) (Grammar.traitBody g') := by
  refine (behindColonWhole (separatedUntil (by decide) (Frame.blind_whole _)
    (bound h false true).down)).bind fun _ => (conditions h).bind fun _ => ?_
  refine (down (itemsBlock h ?_)).bind fun _ => pure _ rfl
  exact (associatedItem h true).lower (Nat.le_succ n)

theorem traitAlias : Carries .whole n never (Grammar.traitAlias g) (Grammar.traitAlias g') :=
  (sign "=" (by decide)).bind fun _ => (separatedUntil (by decide) (Frame.blind_whole _)
    (bound h false false).down).bind fun _ => (conditions h).bind fun _ => sign ";" (by decide)

theorem traitItem {eats : Unit → Bool} :
    Carries .whole (n + 1) eats (Grammar.traitItem g) (Grammar.traitItem g') := by
  refine (aheadWhole _).bind fun plain => (skipWord "unsafe").weak.bind fun _ => ?_
  refine (skipWord "auto").weak.bind fun _ => (word "trait").eat fun _ =>
    identifier.bind fun _ => ?_
  refine (generics h).down.bind fun _ => treesWhole fun trees => ?_
  exact ite (traitAlias h) (ite (traitBody h) (lacks _ _))

theorem implementation {eats : Unit → Bool} :
    Carries .whole (n + 1) eats (Grammar.implementation g) (Grammar.implementation g') := by
  have hitems : Carries .whole n always (Grammar.associatedItem g false)
      (Grammar.associatedItem g' false) :=
    (associatedItem h false).lower (Nat.le_succ n)
  have hrest : Carries .whole n never
      (Grammar.conditions g >>= fun _ =>
        Grammar.itemsBlock g (Grammar.associatedItem g false) >>= fun _ => Pure.pure ())
      (Grammar.conditions g' >>= fun _ =>
        Grammar.itemsBlock g' (Grammar.associatedItem g' false) >>= fun _ => Pure.pure ()) :=
    (conditions h).bind fun _ => (down (itemsBlock h hitems)).bind fun _ => pure _ rfl
  refine (skipWord "default").weak.bind fun _ => (skipWord "unsafe").weak.bind fun _ => ?_
  refine (word "impl").eat fun _ => (aheadWhole _).bind fun _ => when (generics h).down ?_
  refine (aheadWhole _).bind fun _ => when (sign "?" (by decide)) ?_
  refine (skipWord "const").weak.bind fun _ => here fun _ _ =>
    (aheadWhole _).bind fun negative => ?_
  refine when (sign "!" (by decide)) ((writtenType h true).bind fun _ => ?_)
  refine (skipWord "for").weak.bind fun _ => ite ((writtenType h true).bind fun _ => hrest)
    (when (complainAt _ _ _ _) hrest)

omit h in
theorem macroDefinition {eats : Unit → Bool} :
    Carries .whole n eats Grammar.macroDefinition Grammar.macroDefinition := by
  suffices h : Carries .whole (n + 1) eats Grammar.macroDefinition Grammar.macroDefinition from
    h.lower (Nat.le_succ n)
  refine (word "macro").start fun _ => identifier.bind fun _ =>
    (aheadWhole _).bind fun matched => ?_
  refine when (group everything) ((aheadWhole _).bind fun _ => when (lacks _ _) (group everything))

theorem unionItem {eats : Unit → Bool} :
    Carries .whole (n + 1) eats (Grammar.unionItem g) (Grammar.unionItem g') :=
  (word "union").eat fun _ => identifier.bind fun _ => (generics h).down.bind fun _ =>
    (conditions h).bind fun _ => (down (group (namedFields h).down)).bind fun _ => pure _ rfl

theorem structItem (attributes : List Attribute) (visibility : Visibility) {eats : Item → Bool} :
    Carries .whole (n + 1) eats (Grammar.structItem g attributes visibility)
      (Grammar.structItem g' attributes visibility) :=
  (word "struct").eat fun _ => identifier.bind fun _ => (generics h).down.bind fun _ =>
    (structFields h).bind fun _ => pure _ rfl

theorem enumItem (attributes : List Attribute) (visibility : Visibility) {eats : Item → Bool} :
    Carries .whole (n + 1) eats (Grammar.enumItem g attributes visibility)
      (Grammar.enumItem g' attributes visibility) :=
  (word "enum").eat fun _ => identifier.bind fun _ => (generics h).down.bind fun _ =>
    (conditions h).bind fun _ => (down (group (terminated (variantItem h)))).bind fun _ =>
      pure _ rfl

theorem aliasItem (attributes : List Attribute) (visibility : Visibility) {eats : Item → Bool} :
    Carries .whole (n + 1) eats (Grammar.aliasItem g attributes visibility)
      (Grammar.aliasItem g' attributes visibility) := by
  refine (typeDefinition h true false).start fun (name, generics, target) => ?_
  cases target <;> exact pure _ rfl

theorem freeFunction (attributes : List Attribute) (visibility : Visibility) {eats : Item → Bool} :
    Carries .whole (n + 1) eats (Grammar.freeFunction g attributes visibility)
      (Grammar.freeFunction g' attributes visibility) := by
  refine (signature h attributes visibility false).start fun function => ?_
  refine (functionBody h).bind fun body => ?_
  cases body <;> exact pure _ rfl

theorem moduleItem {eats : Item → Bool} :
    Carries .whole (n + 1) eats (Grammar.moduleItem g) (Grammar.moduleItem g') := by
  refine (skipWord "unsafe").weak.bind fun _ => (word "mod").start fun _ => ?_
  refine (skipWord "try").weak.bind fun _ => when identifier (treesWhole fun trees => ?_)
  refine ite ((sign ";" (by decide)).bind fun _ => pure _ rfl) (ite ?_ (lacks _ _))
  exact (itemsBlock h h.item).bind fun _ => pure _ rfl

theorem unsafeItem (visibility : Visibility) {eats : Item → Bool} : Carries .whole (n + 1) eats
    (Grammar.unsafeItem g visibility) (Grammar.unsafeItem g' visibility) := by
  refine treesWhole fun trees => ite (moduleItem h) (ite ?_ (ite ?_ (ite ?_ ?_)))
  . exact (traitItem h).start fun _ => pure _ rfl
  . exact (implementation h).start fun _ => pure _ rfl
  . exact (foreignBlock h).start fun _ => pure _ rfl
  . exact (word "unsafe").start fun _ => (lacks _ _).bind fun _ => pure _ rfl

theorem otherItem (visibility : Visibility) {eats : Unit → Bool} : Carries .whole (n + 1) eats
    (Grammar.otherItem g visibility) (Grammar.otherItem g' visibility) := by
  refine treesWhole fun trees => ite (externItem h visibility) (ite (importItem h)
    (ite (staticItem h true) (ite (constantItem h) (ite (unionItem h) (ite (traitItem h)
    (ite (implementation h) (ite macroDefinition (ite (macroItem true) (lacks _ _)))))))))

theorem itemWith (attributes : List Attribute) {eats : Item → Bool} : Carries .whole (n + 1) eats
    (Grammar.itemWith g attributes) (Grammar.itemWith g' attributes) := by
  refine visibility.bind fun visibility => treesWhole fun trees => ?_
  refine ite (freeFunction h attributes visibility) (ite (unsafeItem h visibility)
    (ite (moduleItem h) (ite (aliasItem h attributes visibility)
    (ite (structItem h attributes visibility) (ite (enumItem h attributes visibility) ?_)))))
  exact (otherItem h visibility).start fun _ => pure _ rfl

theorem item : Carries .whole (n + 1) always (Grammar.item g) (Grammar.item g') :=
  (attributes h).bind fun attributes => itemWith h attributes

/-! Statements -/

def endsBrace : List TokenTree → Bool
  | .group .brace _ _ _ :: _ => true
  | _ => false

omit h in
theorem endsWithBrace_eq (r : Reader) :
    Grammar.endsWithBrace r = .ok (endsBrace r.written, r) := by
  obtain ⟨_, _, _, _, _, written⟩ := r
  match written with
  | [] | .word _ _ :: _ | .lifetime _ _ :: _ | .punct _ _ _ :: _ | .literal _ _ _ :: _
  | .group .brace _ _ _ :: _ | .group .paren _ _ _ :: _ | .group .bracket _ _ _ :: _ => rfl

omit h in
theorem endsWithBrace : Carries .whole n never Grammar.endsWithBrace Grammar.endsWithBrace where
  shrinks {r _ _} hp := by
    obtain ⟨rfl, rfl⟩ := Prod.mk.inj (Except.ok.inj ((endsWithBrace_eq r).symm.trans hp))
    exact Nat.le_refl _
  settled {r _ _} hp hnone := by
    obtain ⟨rfl, rfl⟩ := Prod.mk.inj (Except.ok.inj ((endsWithBrace_eq r).symm.trans hp))
    exact hnone
  run {row tokens r r' _ _} sees _ hp _ := by
    obtain ⟨rfl, rfl⟩ := Prod.mk.inj (Except.ok.inj ((endsWithBrace_eq r).symm.trans hp))
    refine ⟨row, tokens, r', ?_, sees, List.suffix_rfl⟩
    rw [endsWithBrace_eq, sees.written, sees.written']
    rfl

theorem letStatement {eats : Unit → Bool} :
    Carries .whole (n + 1) eats (Grammar.letStatement g) (Grammar.letStatement g') := by
  refine (word "let").eat fun _ => (pattern h).down.bind fun _ => ?_
  refine (skipSign ":" (by decide)).weak.bind fun _ => when (writtenType h true) ?_
  refine (skipSign "=" (by decide)).weak.bind fun _ => ite ?_ (sign ";" (by decide))
  refine (h.expression _ true).weak.bind fun _ => endsWithBrace.bind fun _ => ?_
  refine ite ?_ (sign ";" (by decide))
  exact (skipWord "else").weak.bind fun _ => when (block h).down (sign ";" (by decide))

theorem statement {eats : Bool → Bool} :
    Carries .whole (n + 1) eats (Grammar.statement g) (Grammar.statement g') := by
  refine (attributes h).bind fun attributes => treesWhole fun trees => ite ?_ (ite ?_ (ite ?_ ?_))
  . exact plainPath.start fun _ => macroArguments.bind fun _ =>
      (skipSign ";" (by decide)).weak.bind fun _ => pure _ rfl
  . exact (letStatement h).start fun _ => pure _ rfl
  . exact (itemWith h attributes).start fun _ => pure _ rfl
  . exact (boundary h).start fun _ => (skipSign ";" (by decide)).weak.bind fun _ =>
      ite (pure _ rfl) (pure _ rfl)

theorem statements :
    Carries .whole (n + 1) never (Grammar.statements g) (Grammar.statements g') := by
  refine repeating (fun _ => ?_) ()
  refine (whileAhead (Frame.blind_whole _) (sign ";" (by decide))).bind fun _ => ?_
  refine (aheadWhole _).bind fun _ => ite (pure _ rfl) ?_
  refine (statement h).start fun _ => (aheadWhole _).bind fun _ => ite (pure _ rfl) ?_
  exact when (complain _ _) (pure _ rfl)

end Carries

end Bindings.Native.Grammar
