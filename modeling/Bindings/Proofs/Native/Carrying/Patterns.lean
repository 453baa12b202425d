import Bindings.Proofs.Native.Carrying.Types

/-!
This module contains that members and patterns are read in the same way in every place, if what is
nested in them is.
-/

namespace Bindings.Native.Grammar

namespace Carries

variable {f : Frame} {n : Nat} {g g' : Rules}

/-! Members -/

def takeIndices (tokens : Except Problem (List TokenTree)) : Parser Unit :=
  match tokens with
  | .ok tokens => do
    Grammar.write tokens
    Grammar.silently Grammar.literal
  | .error problem => Grammar.complain problem

theorem indices (ofNumber : Bool → String → Except Problem (List TokenTree)) {eats : Unit → Bool} :
    Carries f n eats (Grammar.indices ofNumber) (Grammar.indices ofNumber) := by
  refine treesBefore fun trees trees' agree => ?_
  have hnumber := agree _ (leadingNumber_blind (ofNumber false) (ofNumber true)
    (.error (.expected [.integerLiteral])) f)
  show Carries f n always (takeIndices (leadingNumber _ _ _ trees))
    (takeIndices (leadingNumber _ _ _ trees'))
  rw [hnumber]
  unfold takeIndices
  split
  . exact (write _).bind fun _ => silently literal
  . exact complain _ _

theorem startsIndex_local : Local startsIndex :=
  Local.startsNumber _

theorem member {eats : Bool → Bool} : Carries f n eats Grammar.member Grammar.member := by
  refine (ahead Local.startsIdentifier.blind).bind fun _ => ite ?_ ?_
  . exact identifier.start fun _ => pure _ rfl
  . refine (ahead startsIndex_local.blind).bind fun _ => ite ?_ (lacks _ _)
    exact (indices _).start fun _ => pure _ rfl

theorem skipNestedMembers :
    Carries f n never Grammar.skipNestedMembers Grammar.skipNestedMembers := by
  refine (ahead (Local.startsNumber _).blind).bind fun _ => ite ?_ (pure _ rfl)
  refine treesBefore fun trees trees' agree => ?_
  have hopen : skipNestedMembers.endsOpen trees = skipNestedMembers.endsOpen trees' :=
    agree _ (leadingNumber_blind (·.endsWith ".") (·.endsWith ".") false f)
  rw [hopen]
  exact (indices _).start fun _ => pure _ rfl

/-! Patterns -/

theorem rangeSign (obsolete : Bool) {eats : Bool → Bool} :
    Carries f n eats (Grammar.rangeSign obsolete) (Grammar.rangeSign obsolete) := by
  refine trees fun trees trees' agree => ?_
  refine iteOf (agree _ (Local.startsSign "..=" (by decide)).blind)
    ((sign "..=" (by decide)).start fun _ => pure _ rfl) ?_
  refine iteOf (agree _ (Local.startsSign "..." (by decide)).blind) (ite ?_ (lacks _ _)) ?_
  . exact (silently (sign "..." (by decide))).start fun _ => (write _).bind fun _ => pure _ rfl
  refine iteOf (agree _ (Local.startsSign ".." (by decide)).blind)
    ((sign ".." (by decide)).start fun _ => pure _ rfl) (lacks _ _)

variable (h : Rules.Alike n g g')

include h

theorem rangeBound : Carries f (n + 1) never (Grammar.rangeBound g) (Grammar.rangeBound g') := by
  refine (ahead Local.endsPattern.blind).bind fun _ => ite (pure _ rfl) ?_
  refine (ahead Local.startsLiteral.blind).bind fun _ => ite (literal.bind fun _ => pure _ rfl) ?_
  refine (ahead Local.startsPath.blind).bind fun _ => ite ?_ ?_
  . exact (pathType h true).bind fun _ => (write _).bind fun _ => pure _ rfl
  refine (ahead (Local.startsWord _).blind).bind fun _ =>
    ite ?_ ((lacks _ _).bind fun _ => pure _ rfl)
  exact (word "const").bind fun _ => (attributedBlock h).bind fun _ => pure _ rfl

theorem rangeRest : Carries f (n + 1) never (Grammar.rangeRest g) (Grammar.rangeRest g') := by
  refine (ahead (Local.startsSign ".." (by decide)).blind).bind fun _ => ite ?_ (pure _ rfl)
  refine hereBefore fun position => (rangeSign true).start fun closed => ?_
  refine (rangeBound h).bind fun bounded => ite (pure _ rfl) ?_
  exact when (complain _ _) (pure _ rfl)

theorem upperRange {eats : Pattern → Bool} :
    Carries f (n + 1) eats (Grammar.upperRange g) (Grammar.upperRange g') := by
  refine hereBefore fun position => (rangeSign false).start fun closed => ?_
  refine (rangeBound h).bind fun bounded => ite (pure _ rfl) ?_
  exact when (complain _ _) (pure _ rfl)

theorem alternatives : Carries f n never (Grammar.alternatives g) (Grammar.alternatives g') := by
  refine (skipSign "|" (by decide)).weak.bind fun leading => (h.pattern f).bind fun first => ?_
  refine (whileAhead (Local.startsSignOnly "|" ["||", "|="] (by decide) (by decide)).blind ?_).bind
    fun _ => pure _ rfl
  exact (sign "|" (by decide)).start fun _ => h.pattern f

theorem fieldPattern : Carries f n never (Grammar.fieldPattern g) (Grammar.fieldPattern g') := by
  refine (skipWord "box").weak.bind fun boxed => (skipWord "ref").weak.bind fun byReference => ?_
  refine (skipWord "mut").weak.bind fun mutable => ite (identifier.bind fun _ => pure _ rfl) ?_
  refine member.bind fun named => (ahead (Local.startsSign ":" (by decide)).blind).bind fun _ => ?_
  refine ite ?_ (pure _ rfl)
  exact (sign ":" (by decide)).bind fun _ => (alternatives h).bind fun _ => pure _ rfl

theorem fieldPatterns :
    Carries .whole n never (Grammar.fieldPatterns g) (Grammar.fieldPatterns g') := by
  refine repeating (fun _ => (ahead (Frame.blind_whole _)).bind fun _ => ite (pure _ rfl) ?_) ()
  refine (attributes h).down.bind fun _ => (ahead (Frame.blind_whole _)).bind fun _ => ite ?_ ?_
  . exact (sign ".." (by decide)).bind fun _ => pure _ rfl
  . refine (fieldPattern h).bind fun _ => (ahead (Frame.blind_whole _)).bind fun _ =>
      ite (pure _ rfl) ?_
    exact (sign "," (by decide)).start fun _ => pure _ rfl

theorem pathPattern : Carries f (n + 1) never (Grammar.pathPattern g) (Grammar.pathPattern g') := by
  refine (pathType h true).bind fun path => (write _).bind fun _ => ?_
  refine (ahead (Local.startsMacroCall path).blind).bind fun _ => ite
    (macroArguments.bind fun _ => pure _ rfl) ?_
  refine (ahead (Local.startsGroup _).blind).bind fun _ => ite
    ((group (fieldPatterns h)).bind fun _ => pure _ rfl) ?_
  refine (ahead (Local.startsGroup _).blind).bind fun _ => ite ?_ (rangeRest h)
  exact (group (terminated (alternatives h))).bind fun _ => pure _ rfl

theorem namePattern {eats : Pattern → Bool} :
    Carries f (n + 1) eats (Grammar.namePattern g) (Grammar.namePattern g') := by
  refine (skipWord "ref").weak.bind fun _ => (skipWord "mut").weak.bind fun _ => ?_
  refine (ahead (Local.startsWord _).blind).bind fun _ =>
    eatEither anyWord identifier fun name => ?_
  refine (skipSign "@" (by decide)).weak.bind fun _ => ite ?_ (pure _ rfl)
  exact (h.pattern f).bind fun _ => pure _ rfl

theorem slicePatterns :
    Carries .whole n never (Grammar.slicePatterns g) (Grammar.slicePatterns g') := by
  refine bind (terminated ((alternatives h).bind fun pattern => ?_)) fun _ => pure _ rfl
  split
  . exact complainAt _ _ _ _
  . exact pure _ rfl

theorem pattern : Carries f (n + 1) never (Grammar.pattern g) (Grammar.pattern g') := by
  refine trees fun trees trees' agree => ?_
  refine iteOf (agree _ Local.startsPathPattern.blind) (pathPattern h) ?_
  refine iteOf (agree _ (Local.startsWord _).blind) ((word "_").bind fun _ => pure _ rfl) ?_
  refine iteOf (agree _ (Local.startsWord _).blind) ?_ ?_
  . refine bind (verbatim ?_) fun _ => pure _ rfl
    exact (word "box").eat fun _ => (h.pattern f).bind fun _ => pure _ rfl
  refine iteOf (agree _ (((Local.startsSign "-" (by decide)).or Local.startsLiteral).or
    (Local.startsWord _)).blind) ((rangeBound h).bind fun _ => rangeRest h) ?_
  refine iteOf (agree _ ((Local.startsAnyWord _).or Local.startsIdentifier).blind) (namePattern h)
    ?_
  refine iteOf (agree _ (Local.startsSign "&" (by decide)).blind) ?_ ?_
  . refine (sign "&" (by decide)).eat fun _ => (skipWord "mut").weak.bind fun _ => ?_
    exact (h.pattern f).bind fun _ => pure _ rfl
  refine iteOf (agree _ (Local.startsGroup _).blind)
    ((group (terminated (alternatives h))).bind fun _ => pure _ rfl) ?_
  refine iteOf (agree _ (Local.startsGroup _).blind)
    ((group (slicePatterns h)).bind fun _ => pure _ rfl) ?_
  exact iteOf (agree _ (Local.startsSignOnly ".." ["..."] (by decide) (by decide)).blind)
    (upperRange h) (lacks _ _)

end Carries

end Bindings.Native.Grammar
