import Bindings.Native.Grammar.Statement
import Bindings.Proofs.Native.Carrying.Basic

/-!
This module contains that the tests of how a row begins do not look beyond the comma behind it.
-/

namespace Bindings.Native.Grammar

/--
What a test says of a row does not depend on whether a comma follows the row.
-/
def Local (test : List TokenTree → β) : Prop :=
  ∀ row rest, Boundary rest → test (row ++ rest) = test row

namespace Local

variable {α β : Type} {f : Frame} {p q : List TokenTree → Bool} {test : List TokenTree → β}

theorem blind (h : Local test) : f.Blind test := fun row _ =>
  (h row f.rest f.boundary).trans (h row f.rest' f.boundary').symm

theorem const (b : β) : Local fun _ => b :=
  fun _ _ _ => rfl

theorem comp (h : Local test) (g : β → α) : Local fun trees => g (test trees) :=
  fun row rest hrest => congrArg g (h row rest hrest)

theorem not (hp : Local p) : Local fun trees => !p trees :=
  hp.comp (! ·)

theorem or (hp : Local p) (hq : Local q) : Local fun trees => p trees || q trees := by
  intro row rest hrest
  dsimp only
  rw [hp row rest hrest, hq row rest hrest]

theorem and (hp : Local p) (hq : Local q) : Local fun trees => p trees && q trees := by
  intro row rest hrest
  dsimp only
  rw [hp row rest hrest, hq row rest hrest]

theorem any {δ : Type} {tests : δ → List TokenTree → Bool} (ds : List δ)
    (h : ∀ d ∈ ds, Local (tests d)) : Local fun trees => ds.any (tests · trees) := by
  intro row rest hrest
  rw [Bool.eq_iff_iff, List.any_eq_true, List.any_eq_true]
  constructor
  . rintro ⟨d, hd, htest⟩
    exact ⟨d, hd, (h d hd row rest hrest).symm.trans htest⟩
  . rintro ⟨d, hd, htest⟩
    exact ⟨d, hd, (h d hd row rest hrest).trans htest⟩

theorem find? {δ : Type} {tests : δ → List TokenTree → Bool} (ds : List δ)
    (h : ∀ d ∈ ds, Local (tests d)) : Local fun trees => ds.find? (tests · trees) := by
  intro row rest hrest
  induction ds with
  | nil => rfl
  | cons d ds ih =>
    obtain ⟨hd, hds⟩ := List.forall_mem_cons.mp h
    dsimp only at ih ⊢
    rw [List.find?_cons, List.find?_cons, hd row rest hrest, ih hds]

theorem next (hp : Local p) (hq : Local q) (hnil : p [] = false) :
    Local fun trees => p trees && q (trees.drop 1) := by
  intro row rest hrest
  dsimp only
  rw [hp row rest hrest]
  cases row with
  | nil => rw [hnil, Bool.false_and, Bool.false_and]
  | cons tree row => rw [List.cons_append, List.drop_one, List.drop_one, List.tail_cons,
      List.tail_cons, hq row rest hrest]

theorem of_head (hhead : ∀ tree trees trees', test (tree :: trees) = test (tree :: trees'))
    (hcomma : ∀ joint position trees, test (.punct ',' joint position :: trees) = test []) :
    Local test := by
  intro row rest hrest
  cases row with
  | cons tree row => exact hhead tree _ _
  | nil =>
    cases hrest with
    | nil => rfl
    | comma joint position trees => exact hcomma joint position trees

theorem startsWord (text : String) : Local (startsWord text) :=
  of_head (fun tree _ _ => by cases tree <;> rfl) fun _ _ _ => rfl

theorem startsSomeWord : Local startsSomeWord :=
  of_head (fun tree _ _ => by cases tree <;> rfl) fun _ _ _ => rfl

theorem startsAnyWord (texts : List String) : Local (startsAnyWord texts) :=
  of_head (fun tree _ _ => by cases tree <;> rfl) fun _ _ _ => rfl

theorem startsIdentifier : Local startsIdentifier :=
  of_head (fun tree _ _ => by cases tree <;> rfl) fun _ _ _ => rfl

theorem startsLifetime : Local startsLifetime :=
  of_head (fun tree _ _ => by cases tree <;> rfl) fun _ _ _ => rfl

theorem startsGroup (delimiter : Delimiter) : Local (startsGroup delimiter) :=
  of_head (fun tree _ _ => by cases tree <;> rfl) fun _ _ _ => rfl

theorem startsString : Local startsString :=
  of_head (fun tree _ _ => by
    cases tree with
    | literal text value position => cases value <;> rfl
    | _ => rfl) fun _ _ _ => rfl

def body : List TokenTree → List TokenTree
  | .group _ body _ _ :: _ => body
  | _ => []

theorem inBody (test : List TokenTree → β) : Local fun trees => test (body trees) :=
  of_head (fun tree _ _ => by cases tree <;> rfl) fun _ _ _ => rfl

theorem afterPunct_append {chars : List Char} (h : ',' ∉ chars) (row : List TokenTree)
    {rest : List TokenTree} (hrest : Boundary rest) :
    afterPunct chars (row ++ rest) = (afterPunct chars row).map (· ++ rest) := by
  induction chars generalizing row with
  | nil => rfl
  | cons c chars ih =>
    obtain ⟨hc, hchars⟩ := not_or.mp (mt List.mem_cons.mpr h)
    cases row with
    | nil =>
      cases hrest with
      | nil => cases chars <;> rfl
      | comma joint position trees =>
        have hne : (',' == c) = false := beq_false_of_ne hc
        cases chars <;> simp [afterPunct, hne]
    | cons tree row =>
      cases tree with
      | punct other joint position =>
        cases chars with
        | nil =>
          simp only [List.cons_append, afterPunct]
          split <;> rfl
        | cons d chars =>
          simp only [List.cons_append, afterPunct]
          split
          . exact ih hchars row
          . rfl
      | _ => cases chars <;> rfl

theorem afterSign?_append {text : String} (h : ',' ∉ text.toList) (row : List TokenTree)
    {rest : List TokenTree} (hrest : Boundary rest) :
    afterSign? text (row ++ rest) = (afterSign? text row).map (· ++ rest) :=
  afterPunct_append h row hrest

theorem startsSign (text : String) (h : ',' ∉ text.toList) : Local (startsSign text) := by
  intro row rest hrest
  unfold Grammar.startsSign
  rw [afterSign?_append h row hrest, Option.isSome_map]

theorem startsSignOnly (text : String) (others : List String) (h : ',' ∉ text.toList)
    (hothers : ∀ other ∈ others, ',' ∉ other.toList) : Local (startsSignOnly text others) :=
  (startsSign text h).and (any others fun other hother =>
    startsSign other (hothers other hother)).not

theorem behindSign {text : String} (h : ',' ∉ text.toList) (htest : Local test) (b : β) :
    Local fun trees => match afterSign? text trees with
      | some rest => test rest
      | none => b := by
  intro row rest hrest
  dsimp only
  rw [afterSign?_append h row hrest]
  cases afterSign? text row with
  | none => rfl
  | some trees => exact htest trees rest hrest

theorem pastSign {text : String} (h : ',' ∉ text.toList) (htest : Local test) :
    Local fun trees => test ((afterSign? text trees).getD trees) := by
  intro row rest hrest
  dsimp only
  rw [afterSign?_append h row hrest]
  cases afterSign? text row with
  | none => exact htest row rest hrest
  | some trees => exact htest trees rest hrest

theorem congr {test' : List TokenTree → β} (h : Local test)
    (heq : ∀ trees, test' trees = test trees) : Local test' := by
  intro row rest hrest
  rw [heq, heq, h row rest hrest]

theorem ends : Local fun trees => trees.isEmpty || Grammar.startsSign "," trees := by
  refine of_head (fun tree trees trees' => ?_) fun _ _ _ => rfl
  cases tree with
  | punct c joint position =>
    show Option.isSome (if _ then some trees else none)
      = Option.isSome (if _ then some trees' else none)
    split <;> rfl
  | _ => rfl

theorem afterLiteral?_append (row : List TokenTree) {rest : List TokenTree}
    (hrest : Boundary rest) :
    afterLiteral? (row ++ rest)
      = (afterLiteral? row).map fun result => (result.1, result.2 ++ rest) := by
  cases row with
  | nil => cases hrest <;> rfl
  | cons tree row =>
    cases tree with
    | literal | lifetime | group => rfl
    | word =>
      simp only [List.cons_append, afterLiteral?]
      split <;> rfl
    | punct c joint position =>
      by_cases hc : c = '-'
      . subst hc
        cases row with
        | nil => cases hrest <;> rfl
        | cons tree row =>
          cases tree with
          | literal =>
            simp only [List.cons_append, afterLiteral?]
            split <;> rfl
          | word | lifetime | group | punct => rfl
      . simp [afterLiteral?, hc]

theorem startsLiteral : Local startsLiteral := by
  intro row rest hrest
  unfold Grammar.startsLiteral
  rw [afterLiteral?_append row hrest, Option.isSome_map]

theorem startsNumber (number : String → Bool) : Local (startsNumber number) := by
  intro row rest hrest
  match row with
  | [] => cases hrest <;> rfl
  | .literal _ _ _ :: _ | .lifetime _ _ :: _ | .group _ _ _ _ :: _ | .word _ _ :: _ => rfl
  | .punct c _ _ :: row =>
    by_cases hc : c = '-'
    . subst hc
      match row with
      | [] => cases hrest <;> rfl
      | tree :: _ => cases tree <;> rfl
    . simp [Grammar.startsNumber, hc]

/-! Generic arguments, paths and types -/

theorem startsConstant : Local startsConstant :=
  startsLiteral.or (startsGroup .brace)

theorem startsArguments (inExpression : Bool) : Local (startsArguments inExpression) :=
  ((const _).and (startsSignOnly "<" ["<=", "<<="] (by decide) (by decide))).or
    (behindSign (by decide) (startsSign "<" (by decide)) false)

theorem continuesPath : Local continuesPath :=
  behindSign (by decide) (startsGroup .paren).not false

theorem startsPath : Local startsPath :=
  ((startsIdentifier.or (startsAnyWord _)).or (startsSign "::" (by decide))).or
    (startsSign "<" (by decide))

theorem startsMacroCall (path : TypeExpr) : Local (startsMacroCall path) :=
  (const _).and (startsSignOnly "!" ["!="] (by decide) (by decide))

theorem endsParam : Local endsParam :=
  (ends.or (startsSign ">" (by decide))).or (startsSign "=" (by decide))

theorem startsBound (const? : Bool) : Local (startsBound const?) :=
  ((((startsSomeWord.or (startsSign "::" (by decide))).or (startsSign "?" (by decide))).or
    startsLifetime).or (startsGroup .paren)).or ((const _).and (startsGroup .bracket))

theorem startsBareFunction : Local startsBareFunction :=
  startsAnyWord _

/-! Patterns -/

theorem endsPattern : Local endsPattern := by
  refine (((((ends.or (startsSign "|" (by decide))).or (startsSign "=" (by decide))).or
    (startsSignOnly ":" ["::"] (by decide) (by decide))).or (startsSign ";" (by decide))).or
    (startsWord "if")).congr fun trees => ?_
  unfold Grammar.endsPattern
  ac_rfl

theorem startsPathPattern : Local startsPathPattern :=
  ((((startsIdentifier.next (((((startsSign "::" (by decide)).or (startsSign "!" (by decide))).or
    (startsGroup .brace)).or (startsGroup .paren)).or (startsSign ".." (by decide))) rfl).or
    ((startsWord "self").next (startsSign "::" (by decide)) rfl)).or
    (startsSign "::" (by decide))).or (startsSign "<" (by decide))).or (startsAnyWord _)

/-! Expressions -/

theorem startsMember : Local startsMember :=
  startsSignOnly "." [".."] (by decide) (by decide)

theorem startsAssignment : Local startsAssignment :=
  startsSignOnly "=" ["=>"] (by decide) (by decide)

theorem binaryOperator? : Local binaryOperator? :=
  find? _ fun operator hoperator => startsSign _ <|
    (by decide : ∀ operator ∈ binaryOperators, ',' ∉ operator.1.toList) operator hoperator

theorem leadingOperator? : Local leadingOperator? :=
  find? _ fun operator hoperator => startsSign _ <|
    (by decide : ∀ operator ∈ ["*", "!", "-"], ',' ∉ operator.toList) operator hoperator

theorem nextPrecedence? : Local nextPrecedence? := by
  intro row rest hrest
  unfold Grammar.nextPrecedence?
  rw [binaryOperator? row rest hrest, startsAssignment row rest hrest,
    startsSign ".." (by decide) row rest hrest, startsWord "as" row rest hrest]

theorem endsRange (literals : Bool) : Local (endsRange literals) := by
  have hplain : ∀ text ∈ [";", "?", "=>", "=", "+", "/", "%", "^", ">", "<=", "!=", "-=", "*=",
      "&=", "|=", "<<="], ',' ∉ text.toList := by decide
  refine ((((ends.or startsMember).or ((const (!literals)).and (startsGroup .brace))).or
    (startsWord "as")).or (any _ fun text htext => startsSign text (hplain text htext))).congr
    fun trees => ?_
  unfold Grammar.endsRange
  rw [List.any_cons]
  ac_rfl

theorem castContinuation? : Local castContinuation? := by
  have hmethod : Local fun trees => Grammar.startsIdentifier trees
      && (Grammar.startsGroup .paren (trees.drop 1) || Grammar.startsSign "::" (trees.drop 1)) :=
    startsIdentifier.next ((startsGroup .paren).or (startsSign "::" (by decide))) rfl
  intro row rest hrest
  cases row with
  | nil => cases hrest <;> rfl
  | cons tree row =>
    have hmethod := hmethod row rest hrest
    have hdrop (trees : List TokenTree) : (tree :: trees).drop 1 = trees := rfl
    dsimp only at hmethod
    unfold Grammar.castContinuation? Grammar.castContinuation?.member
    rw [startsMember _ rest hrest, startsSign "?" (by decide) _ rest hrest,
      startsGroup .bracket _ rest hrest, startsGroup .paren (tree :: row) rest hrest,
      List.cons_append, hdrop, hdrop, startsWord "await" row rest hrest, hmethod]

theorem startsExpression : Local startsExpression :=
  (((((((((((((startsSomeWord.and (startsWord "as").not).or (startsGroup .paren)).or
    (startsGroup .bracket)).or (startsGroup .brace)).or startsLiteral).or
    (startsSignOnly "!" ["!="] (by decide) (by decide))).or
    (startsSignOnly "-" ["-=", "->"] (by decide) (by decide))).or
    (startsSignOnly "*" ["*="] (by decide) (by decide))).or
    (startsSignOnly "|" ["|="] (by decide) (by decide))).or
    (startsSignOnly "&" ["&="] (by decide) (by decide))).or (startsSign ".." (by decide))).or
    (startsSignOnly "<" ["<=", "<<="] (by decide) (by decide))).or
    (startsSign "::" (by decide))).or startsLifetime |>.or (startsSign "#" (by decide))

theorem startsAsyncBlock : Local startsAsyncBlock := by
  refine ((startsWord "async").next ((startsGroup .brace).or
    ((startsWord "move").next (startsGroup .brace) rfl)) rfl).congr fun trees => ?_
  rw [List.drop_drop]
  rfl

theorem startsPathExpression : Local startsPathExpression :=
  startsPath.or ((startsWord "try").next
    ((startsSign "!" (by decide)).or (startsSign "::" (by decide))) rfl)

theorem startsGenerics_append {row rest : List TokenTree} (hrest : Boundary rest)
    (hlength : 3 ≤ row.length) : startsGenerics (row ++ rest) = startsGenerics row := by
  match row with
  | first :: second :: third :: row =>
    have hfirst {test : List TokenTree → Bool} (h : Local test) :
        test (first :: second :: third :: (row ++ rest)) = test (first :: second :: third :: row) :=
      h (first :: second :: third :: row) rest hrest
    have hsecond {test : List TokenTree → Bool} (h : Local test) :
        test (second :: third :: (row ++ rest)) = test (second :: third :: row) :=
      h (second :: third :: row) rest hrest
    have hthird {test : List TokenTree → Bool} (h : Local test) :
        test (third :: (row ++ rest)) = test (third :: row) :=
      h (third :: row) rest hrest
    have hcomma : Grammar.startsSign "," (third :: (row ++ rest))
        = Grammar.startsSign "," (third :: row) := by
      simpa using hthird ends
    unfold startsGenerics startsGenerics.first startsGenerics.second
    simp only [List.cons_append, List.drop_succ_cons, List.drop_zero]
    rw [hfirst (startsSign "<" (by decide)), hsecond (startsSign ">" (by decide)),
      hsecond (startsSign "#" (by decide)), hsecond (startsWord "const"), hsecond startsLifetime,
      hsecond startsIdentifier, hthird (startsSign ">" (by decide)), hcomma,
      hthird (startsSignOnly ":" ["::"] (by decide) (by decide)),
      hthird (startsSign "=" (by decide))]

def ShowsGenerics (row : List TokenTree) : Prop :=
  Grammar.startsWord "for" row → 4 ≤ row.length

theorem startsFor_append {row rest : List TokenTree} (hrow : ShowsGenerics row)
    (hrest : Boundary rest) (g : Bool → Bool) :
    (Grammar.startsWord "for" (row ++ rest) && g (startsGenerics ((row ++ rest).drop 1)))
      = (Grammar.startsWord "for" row && g (startsGenerics (row.drop 1))) := by
  rw [startsWord "for" row rest hrest]
  cases hfor : Grammar.startsWord "for" row with
  | false => rfl
  | true =>
    have hlength := hrow hfor
    rw [List.drop_append_of_le_length (by omega), startsGenerics_append hrest]
    rw [List.length_drop]
    omega

theorem startsControl_append {row rest : List TokenTree} (hrow : ShowsGenerics row)
    (hrest : Boundary rest) : startsControl (row ++ rest) = startsControl row := by
  have hfor := startsFor_append hrow hrest (! ·)
  have hblock := (startsAnyWord ["try", "const"]).next (startsGroup .brace) rfl row rest hrest
  dsimp only at hfor hblock
  unfold startsControl
  rw [startsAnyWord _ row rest hrest, hfor, hblock, startsGroup .brace row rest hrest,
    startsLifetime row rest hrest]

theorem startsClosure_append {row rest : List TokenTree} (hrow : ShowsGenerics row)
    (hrest : Boundary rest) : startsClosure (row ++ rest) = startsClosure row := by
  have hfor := startsFor_append hrow hrest id
  have hconst := (startsWord "const").next (startsGroup .brace).not rfl row rest hrest
  have hasync := (startsWord "async").next ((startsSign "|" (by decide)).or (startsWord "move")) rfl
    row rest hrest
  dsimp only [id] at hfor hconst hasync
  unfold startsClosure
  rw [startsSign "|" (by decide) row rest hrest, startsAnyWord _ row rest hrest, hfor, hconst,
    hasync]

end Local

theorem blind_inside {test : List TokenTree → β}
    (h : ∀ tree row rest, Boundary rest → test (tree :: row ++ rest) = test (tree :: row))
    {f : Frame} : f.inside.Blind test := by
  intro row hlength
  cases row with
  | nil => cases hlength
  | cons tree row => exact (h tree row _ f.boundary).trans (h tree row _ f.boundary').symm

theorem endsConstraint_blind (f : Frame) : f.inside.Blind endsConstraint :=
  blind_inside fun tree row rest hrest => by
    have hcomma : startsSign "," (tree :: row ++ rest) = startsSign "," (tree :: row) := by
      simpa using Local.ends (tree :: row) rest hrest
    unfold endsConstraint
    rw [hcomma, Local.startsSign ">" (by decide) _ rest hrest]

def leadingNumber (positive negative : String → β) (b : β) : List TokenTree → β
  | .literal text _ _ :: _ => positive text
  | .punct _ _ _ :: .literal text _ _ :: _ => negative text
  | _ => b

theorem leadingNumber_blind (positive negative : String → β) (b : β) (f : Frame) :
    f.inside.Blind (leadingNumber positive negative b) :=
  blind_inside fun tree row rest hrest => by
    match tree, row with
    | .literal _ _ _, _ | .lifetime _ _, _ | .group _ _ _ _, _ | .word _ _, _ => rfl
    | .punct _ _ _, [] => cases hrest <;> rfl
    | .punct _ _ _, tree :: _ => cases tree <;> rfl

end Bindings.Native.Grammar
