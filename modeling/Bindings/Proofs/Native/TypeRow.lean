import Bindings.Native.Grammar.File
import Bindings.Proofs.Native.Reader

/-!
This module contains how rows of token trees are read as types: names, names with arguments in angle
brackets and tuples. A rule has to reach as deep as the row has tokens.
-/

namespace Bindings.Native

theorem TokenTree.sizeAll_cons (tree : TokenTree) (trees : List TokenTree) :
    sizeAll (tree :: trees) = tree.size + sizeAll trees := rfl

theorem TokenTree.sizeAll_append (front back : List TokenTree) :
    sizeAll (front ++ back) = sizeAll front + sizeAll back := by
  induction front with
  | nil => rw [List.nil_append, show sizeAll [] = 0 from rfl, Nat.zero_add]
  | cons tree front ih => rw [List.cons_append, sizeAll_cons, ih, sizeAll_cons, Nat.add_assoc]

namespace Grammar

inductive StartsType : List TokenTree → Prop
  | word {name : String} (h : isKeyword name = false) (position : Position)
    (trees : List TokenTree) : StartsType (.word name position :: trees)
  | paren (body : List TokenTree) (opened closed : Position) (trees : List TokenTree) :
    StartsType (.group .paren body opened closed :: trees)

inductive EndsType : List TokenTree → Prop
  | nil : EndsType []
  | comma (joint : Bool) (position : Position) (trees : List TokenTree) :
    EndsType (.punct ',' joint position :: trees)
  | closing (joint : Bool) (position : Position) (trees : List TokenTree) :
    EndsType (.punct '>' joint position :: trees)

variable {name : String} {position : Position} {trees rest : List TokenTree}

namespace StartsType

theorem append (h : StartsType trees) (rest : List TokenTree) : StartsType (trees ++ rest) := by
  cases h with
  | word h position trees => exact .word h position (trees ++ rest)
  | paren body opened closed trees => exact .paren body opened closed (trees ++ rest)

theorem isEmpty_eq_false (h : StartsType trees) : trees.isEmpty = false := by
  cases h <;> rfl

theorem startsSign_eq_false (h : StartsType trees) {text : String} (htext : text.toList ≠ []) :
    startsSign text trees = false := by
  obtain ⟨c, cs, hcs⟩ := List.exists_cons_of_ne_nil htext
  unfold startsSign afterSign?
  rw [hcs]
  cases h <;> cases cs <;> rfl

theorem startsLifetime_eq_false (h : StartsType trees) : startsLifetime trees = false := by
  cases h <;> rfl

theorem startsConstant_eq_false (h : StartsType trees) : startsConstant trees = false := by
  cases h with
  | @word name h =>
    have hbooleans : (name == "true" || name == "false") = false := by
      rw [Bool.or_eq_false_iff, beq_eq_false_iff_ne, beq_eq_false_iff_ne]
      constructor
      . rintro rfl
        exact absurd h (by decide)
      . rintro rfl
        exact absurd h (by decide)
    simp [startsConstant, startsLiteral, afterLiteral?, hbooleans, startsGroup]
  | paren => rfl

theorem startsArguments (h : StartsType trees) (joint : Bool) (position : Position) :
    startsArguments false (.punct '<' joint position :: trees) = true := by
  have hsign : startsSignOnly "<" ["<=", "<<="] (.punct '<' joint position :: trees) = true := by
    cases h <;> cases joint <;> rfl
  rw [Grammar.startsArguments, hsign]
  rfl

end StartsType

theorem startsAnyWord_eq_false {names : List String} (hname : isKeyword name = false)
    (hnames : names.all isKeyword = true) :
    startsAnyWord names (.word name position :: rest) = false := by
  rw [startsAnyWord, List.contains_eq_mem, decide_eq_false_iff_not]
  intro hmem
  rw [List.all_eq_true.1 hnames name hmem] at hname
  cases hname

theorem startsWord_eq_false {keyword : String} (hname : isKeyword name = false)
    (hkeyword : isKeyword keyword = true) :
    startsWord keyword (.word name position :: rest) = false := by
  rw [startsWord, beq_eq_false_iff_ne]
  rintro rfl
  rw [hkeyword] at hname
  cases hname

namespace EndsType

theorem startsSign_eq_false (h : EndsType rest) {text : String} {c : Char}
    (htext : text.toList.head? = some c) (hc : c ∉ [',', '>']) : startsSign text rest = false := by
  obtain ⟨cs, hcs⟩ := List.head?_eq_some_iff.1 htext
  have hsign : ∀ d ∈ [',', '>'], (d == c) = false := by
    intro d hd
    rw [beq_eq_false_iff_ne]
    rintro rfl
    exact hc hd
  unfold startsSign afterSign?
  rw [hcs]
  cases h <;> cases cs <;> simp [afterPunct, hsign]

theorem startsMacroCall_eq_false (h : EndsType rest) (path : TypeExpr) :
    startsMacroCall path rest = false := by
  rw [startsMacroCall, startsSignOnly, h.startsSign_eq_false (c := '!') (by decide) (by decide),
    Bool.false_and, Bool.and_false]

theorem continuesPath_eq_false (h : EndsType rest) : continuesPath rest = false := by
  have hsign : afterSign? "::" rest = none :=
    Option.not_isSome_iff_eq_none.1 (Bool.eq_false_iff.1
      (h.startsSign_eq_false (c := ':') (by decide) (by decide)))
  rw [continuesPath, hsign]

theorem startsArguments_eq_false (h : EndsType rest) : startsArguments false rest = false := by
  have hsign : afterSign? "::" rest = none :=
    Option.not_isSome_iff_eq_none.1 (Bool.eq_false_iff.1
      (h.startsSign_eq_false (c := ':') (by decide) (by decide)))
  rw [startsArguments, startsSignOnly, h.startsSign_eq_false (c := '<') (by decide) (by decide),
    hsign]
  rfl

end EndsType

structure ReadAs (trees : List TokenTree) (type : TypeExpr) : Prop where
  starts : StartsType trees
  takes : ∀ n rest, TokenTree.sizeAll trees < n → EndsType rest →
    Takes ((rules n).type true) (trees ++ rest) type rest

inductive RowReadAs : List TokenTree → List (TypeExpr × Bool) → Prop
  | last {trees : List TokenTree} {type : TypeExpr} (h : ReadAs trees type) :
    RowReadAs trees [(type, false)]
  | cons {trees row : List TokenTree} {type : TypeExpr} {entries : List (TypeExpr × Bool)}
    (h : ReadAs trees type) (joint : Bool) (position : Position) (hrow : RowReadAs row entries) :
    RowReadAs (trees ++ .punct ',' joint position :: row) ((type, true) :: entries)

theorem RowReadAs.starts {row : List TokenTree} {entries : List (TypeExpr × Bool)}
    (h : RowReadAs row entries) : StartsType row := by
  cases h with
  | last h => exact h.starts
  | cons h => exact h.starts.append _

theorem RowReadAs.loops {row : List TokenTree} {entries : List (TypeExpr × Bool)} {n : Nat}
    {α : Type} {entry : Parser α} (hrow : RowReadAs row entries) (wrap : TypeExpr → α)
    (stop : List TokenTree → Bool) (hsize : TokenTree.sizeAll row < n)
    (hentry : ∀ trees type rest, ReadAs trees type → TokenTree.sizeAll trees < n →
      EndsType rest → Takes entry (trees ++ rest) (wrap type) rest)
    (hstart : ∀ trees, StartsType trees → stop trees = false)
    (hcomma : ∀ joint position trees, stop (.punct ',' joint position :: trees) = false)
    (hrest : EndsType rest) (hstop : stop rest = true) (before : List (α × Bool)) :
    Takes.Loops (separatedUntil.step "," stop entry) before (row ++ rest)
      (before.reverse ++ entries.map (Prod.map wrap id)) rest := by
  induction hrow generalizing before with
  | @last trees type h =>
    refine .done ?_
    unfold separatedUntil.step
    refine (Takes.ahead _ _).bind ?_
    rw [hstart _ (h.starts.append rest)]
    refine (hentry _ _ _ h hsize hrest).bind ?_
    refine (Takes.ahead _ _).bind ?_
    rw [hstop, if_pos rfl, List.reverse_cons]
    exact .pure _ rest
  | @cons trees row type entries h joint position hrow ih =>
    rw [TokenTree.sizeAll_append, TokenTree.sizeAll_cons] at hsize
    have hloops := ih (by omega) ((wrap type, true) :: before)
    rw [List.append_assoc, List.cons_append]
    rw [List.reverse_cons, List.append_assoc] at hloops
    refine .next ?_ ?_ hloops
    . unfold separatedUntil.step
      refine (Takes.ahead _ _).bind ?_
      rw [hstart _ (h.starts.append _)]
      refine (hentry _ _ _ h (by omega) (.comma _ _ _)).bind ?_
      refine (Takes.ahead _ _).bind ?_
      rw [hcomma]
      refine (Takes.sign (Nat.le_succ _) ?_).bind (.pure _ _)
      rfl
    . simp only [List.length_append, List.length_cons]
      omega

theorem ReadAs.takes_argument {type : TypeExpr} {n : Nat} (h : ReadAs trees type)
    (hsize : TokenTree.sizeAll trees < n) (hrest : EndsType rest) :
    Takes (argument (rules n)) (trees ++ rest) (.type type) rest := by
  have hstarts := h.starts.append rest
  unfold argument
  refine (Takes.trees _).bind ?_
  rw [hstarts.startsLifetime_eq_false, hstarts.startsConstant_eq_false]
  refine (h.takes n rest hsize hrest).bind ?_
  split
  . refine (Takes.ahead _ _).bind ?_
    rw [hrest.startsSign_eq_false (c := '=') (by decide) (by decide)]
    refine (Takes.ahead _ _).bind ?_
    rw [hrest.startsSign_eq_false (c := ':') (by decide) (by decide)]
    exact .pure _ rest
  . exact .pure _ rest

theorem RowReadAs.takes_arguments {row : List TokenTree} {entries : List (TypeExpr × Bool)}
    {n : Nat} (hrow : RowReadAs row entries) (hsize : TokenTree.sizeAll row < n)
    (joint joint' : Bool) (position position' : Position) (rest : List TokenTree) :
    Takes (arguments (rules n))
      (.punct '<' joint position :: (row ++ .punct '>' joint' position' :: rest))
      (entries.map (.type ·.1), (entries.getLast?.map (·.2)).getD false) rest := by
  have hloops := hrow.loops Argument.type (startsSign ">") hsize
    (fun _ _ _ h hsize hrest => h.takes_argument hsize hrest)
    (fun _ h => h.startsSign_eq_false (by decide)) (fun _ _ _ => rfl)
    (.closing joint' position' rest) rfl []
  unfold arguments
  refine (Takes.sign (Nat.le_succ _) rfl).bind ?_
  refine hloops.takes.bind ?_
  refine (Takes.sign (Nat.le_succ _) rfl).bind ?_
  rw [List.reverse_nil, List.nil_append, List.map_map, List.getLast?_map, Option.map_map]
  exact .pure _ rest

structure SegmentReadAs (trees : List TokenTree) (segment : Segment) : Prop where
  starts : ∃ name position others, trees = .word name position :: others ∧ isKeyword name = false
  takes : ∀ n rest, TokenTree.sizeAll trees ≤ n → EndsType rest →
    Takes (Grammar.segment (rules n) false) (trees ++ rest) segment rest

theorem SegmentReadAs.startsType {segment : Segment} (h : SegmentReadAs trees segment) :
    StartsType trees := by
  obtain ⟨name, position, others, rfl, hname⟩ := h.starts
  exact .word hname position others

theorem segmentReadAs_plain (hname : isKeyword name = false) (position : Position) :
    SegmentReadAs [.word name position] (.plain name) where
  starts := ⟨name, position, [], rfl, hname⟩
  takes n rest _ hrest := by
    unfold segment
    refine (Takes.ahead _ _).bind ?_
    rw [List.singleton_append, startsAnyWord_eq_false hname (by decide)]
    refine (Takes.ahead _ _).bind ?_
    rw [startsWord_eq_false hname (by decide)]
    refine (Takes.identifier hname position rest).bind ?_
    refine (Takes.ahead _ _).bind ?_
    rw [hrest.startsArguments_eq_false]
    exact .pure _ rest

theorem segmentReadAs_generic {row : List TokenTree} {entries : List (TypeExpr × Bool)}
    (hname : isKeyword name = false) (hrow : RowReadAs row entries) (joint joint' : Bool)
    (position position' position'' : Position) :
    SegmentReadAs (.word name position :: .punct '<' joint position' ::
        (row ++ [.punct '>' joint' position'']))
      (.generic name false (entries.map (.type ·.1))
        ((entries.getLast?.map (·.2)).getD false)) where
  starts := ⟨name, position, _, rfl, hname⟩
  takes n rest hsize hrest := by
    have hopens := (hrow.starts.append (.punct '>' joint' position'' :: rest)).startsArguments joint
      position'
    simp only [TokenTree.sizeAll_cons, TokenTree.sizeAll_append, TokenTree.size] at hsize
    unfold segment
    refine (Takes.ahead _ _).bind ?_
    rw [List.cons_append, startsAnyWord_eq_false hname (by decide)]
    refine (Takes.ahead _ _).bind ?_
    rw [startsWord_eq_false hname (by decide)]
    refine (Takes.identifier hname position _).bind ?_
    refine (Takes.ahead _ _).bind ?_
    rw [List.cons_append, List.append_assoc, List.singleton_append, hopens, if_pos rfl]
    refine (Takes.skipSign_false rfl).bind ?_
    exact (hrow.takes_arguments (by omega) joint joint' position' position'' rest).bind
      (.pure _ rest)

theorem SegmentReadAs.takes_namedType {segment : Segment} {n : Nat}
    (h : SegmentReadAs trees segment) (hsize : TokenTree.sizeAll trees ≤ n)
    (hrest : EndsType rest) :
    Takes (namedType (rules n) true) (trees ++ rest) (.path false [segment]) rest := by
  have hstarts := h.startsType.append rest
  have hothers : Takes (whileAhead continuesPath do
      sign "::"
      Grammar.segment (rules n) false) rest [] rest := by
    refine Takes.Loops.takes (.done ?_)
    unfold whileAhead.step
    refine (Takes.ahead _ _).bind ?_
    rw [hrest.continuesPath_eq_false]
    exact .pure _ rest
  have hpath : Takes (path (rules n) false) (trees ++ rest) (false, [segment]) rest := by
    refine (Takes.skipSign_false (hstarts.startsSign_eq_false (by decide))).bind ?_
    exact (h.takes n rest hsize hrest).bind (hothers.bind (.pure _ rest))
  have htype : Takes (pathType (rules n) false) (trees ++ rest) (.path false [segment]) rest := by
    unfold pathType
    refine (Takes.ahead _ _).bind ?_
    rw [hstarts.startsSign_eq_false (by decide)]
    exact hpath.silently.bind (.pure _ rest)
  refine htype.bind ?_
  refine (Takes.ahead _ _).bind ?_
  rw [hrest.startsMacroCall_eq_false]
  refine (Takes.ahead _ _).bind ?_
  rw [hrest.startsSign_eq_false (c := '+') (by decide) (by decide)]
  exact .pure _ rest

theorem SegmentReadAs.readAs {segment : Segment} (h : SegmentReadAs trees segment) :
    ReadAs trees (.path false [segment]) where
  starts := h.startsType
  takes n rest hsize hrest := by
    cases n with
    | zero => cases hsize
    | succ n =>
      refine .silently ?_
      have htakes := h.takes_namedType (Nat.le_of_lt_succ hsize) hrest
      obtain ⟨name, position, others, rfl, hname⟩ := h.starts
      rw [List.cons_append] at htakes ⊢
      have hpath : startsPath (.word name position :: (others ++ rest)) = true := by
        simp [startsPath, startsIdentifier, hname]
      unfold type
      refine (Takes.trees _).bind ?_
      rw [startsWord_eq_false hname (by decide), startsBareFunction,
        startsAnyWord_eq_false hname (by decide), hpath]
      exact htakes

theorem readAs_tuple {body : List TokenTree} (entries : List (TypeExpr × Bool))
    (hbody : body = [] ∨ StartsType body) (hentries : ∀ type, entries ≠ [(type, false)])
    (h : ∀ n, TokenTree.sizeAll body < n → Takes (elements (rules n)) body entries [])
    (opened closed : Position) :
    ReadAs [.group .paren body opened closed]
      (.tuple (entries.map (·.1)) ((entries.getLast?.map (·.2)).getD false)) where
  starts := .paren body opened closed []
  takes n rest hsize hrest := by
    have hlifetime : startsLifetime body = false := by
      rcases hbody with rfl | hbody
      . rfl
      . exact hbody.startsLifetime_eq_false
    have hmark : startsSign "?" body = false := by
      rcases hbody with rfl | hbody
      . rfl
      . exact hbody.startsSign_eq_false (by decide)
    cases n with
    | zero => cases hsize
    | succ n =>
      have hbodySize : TokenTree.sizeAll body < n := by
        have hgroup : TokenTree.sizeAll [.group .paren body opened closed]
          = TokenTree.sizeAll body + 2 := rfl
        omega
      refine .silently ?_
      unfold type
      refine (Takes.trees _).bind ?_
      unfold parenthesizedType
      refine (Takes.trees _).bind ?_
      dsimp only [List.singleton_append]
      rw [hlifetime, hmark]
      refine (Takes.group (h n hbodySize) opened closed rest).bind ?_
      split
      . next type => exact absurd rfl (hentries type)
      . exact .pure _ rest

theorem readAs_unit (opened closed : Position) :
    ReadAs [.group .paren [] opened closed] (.tuple [] false) := by
  refine readAs_tuple [] (.inl rfl) (fun _ heq => by cases heq) (fun n _ => ?_)
    opened closed
  unfold elements
  exact (Takes.ahead _ _).bind (.pure [] [])

theorem ReadAs.tuple {type : TypeExpr} (h : ReadAs trees type) (joint : Bool)
    (position opened closed : Position) :
    ReadAs [.group .paren (trees ++ [.punct ',' joint position]) opened closed]
      (.tuple [type] true) := by
  refine readAs_tuple [(type, true)] (.inr (h.starts.append _))
    (fun _ heq => by cases heq) (fun n hsize => ?_) opened closed
  rw [TokenTree.sizeAll_append] at hsize
  unfold elements
  refine (Takes.ahead _ _).bind ?_
  rw [(h.starts.append _).isEmpty_eq_false]
  refine (h.takes n _ (by omega) (.comma joint position [])).bind ?_
  refine (Takes.skipSign_true (Nat.zero_le _) rfl).bind ?_
  refine Takes.bind (Takes.Loops.takes (.done ?_)) (.pure _ [])
  unfold separatedUntil.step
  refine (Takes.ahead _ _).bind ?_
  exact .pure _ []

theorem RowReadAs.tuple {row : List TokenTree} {type : TypeExpr} {entries : List (TypeExpr × Bool)}
    (hrow : RowReadAs row entries) (h : ReadAs trees type) (joint : Bool)
    (position opened closed : Position) :
    ReadAs [.group .paren (trees ++ .punct ',' joint position :: row) opened closed]
      (.tuple (type :: entries.map (·.1))
        ((((type, true) :: entries).getLast?.map (·.2)).getD false)) := by
  refine readAs_tuple ((type, true) :: entries) (.inr (h.starts.append _))
    (fun _ heq => by cases heq) (fun n hsize => ?_) opened closed
  rw [TokenTree.sizeAll_append, TokenTree.sizeAll_cons] at hsize
  have hloops := hrow.loops (n := n) id List.isEmpty (by omega)
    (fun _ _ _ h hsize hrest => h.takes n _ hsize hrest)
    (fun _ h => h.isEmpty_eq_false) (fun _ _ _ => rfl) .nil rfl []
  rw [List.append_nil] at hloops
  unfold elements
  refine (Takes.ahead _ _).bind ?_
  rw [(h.starts.append _).isEmpty_eq_false]
  refine (h.takes n _ (by omega) (.comma joint position row)).bind ?_
  refine (Takes.skipSign_true (Nat.le_succ _) rfl).bind ?_
  refine hloops.takes.bind ?_
  rw [List.reverse_nil, List.nil_append, Prod.map_id, List.map_id]
  exact .pure _ []

end Grammar

end Bindings.Native
