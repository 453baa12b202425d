import Bindings.Native.TypeMeaning
import Bindings.Proofs.Native.Lexer
import Bindings.Proofs.Native.TypeRow
import Bindings.Proofs.Reference

/-!
This module contains that the native spelling of a reference is read as that reference, provided the
identifiers that it mentions are words without a meaning of their own.
-/

namespace Bindings.Native

open Text Grammar Lexer

structure PlainName (name : String) : Prop where
  isWord : isWord name.toList = true
  notKeyword : isKeyword name = false
  notScalar : Scalar.ofNativeName? name = none
  notContainer : containerNames.contains name = false

instance (name : String) : Decidable (PlainName name) :=
  decidable_of_iff (Lexer.isWord name.toList = true ∧ isKeyword name = false
      ∧ Scalar.ofNativeName? name = none ∧ containerNames.contains name = false)
    ⟨fun ⟨hword, hkeyword, hscalar, hcontainer⟩ => ⟨hword, hkeyword, hscalar, hcontainer⟩,
      fun h => ⟨h.isWord, h.notKeyword, h.notScalar, h.notContainer⟩⟩

theorem Argument.meanings_types (entries : List (TypeExpr × Bool)) :
    Argument.meanings (entries.map (.type ·.1)) = entries.map (·.1.meaning) := by
  induction entries with
  | nil => rfl
  | cons entry entries ih =>
    rw [List.map_cons, Argument.meanings, ih]
    rfl

theorem TypeExpr.meanings_eq_ok {entries : List (TypeExpr × Bool)} {references : List TypeRef}
    (h : entries.map (·.1.meaning) = references.map .ok) :
    TypeExpr.meanings (entries.map (·.1)) = .ok references := by
  induction references generalizing entries with
  | nil =>
    rw [List.map_eq_nil_iff.1 h]
    rfl
  | cons reference references ih =>
    obtain ⟨entry, entries, rfl, hentry, hentries⟩ := List.map_eq_cons_iff.1 h
    rw [List.map_cons, TypeExpr.meanings, hentry, ih hentries]
    rfl

theorem meaningOfName?_nil {name : String} (h : containerNames.contains name = false) :
    meaningOfName? name []
      = some (.ok (((Scalar.ofNativeName? name).map .scalar).getD (.named name))) := by
  unfold meaningOfName?
  rw [h]

def Denotes (type : TypeRef) (trees : List TokenTree) : Prop :=
  ∃ expr, ReadAs trees expr ∧ expr.meaning = .ok type

def RowDenotes (types : List TypeRef) (trees : List TokenTree) : Prop :=
  ∃ entries, RowReadAs trees entries ∧ entries.map (·.1.meaning) = types.map .ok

def OpensType (cs : List Char) : Prop :=
  ∃ c others, cs = c :: others ∧ (isWordStart c = true ∨ c = '(')

namespace OpensType

theorem append {cs : List Char} (h : OpensType cs) (rest : List Char) : OpensType (cs ++ rest) := by
  obtain ⟨c, others, rfl, hc⟩ := h
  exact ⟨c, others ++ rest, rfl, hc⟩

theorem of_isWord {cs : List Char} (h : isWord cs = true) : OpensType cs := by
  cases cs with
  | nil => cases h
  | cons c cs =>
    rw [isWord, Bool.and_eq_true] at h
    exact ⟨c, cs, rfl, .inl h.1⟩

theorem dropWhile_isSpace {cs : List Char} (h : OpensType cs) : cs.dropWhile isSpace = cs := by
  obtain ⟨c, others, rfl, hc⟩ := h
  have hspace : isSpace c = false := by
    rcases hc with hc | rfl
    . exact isSpace_of_isWordStart hc
    . decide
  rw [List.dropWhile_cons_of_neg (by simp [hspace])]

theorem head?_ne {cs : List Char} (h : OpensType cs) (d : Char) (hword : isWordStart d = false)
    (hparen : d ≠ '(') : cs.head? ≠ some d := by
  obtain ⟨c, others, rfl, hc⟩ := h
  intro heq
  cases heq
  rcases hc with hc | hc
  . rw [hword] at hc
    cases hc
  . exact hparen hc

theorem dropByteOrderMark_eq {cs : List Char} (h : OpensType cs) : dropByteOrderMark cs = cs := by
  have hne := h.head?_ne '\ufeff' (by decide +kernel) (by decide)
  have hcode : '\ufeff'.toNat = 0xfeff := by decide
  unfold dropByteOrderMark
  split
  . rfl
  . next c cs =>
    have hmark : (c.toNat == 0xfeff) = false := by
      rw [beq_eq_false_iff_ne]
      intro heq
      have hc : c = '\ufeff' := Char.toNat_inj.1 (by rw [heq, hcode])
      exact hne (by rw [hc, List.head?_cons])
    rw [hmark]
    rfl

end OpensType

theorem isWord_spelling (kind : Scalar) : isWord kind.spelling.toList = true := by
  cases kind <;> decide

theorem isKeyword_spelling (kind : Scalar) : isKeyword kind.spelling = false := by
  cases kind <;> decide

theorem contains_spelling (kind : Scalar) : containerNames.contains kind.spelling = false := by
  cases kind <;> decide

def applied (name : String) (row : List Char) : List Char :=
  name.toList ++ '<' :: (row ++ ['>'])

theorem toList_spelling_vector (element : TypeRef) :
    (TypeRef.vector element).spelling.toList
      = applied "Vec" (joinWith ", " ([element].map TypeRef.spelling)).toList := by
  simp [TypeRef.spelling, applied]

theorem toList_spelling_option (inner : TypeRef) :
    (TypeRef.option inner).spelling.toList
      = applied "Option" (joinWith ", " ([inner].map TypeRef.spelling)).toList := by
  simp [TypeRef.spelling, applied]

theorem toList_spelling_map (key value : TypeRef) :
    (TypeRef.map key value).spelling.toList
      = applied "HashMap" (joinWith ", " ([key, value].map TypeRef.spelling)).toList := by
  simp [TypeRef.spelling, applied, joinWith_cons_cons]

def tupleRow : List TypeRef → List Char
  | [element] => element.spelling.toList ++ [',']
  | elements => (joinWith ", " (elements.map TypeRef.spelling)).toList

theorem toList_spelling_tuple :
    (elements : List TypeRef) →
    (TypeRef.tuple elements).spelling.toList = '(' :: (tupleRow elements ++ [')'])
  | [] => by simp [TypeRef.spelling, TypeRef.spelling.go, tupleRow]
  | [element] => by simp [TypeRef.spelling, tupleRow]
  | element :: next :: elements => by
    simp [TypeRef.spelling, TypeRef.spelling.go_eq_map, tupleRow]

theorem opensType_applied {name : String} (hname : containerNames.contains name = true)
    (row : List Char) : OpensType (applied name row) := by
  have hwords : ∀ name ∈ containerNames, isWord name.toList = true := by decide
  exact (OpensType.of_isWord (hwords name (List.contains_iff_mem.1 hname))).append _

theorem gives_name {name : String} {reference : TypeRef} {rest : List Char}
    (hword : isWord name.toList = true) (hkeyword : isKeyword name = false)
    (hmeaning : meaningOfName? name [] = some (.ok reference)) (hrest : EndsWord rest) :
    Gives name.toList rest (Denotes reference) := by
  apply (Gives.word hword hrest).mono
  rintro trees ⟨position, rfl⟩
  rw [String.ofList_toList]
  refine ⟨_, (segmentReadAs_plain hkeyword position).readAs, ?_⟩
  rw [TypeExpr.meaning, Segment.lastMeaning]
  dsimp only
  rw [hmeaning]

theorem gives_applied {name : String} {types : List TypeRef} {reference : TypeRef}
    {row rest : List Char} (hname : containerNames.contains name = true)
    (hrow : Gives row ('>' :: rest) (RowDenotes types))
    (hmeaning : meaningOfName? name (types.map .ok) = some (.ok reference)) :
    Gives (applied name row) rest (Denotes reference) := by
  have hwords : ∀ name ∈ containerNames, isWord name.toList = true ∧ isKeyword name = false := by
    decide
  obtain ⟨hword, hkeyword⟩ := hwords name (List.contains_iff_mem.1 hname)
  have hends : EndsWord ('<' :: (row ++ ['>']) ++ rest) := by
    rintro c hc
    cases hc
    decide
  have hrow' : Gives row (['>'] ++ rest) (RowDenotes types) := hrow
  apply ((Gives.word hword hends).append ((Gives.sign (c := '<') (by decide) _).append
    (hrow'.append (Gives.sign (c := '>') (by decide) rest)))).mono
  rintro trees ⟨_, _, ⟨position, rfl⟩, ⟨_, _, ⟨joint, position', rfl⟩,
    ⟨row, _, ⟨entries, hread, hmeanings⟩, ⟨joint', position'', rfl⟩, rfl⟩, rfl⟩, rfl⟩
  rw [String.ofList_toList]
  refine ⟨_,
    (segmentReadAs_generic hkeyword hread joint joint' position position' position'').readAs, ?_⟩
  rw [TypeExpr.meaning, Segment.lastMeaning, Argument.meanings_types, hmeanings]
  dsimp only
  rw [hmeaning]

theorem endsWord_cons {c : Char} (hc : c ∈ stops) (rest : List Char) : EndsWord (c :: rest) := by
  rintro d hd
  cases hd
  exact hc

structure ReadBack (type : TypeRef) : Prop where
  opens : OpensType type.spelling.toList
  gives : ∀ rest, EndsWord rest → Gives type.spelling.toList rest (Denotes type)

theorem gives_row {rest : List Char} (hrest : EndsWord rest) :
    (type : TypeRef) → (types : List TypeRef) → (∀ other ∈ type :: types, ReadBack other) →
    OpensType (joinWith ", " ((type :: types).map TypeRef.spelling)).toList
      ∧ Gives (joinWith ", " ((type :: types).map TypeRef.spelling)).toList rest
        (RowDenotes (type :: types))
  | type, [], hread => by
    have htype := hread type List.mem_cons_self
    refine ⟨htype.opens, (htype.gives rest hrest).mono ?_⟩
    rintro trees ⟨expr, hexpr, hmeaning⟩
    exact ⟨_, .last hexpr, by rw [List.map_singleton, hmeaning]; rfl⟩
  | type, next :: types, hread => by
    have htype := hread type List.mem_cons_self
    obtain ⟨hopens, hrow⟩ := gives_row hrest next types fun other hmem =>
      hread other (List.mem_cons_of_mem _ hmem)
    have htext : (joinWith ", " ((type :: next :: types).map TypeRef.spelling)).toList
        = type.spelling.toList ++ ([','] ++ ([' ']
          ++ (joinWith ", " ((next :: types).map TypeRef.spelling)).toList)) := by
      simp [joinWith_cons_cons]
    rw [htext]
    refine ⟨htype.opens.append _, ?_⟩
    apply ((htype.gives _ (endsWord_cons (by decide) _)).append
      ((Gives.sign (c := ',') (by decide) _).append
        ((Gives.space (hopens.append rest).dropWhile_isSpace).append hrow))).mono
    rintro trees ⟨front, _, ⟨expr, hexpr, hmeaning⟩, ⟨_, _, ⟨joint, position, rfl⟩,
      ⟨_, row, rfl, ⟨entries, hentries, hmeanings⟩, rfl⟩, rfl⟩, rfl⟩
    exact ⟨_, .cons hexpr joint position hentries, by
      rw [List.map_cons, hmeanings, hmeaning]
      rfl⟩

theorem gives_tuple {rest : List Char} :
    (elements : List TypeRef) → (∀ element ∈ elements, ReadBack element) →
    Gives ('(' :: (tupleRow elements ++ [')'])) rest (Denotes (.tuple elements))
  | [], _ => by
    have hslash : ([] ++ ')' :: rest).head? ≠ some '/' := by simp
    apply (Gives.paren (Gives.nil _) hslash).mono
    rintro trees ⟨_, opened, closed, rfl, rfl⟩
    exact ⟨_, readAs_unit opened closed, rfl⟩
  | [element], hread => by
    have helement := hread element List.mem_cons_self
    have hcomma : EndsWord ([','] ++ ')' :: rest) := endsWord_cons (by decide) _
    have hbody := (helement.gives _ hcomma).append (Gives.sign (c := ',') (by decide) (')' :: rest))
    have hopens := (helement.opens.append [',']).append (')' :: rest)
    apply (Gives.paren hbody (hopens.head?_ne '/' (by decide) (by decide))).mono
    rintro trees ⟨_, opened, closed, ⟨front, _, ⟨expr, hexpr, hmeaning⟩,
      ⟨joint, position, rfl⟩, rfl⟩, rfl⟩
    refine ⟨_, hexpr.tuple joint position opened closed, ?_⟩
    rw [TypeExpr.meaning, TypeExpr.meanings, hmeaning]
    rfl
  | element :: next :: elements, hread => by
    have hparen : EndsWord (')' :: rest) := endsWord_cons (by decide) _
    obtain ⟨hopens, hrow⟩ := gives_row hparen element (next :: elements) hread
    apply (Gives.paren hrow ((hopens.append _).head?_ne '/' (by decide) (by decide))).mono
    rintro trees ⟨_, opened, closed, ⟨entries, hentries, hmeanings⟩, rfl⟩
    cases hentries with
    | last h => exact absurd (congrArg List.length hmeanings) (by simp)
    | cons h joint position hrow =>
      refine ⟨_, hrow.tuple h joint position opened closed, ?_⟩
      have hall := TypeExpr.meanings_eq_ok hmeanings
      rw [List.map_cons] at hall
      rw [TypeExpr.meaning, hall]
      rfl

theorem readBack_applied {name : String} {type reference : TypeRef} {types : List TypeRef}
    (hname : containerNames.contains name = true) (hread : ∀ other ∈ type :: types, ReadBack other)
    (htext : reference.spelling.toList
      = applied name (joinWith ", " ((type :: types).map TypeRef.spelling)).toList)
    (hmeaning : meaningOfName? name ((type :: types).map .ok) = some (.ok reference)) :
    ReadBack reference where
  opens := by
    rw [htext]
    exact opensType_applied hname _
  gives rest hrest := by
    rw [htext]
    have hclosing : EndsWord ('>' :: rest) := endsWord_cons (by decide) _
    exact gives_applied hname (gives_row hclosing type types hread).2 hmeaning

theorem readBack : (type : TypeRef) → (∀ id, type.Mentions id → PlainName id) → ReadBack type
  | .scalar kind, _ => by
    refine ⟨.of_isWord (isWord_spelling kind), fun rest hrest => ?_⟩
    apply gives_name (isWord_spelling kind) (isKeyword_spelling kind) _ hrest
    rw [meaningOfName?_nil (contains_spelling kind), Scalar.ofNativeName?_spelling]
    rfl
  | .named id, hnames => by
    have hname := hnames id .named
    refine ⟨.of_isWord hname.isWord, fun rest hrest => ?_⟩
    apply gives_name hname.isWord hname.notKeyword _ hrest
    rw [meaningOfName?_nil hname.notContainer, hname.notScalar]
    rfl
  | .vector element, hnames => by
    have helement := readBack element fun id h => hnames id (.vector h)
    exact readBack_applied (by decide) (List.forall_mem_singleton.2 helement)
      (toList_spelling_vector element)
      (by simp [meaningOfName?, containerNames, mapNames, sequenceNames])
  | .option inner, hnames => by
    have hinner := readBack inner fun id h => hnames id (.option h)
    exact readBack_applied (by decide) (List.forall_mem_singleton.2 hinner)
      (toList_spelling_option inner)
      (by simp [meaningOfName?, containerNames, mapNames])
  | .tuple elements, hnames => by
    have helements : ∀ element ∈ elements, ReadBack element :=
      fun element hmem => readBack element fun id h => hnames id (.tuple hmem h)
    refine ⟨?_, fun rest _ => ?_⟩
    . rw [toList_spelling_tuple]
      exact ⟨'(', _, rfl, .inr rfl⟩
    . rw [toList_spelling_tuple]
      exact gives_tuple elements helements
  | .map key value, hnames => by
    have hkey := readBack key fun id h => hnames id (.mapKey h)
    have hvalue := readBack value fun id h => hnames id (.mapValue h)
    have hmeaning : meaningOfName? "HashMap" ([key, value].map .ok)
        = some (.ok (.map key value)) := by
      simp [meaningOfName?, containerNames, mapNames, sequenceNames]
      rfl
    exact readBack_applied (by decide)
      (List.forall_mem_cons.2 ⟨hkey, List.forall_mem_singleton.2 hvalue⟩)
      (toList_spelling_map key value) hmeaning

theorem Lexer.Gives.trees_eq {text : List Char} {p : List TokenTree → Prop} (h : Gives text [] p)
    (hmark : dropByteOrderMark text = text) : ∃ trees, p trees ∧ Lexer.trees text = some trees := by
  obtain ⟨trees, next, hp, heq⟩ := h {} [] []
  refine ⟨trees, hp, ?_⟩
  have hend : treesFrom next [] (trees.reverse ++ []) [] = some trees := by
    rw [treesFrom, lexemesFrom]
    simp [nest]
  rw [hend, List.append_nil] at heq
  unfold Lexer.trees
  rw [hmark]
  exact heq

/--
Reading the native spelling of a reference as a type gives the reference.
-/
theorem typeText_spelling {type : TypeRef} (hnames : ∀ id, type.Mentions id → PlainName id) :
    (Grammar.typeText type.spelling).map TypeExpr.meaning = some (.ok type) := by
  have hread := readBack type hnames
  obtain ⟨trees, ⟨expr, hexpr, hmeaning⟩, htrees⟩ :=
    (hread.gives [] (fun _ hc => by cases hc)).trees_eq hread.opens.dropByteOrderMark_eq
  have htakes := hexpr.takes _ [] (Nat.lt_succ_self _) .nil
  rw [List.append_nil] at htakes
  rw [Grammar.typeText, Grammar.read, htrees]
  show (((rules _).type true).parse { trees }).toOption.map TypeExpr.meaning = _
  rw [htakes.parse_eq_ok, ← hmeaning]
  rfl

theorem typeText_spelling_nested :
    (Grammar.typeText "HashMap<Größe, (Vec<Option<Point>>,)>").map TypeExpr.meaning
      = some (.ok (.map (.named "Größe") (.tuple [.vector (.option (.named "Point"))]))) := by
  have hspelling : "HashMap<Größe, (Vec<Option<Point>>,)>"
      = (TypeRef.map (.named "Größe") (.tuple [.vector (.option (.named "Point"))])).spelling := by
    simp [TypeRef.spelling]
  have hnames : ∀ id ∈ ["Größe", "Point"], PlainName id := by decide +kernel
  rw [hspelling]
  exact typeText_spelling fun id h => hnames id (TypeRef.mem_names_iff _ |>.2 h)

end Bindings.Native
