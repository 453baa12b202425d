import Bindings.Native.Lexer
import Mathlib.Data.List.TakeWhile

/-!
This module contains how words, signs and brackets of native source text are read: each of them is
one step, whatever follows it, as long as what follows a word neither continues it nor turns it into
the beginning of a literal.
-/

namespace Bindings

open Text

theorem Text.CodeRanges.contains_eq_false_of_apart {ranges others : CodeRanges} {c : Char}
    (hapart : ranges.all (fun (first, last) => others.all fun (start, stop) =>
      last < start || stop < first) = true)
    (h : ranges.contains c = true) : others.contains c = false := by
  obtain ⟨⟨first, last⟩, hrange, hc⟩ := List.any_eq_true.1 h
  rw [contains, List.any_eq_false]
  rintro ⟨start, stop⟩ hother
  have hbetween := List.all_eq_true.1 (List.all_eq_true.1 hapart _ hrange) _ hother
  simp only [Bool.and_eq_true, Bool.or_eq_true, decide_eq_true_eq] at hc hbetween ⊢
  omega

def Text.wordStarts : CodeRanges :=
  (0x41, 0x5a) :: (0x5f, 0x5f) :: (0x61, 0x7a) :: wordStartRanges

theorem Text.wordStarts_contains {c : Char} (h : isWordStart c = true) :
    wordStarts.contains c = true := by
  simp only [isWordStart, Bool.or_eq_true, Bool.and_eq_true, beq_iff_eq] at h
  simp only [wordStarts, CodeRanges.contains, List.any_cons, Bool.or_eq_true, Bool.and_eq_true,
    decide_eq_true_eq]
  rcases h with (halpha | hunderscore) | ⟨_, hrange⟩
  . have hranges : (decide (65 ≤ c.val ∧ c.val ≤ 90)
        || (decide (97 ≤ c.val) && decide (c.val ≤ 122))) = true :=
      halpha
    have hcode : 97 ≤ c.toNat ∧ c.toNat ≤ 122 ∨ 65 ≤ c.toNat ∧ c.toNat ≤ 90 := by
      simpa [UInt32.le_iff_toNat_le, or_comm] using hranges
    omega
  . subst hunderscore
    decide
  . exact Or.inr (Or.inr (Or.inr hrange))

namespace Native

namespace Lexer

def stops : List Char :=
  ['(', ')', '<', '>', ',', ' ']

def EndsWord (rest : List Char) : Prop :=
  ∀ c ∈ rest.head?, c ∈ stops

theorem isSpace_of_isWordStart {c : Char} (h : isWordStart c = true) : isSpace c = false := by
  have hmarks : c.toNat = 0x200e ∨ c.toNat = 0x200f ↔ 0x200e ≤ c.toNat ∧ c.toNat ≤ 0x200f := by
    omega
  have hspaces : isSpace c = CodeRanges.contains ((0x200e, 0x200f) :: blankRanges) c := by
    rw [Bool.eq_iff_iff]
    simp only [isSpace, isBlank, CodeRanges.contains, List.any_cons, Bool.or_eq_true,
      Bool.and_eq_true, beq_iff_eq, decide_eq_true_eq]
    rw [or_assoc, hmarks, or_comm]
  rw [hspaces]
  exact CodeRanges.contains_eq_false_of_apart (by decide +kernel)
    (wordStarts_contains h)

theorem isDigit_of_isWordStart {c : Char} (h : isWordStart c = true) : c.isDigit = false := by
  have hdigits : c.isDigit = CodeRanges.contains [(0x30, 0x39)] c := by
    simp [Char.isDigit, CodeRanges.contains, UInt32.le_iff_toNat_le]
  rw [hdigits]
  exact CodeRanges.contains_eq_false_of_apart (by decide +kernel)
    (wordStarts_contains h)

theorem ne_of_isWordStart {c d : Char} (hc : isWordStart c = true) (hd : isWordStart d = false) :
    c ≠ d := by
  intro heq
  rw [heq, hd] at hc
  cases hc

def Plain (cs : List Char) : Prop :=
  ∀ c ∈ cs.head?, c ∉ ['"', '\'', '#']

theorem plain_append {cs rest : List Char} (hcs : ∀ c ∈ cs, isWordContinue c = true)
    (hrest : EndsWord rest) : Plain (cs ++ rest) := by
  have hall : ['"', '\'', '#'].all (fun c => !isWordContinue c && !stops.contains c) = true := by
    decide
  have hquotes : ∀ c ∈ ['"', '\'', '#'], isWordContinue c = false ∧ c ∉ stops := by
    simpa using hall
  intro c hc hmem
  cases cs with
  | nil => exact (hquotes c hmem).2 (hrest c hc)
  | cons first cs =>
    cases hc
    have hcontinue := hcs c List.mem_cons_self
    rw [(hquotes c hmem).1] at hcontinue
    cases hcontinue

theorem readRaw_of_plain {kind : Literal.Kind} {cs : List Char} (h : Plain cs) :
    Literal.readRaw kind cs = none := by
  cases cs with
  | nil => rfl
  | cons c cs =>
    have hc := h c rfl
    have hhash : (c == '#') = false := by simp_all
    unfold Literal.readRaw
    rw [List.dropWhile_cons_of_neg (by simp [hhash])]
    split
    . next heq =>
      cases heq
      exact absurd hc (by decide)
    . rfl

theorem readInteger_of_isWordStart {c : Char} (h : isWordStart c = true) (cs : List Char) :
    Literal.readInteger (c :: cs) = none := by
  have hzero : c ≠ '0' := ne_of_isWordStart h (by decide)
  unfold Literal.readInteger
  split
  . next heq => exact absurd (List.cons.inj heq).1 hzero
  . next heq => exact absurd (List.cons.inj heq).1 hzero
  . next heq => exact absurd (List.cons.inj heq).1 hzero
  . rw [Literal.readDigits, isDigit_of_isWordStart h]
    simp only [Bool.false_eq_true, if_false]
    split
    . rfl
    . split
      . next d hd =>
        -- A letter is a digit of a larger base only.
        have hlarge : ¬ d < 10 := by
          simp only [Literal.hexDigit?, isDigit_of_isWordStart h, Bool.false_eq_true,
            if_false] at hd
          split at hd
          . cases hd
            omega
          . split at hd
            . cases hd
              omega
            . cases hd
        rw [if_neg hlarge]
        rfl
      . rfl

theorem read_of_word {c : Char} {cs : List Char} (hc : isWordStart c = true) (hplain : Plain cs)
    (hraw : ∀ rest, cs = 'r' :: rest → Plain rest) : Literal.read (c :: cs) = none := by
  have hstring : Literal.read.string? (c :: cs) = none := by
    unfold Literal.read.string?
    split
    . next heq => exact absurd (List.cons.inj heq).1 (ne_of_isWordStart hc (by decide))
    . next heq =>
      cases heq
      exact readRaw_of_plain hplain
    . rfl
  have hother : Literal.read.other? (c :: cs) = none := by
    unfold Literal.read.other?
    split
    . next heq =>
      cases heq
      exact absurd (hplain _ rfl) (by decide)
    . next heq =>
      cases heq
      rw [readRaw_of_plain (hraw _ rfl)]
      rfl
    . next heq =>
      cases heq
      exact absurd (hplain _ rfl) (by decide)
    . next heq =>
      cases heq
      rw [readRaw_of_plain (hraw _ rfl)]
      rfl
    . next heq =>
      cases heq
      exact absurd (hplain _ rfl) (by decide)
    . next heq => exact absurd (List.cons.inj heq).1 (ne_of_isWordStart hc (by decide))
    . rfl
  have hfloat : Literal.readFloat (c :: cs) = none := by
    rw [Literal.readFloat, isDigit_of_isWordStart hc]
    rfl
  rw [Literal.read, hstring, hother, hfloat, readInteger_of_isWordStart hc]
  rfl

def isWord : List Char → Bool
  | [] => false
  | c :: cs => isWordStart c && cs.all isWordContinue

theorem EndsWord.spans {rest : List Char} (h : EndsWord rest) {cs : List Char}
    (hcs : ∀ c ∈ cs, isWordContinue c = true) :
    (cs ++ rest).takeWhile isWordContinue = cs ∧ (cs ++ rest).dropWhile isWordContinue = rest := by
  have hall : stops.all (!isWordContinue ·) = true := by decide
  have hstops : ∀ c ∈ stops, isWordContinue c = false := by simpa using hall
  rw [List.takeWhile_append_of_pos hcs, List.dropWhile_append_of_pos hcs]
  cases rest with
  | nil => simp
  | cons c rest =>
    have hc := hstops c (h c rfl)
    rw [List.takeWhile_cons_of_neg (by simp [hc]), List.dropWhile_cons_of_neg (by simp [hc])]
    simp

theorem literalPrefixes_of_word {c : Char} {cs rest : List Char}
    (hcs : ∀ c ∈ cs, isWordContinue c = true) (hrest : EndsWord rest) :
    (literalPrefixes.any fun start => start.toList.isPrefixOf (c :: (cs ++ rest))) = false := by
  -- Behind its first letter each of them has a character that ends no word.
  have hmarks : literalPrefixes.all (fun start => (start.toList.tail.dropWhile
      isWordContinue).head?.any (!stops.contains ·)) = true := by decide
  rw [List.any_eq_false]
  intro start hmem hprefix
  obtain ⟨others, hothers⟩ := List.isPrefixOf_iff_prefix.1 hprefix
  have hstart := List.all_eq_true.1 hmarks start hmem
  cases hletters : start.toList with
  | nil =>
    rw [hletters] at hstart
    cases hstart
  | cons letter letters =>
    rw [hletters, List.cons_append] at hothers
    have hspans := (hrest.spans hcs).2
    rw [← (List.cons.inj hothers).2, List.dropWhile_append] at hspans
    rw [hletters, List.tail_cons] at hstart
    cases hdrop : letters.dropWhile isWordContinue with
    | nil =>
      rw [hdrop] at hstart
      cases hstart
    | cons d ds =>
      rw [hdrop] at hstart hspans
      have hd : d ∈ stops := hrest d (by rw [← hspans]; rfl)
      simp [hd] at hstart

theorem startsPunct_of_isWordStart {c : Char} (h : isWordStart c = true) (cs : List Char) :
    startsPunct (c :: cs) = false := by
  have hall : punctuation.all (!isWordStart ·) = true := by decide
  have hpunctuation : ∀ d ∈ punctuation, isWordStart d = false := by simpa using hall
  unfold startsPunct
  split
  . next heq => exact absurd (List.cons.inj heq).1 (ne_of_isWordStart h (by decide))
  . next heq => exact absurd (List.cons.inj heq).1 (ne_of_isWordStart h (by decide))
  . next heq =>
    cases heq
    rw [List.contains_eq_mem, decide_eq_false_iff_not]
    intro hmem
    rw [hpunctuation _ hmem] at h
    cases h
  . rfl

theorem step_of_isWordStart {c : Char} (h : isWordStart c = true) (cs : List Char) :
    step (c :: cs) = leaf (c :: cs) := by
  have hne : ∀ {d : Char} {ds : List Char}, isWordStart d = false → c :: cs ≠ d :: ds :=
    fun hd heq => ne_of_isWordStart h hd (List.cons.inj heq).1
  unfold step
  split
  . next hmistake =>
    obtain ⟨others, heq⟩ := List.isPrefixOf_iff_prefix.1 hmistake
    exact absurd heq.symm (hne (by decide))
  . split
    . next heq => cases heq
    . next heq => exact absurd heq (hne (by decide))
    . next heq => exact absurd heq (hne (by decide))
    . next heq => exact absurd heq (hne (by decide))
    . next heq => exact absurd heq (hne (by decide))
    . next heq => exact absurd heq (hne (by decide))
    . next heq => exact absurd heq (hne (by decide))
    . next heq => exact absurd heq (hne (by decide))
    . next heq => exact absurd heq (hne (by decide))
    . next heq =>
      cases heq
      rw [isSpace_of_isWordStart h]
      rfl

theorem spanIdentifier_of_word {c : Char} {cs rest : List Char} (hc : isWordStart c = true)
    (hcs : ∀ c ∈ cs, isWordContinue c = true) (hrest : EndsWord rest) :
    spanIdentifier (c :: (cs ++ rest)) = some (String.ofList (c :: cs), rest) := by
  obtain ⟨htake, hdrop⟩ := hrest.spans hcs
  unfold spanIdentifier
  split
  . next heq =>
    have hplain := plain_append hcs hrest
    rw [(List.cons.inj heq).2] at hplain
    exact absurd (hplain '#' rfl) (by decide)
  . rw [spanWord, if_pos hc, htake, hdrop]

theorem step_word {word rest : List Char} (hword : isWord word = true) (hrest : EndsWord rest) :
    step (word ++ rest)
      = some (fun position => [.leaf (.word (String.ofList word) position)], rest) := by
  cases word with
  | nil => cases hword
  | cons c cs =>
    rw [isWord, Bool.and_eq_true, List.all_eq_true] at hword
    obtain ⟨hc, hcs⟩ := hword
    have hraw : ∀ others, cs ++ rest = 'r' :: others → Plain others := by
      intro others heq
      cases cs with
      | nil =>
        rw [List.nil_append] at heq
        subst heq
        exact absurd (hrest 'r' rfl) (by decide)
      | cons d cs =>
        cases heq
        exact plain_append (fun c hmem => hcs c (List.mem_cons_of_mem _ hmem)) hrest
    have hread : Literal.read (c :: (cs ++ rest)) = none :=
      read_of_word hc (plain_append hcs hrest) hraw
    rw [List.cons_append, step_of_isWordStart hc, leaf, hread]
    . dsimp only
      rw [startsPunct_of_isWordStart hc, if_neg Bool.false_ne_true, identifier,
        literalPrefixes_of_word hcs hrest, spanIdentifier_of_word hc hcs hrest]
      rfl
    . exact ne_of_isWordStart hc (by decide)

theorem step_paren {rest : List Char} (h : rest.head? ≠ some '/') :
    step ('(' :: rest) = some (fun position => [.opening .paren position], rest) := by
  have hmistake : mistake.take 2 = ['(', '/'] := by decide
  have hprefix : mistake.isPrefixOf ('(' :: rest) = false := by
    rw [Bool.eq_false_iff, ne_eq, List.isPrefixOf_iff_prefix]
    intro hprefix
    have htake := List.IsPrefix.trans (List.take_prefix 2 mistake) hprefix
    rw [hmistake, List.prefix_cons_iff] at htake
    obtain hnil | ⟨others, heq, hothers⟩ := htake
    . cases hnil
    . rw [← (List.cons.inj heq).2] at hothers
      obtain ⟨more, hmore⟩ := hothers
      rw [← hmore] at h
      exact h rfl
  rw [step, hprefix]
  rfl

def treesFrom (position : Position) (frames : List Frame) (before : List TokenTree)
    (cs : List Char) : Option (List TokenTree) :=
  (lexemesFrom position cs).bind (nest frames before)

theorem lexemesFrom_of_step {text rest : List Char} {lexemes : Position → List Lexeme}
    (h : step (text ++ rest) = some (lexemes, rest)) (htext : text ≠ []) (position : Position) :
    lexemesFrom position (text ++ rest)
      = (lexemesFrom (position.advance text) rest).map (lexemes position ++ ·) := by
  have hlength : rest.length < (text ++ rest).length := by
    rw [List.length_append]
    have := List.length_pos_iff.2 htext
    omega
  have hempty : (text ++ rest).isEmpty = false := by simp [htext]
  have htake : (text ++ rest).take ((text ++ rest).length - rest.length) = text := by simp
  rw [lexemesFrom, hempty, if_neg Bool.false_ne_true]
  simp only [h, if_pos hlength, htake]
  cases lexemesFrom (position.advance text) rest <;> rfl

theorem treesFrom_of_step {text rest : List Char} {lexemes : Position → List Lexeme}
    (h : step (text ++ rest) = some (lexemes, rest)) (htext : text ≠ []) (position : Position)
    (frames : List Frame) (before : List TokenTree) :
    treesFrom position frames before (text ++ rest)
      = (lexemesFrom (position.advance text) rest).bind fun others =>
          nest frames before (lexemes position ++ others) := by
  rw [treesFrom, lexemesFrom_of_step h htext, Option.bind_map]
  rfl

/--
In front of a rest a text gives trees of some kind, wherever it stands and whatever brackets are
open.
-/
def Gives (text rest : List Char) (p : List TokenTree → Prop) : Prop :=
  ∀ position frames before, ∃ trees next, p trees
    ∧ treesFrom position frames before (text ++ rest)
      = treesFrom next frames (trees.reverse ++ before) rest

namespace Gives

variable {text other rest : List Char} {p q : List TokenTree → Prop}

theorem mono (h : Gives text rest p) (hpq : ∀ trees, p trees → q trees) : Gives text rest q := by
  intro position frames before
  obtain ⟨trees, next, hp, heq⟩ := h position frames before
  exact ⟨trees, next, hpq trees hp, heq⟩

theorem nil (rest : List Char) : Gives [] rest (· = []) :=
  fun position _ _ => ⟨[], position, rfl, rfl⟩

theorem append (h : Gives text (other ++ rest) p) (hother : Gives other rest q) :
    Gives (text ++ other) rest fun trees =>
      ∃ front back, p front ∧ q back ∧ trees = front ++ back := by
  intro position frames before
  obtain ⟨front, middle, hp, hfront⟩ := h position frames before
  obtain ⟨back, next, hq, hback⟩ := hother middle frames (front.reverse ++ before)
  refine ⟨front ++ back, next, ⟨front, back, hp, hq, rfl⟩, ?_⟩
  rw [List.append_assoc, hfront, hback, List.reverse_append, List.append_assoc]

theorem leaf {token : Position → TokenTree} (htext : text ≠ [])
    (h : step (text ++ rest) = some (fun position => [.leaf (token position)], rest)) :
    Gives text rest fun trees => ∃ position, trees = [token position] := by
  intro position frames before
  refine ⟨[token position], position.advance text, ⟨position, rfl⟩, ?_⟩
  rw [treesFrom_of_step h htext]
  rfl

theorem word (hword : isWord text = true) (hrest : EndsWord rest) :
    Gives text rest fun trees => ∃ position, trees = [.word (String.ofList text) position] := by
  apply leaf _ (step_word hword hrest)
  intro hnil
  subst hnil
  cases hword

theorem sign {c : Char} (hc : c ∈ ['<', '>', ',']) (rest : List Char) :
    Gives [c] rest fun trees => ∃ joint position, trees = [.punct c joint position] := by
  have hstep : step ([c] ++ rest)
      = some (fun position => [.leaf (.punct c (startsPunct rest) position)], rest) := by
    simp only [List.mem_cons, List.not_mem_nil, or_false] at hc
    rcases hc with rfl | rfl | rfl
    . rfl
    . rfl
    . rfl
  apply (leaf (List.cons_ne_nil _ _) hstep).mono
  rintro trees ⟨position, heq⟩
  exact ⟨_, position, heq⟩

theorem space (h : rest.dropWhile isSpace = rest) : Gives [' '] rest (· = []) := by
  have hstep : step ([' '] ++ rest) = some (fun _ => [], rest) := by
    have hskip : step (' ' :: rest) = skip (rest.dropWhile isSpace) := rfl
    rw [List.singleton_append, hskip, h]
    rfl
  intro position frames before
  refine ⟨[], position.advance [' '], rfl, ?_⟩
  rw [treesFrom_of_step hstep (List.cons_ne_nil _ _)]
  rfl

theorem paren (h : Gives text (')' :: rest) p) (htext : (text ++ ')' :: rest).head? ≠ some '/') :
    Gives ('(' :: text ++ [')']) rest fun trees =>
      ∃ body opened closed, p body ∧ trees = [.group .paren body opened closed] := by
  have hopening : step (['('] ++ (text ++ ')' :: rest))
      = some (fun position => [.opening .paren position], text ++ ')' :: rest) :=
    step_paren htext
  have hclosing : step ([')'] ++ rest)
      = some (fun position => [.closing .paren position], rest) := rfl
  intro position frames before
  obtain ⟨body, next, hp, hbody⟩ :=
    h (position.advance ['(']) (⟨.paren, position, before⟩ :: frames) []
  refine ⟨[.group .paren body position next], next.advance [')'],
    ⟨body, position, next, hp, rfl⟩, ?_⟩
  calc
    treesFrom position frames before ('(' :: text ++ [')'] ++ rest)
    _ = treesFrom position frames before (['('] ++ (text ++ ')' :: rest)) := by simp
    _ = treesFrom (position.advance ['(']) (⟨.paren, position, before⟩ :: frames) []
        (text ++ ')' :: rest) := by
      rw [treesFrom_of_step hopening (List.cons_ne_nil _ _)]
      rfl
    _ = treesFrom next (⟨.paren, position, before⟩ :: frames) body.reverse ([')'] ++ rest) := by
      rw [hbody, List.append_nil]
      rfl
    _ = treesFrom (next.advance [')']) frames
        (.group .paren body position next :: before) rest := by
      rw [treesFrom_of_step hclosing (List.cons_ne_nil _ _)]
      simp only [List.singleton_append, nest, if_true, List.reverse_reverse]
      rfl

end Gives

end Lexer

end Native

end Bindings
