import Bindings.Proofs.Text.OneLine

/-!
This module contains the cutting of a text into comments, literals and single characters by the
lexical rules of the target, and how the cutting goes through a text that is put together.
-/

namespace Bindings.Text

inductive Lexeme
  | comment (text : List Char)
  | literal (text : List Char)
  /-- A character outside of comments and literals. -/
  | sign (c : Char)
deriving DecidableEq, Repr

namespace Lexeme

def comment? : Lexeme → Option (List Char)
  | comment text => some text
  | _ => none

def literal? : Lexeme → Option (List Char)
  | literal text => some text
  | _ => none

def sign? : Lexeme → Option Char
  | sign c => some c
  | _ => none

def text : Lexeme → List Char
  | comment text => text
  | literal text => text
  | sign c => [c]

end Lexeme

inductive Mode
  | outside
  | comment (read : List Char)
  | literal (read : List Char)

def Mode.read : Mode → List Char
  | outside => []
  | comment read => read
  | literal read => read

/--
The lexemes of a text. A comment ends with the first `*/` behind its `/*`; in a literal a backslash
takes the next character with it. None if the text ends inside of a comment or a literal.
-/
@[simp]
def cut : Mode → List Char → Option (List Lexeme)
  | .outside, [] => some []
  | .comment _, [] => none
  | .literal _, [] => none
  | .outside, '/' :: '*' :: cs => cut (.comment ['/', '*']) cs
  | .outside, '"' :: cs => cut (.literal ['"']) cs
  | .outside, c :: cs => (cut .outside cs).map (.sign c :: ·)
  | .comment read, '*' :: '/' :: cs =>
    (cut .outside cs).map (.comment (read ++ ['*', '/']) :: ·)
  | .comment read, c :: cs => cut (.comment (read ++ [c])) cs
  | .literal read, '\\' :: c :: cs => cut (.literal (read ++ ['\\', c])) cs
  | .literal read, '"' :: cs => (cut .outside cs).map (.literal (read ++ ['"']) :: ·)
  | .literal read, c :: cs => cut (.literal (read ++ [c])) cs

theorem flatMap_text_of_cut {mode : Mode} {cs : List Char} {lexemes : List Lexeme}
    (h : cut mode cs = some lexemes) : lexemes.flatMap Lexeme.text = mode.read ++ cs := by
  induction mode, cs using cut.induct generalizing lexemes with
  | case1 =>
    cases h
    rfl
  | case2 => cases h
  | case3 => cases h
  | case4 cs ih =>
    rw [cut] at h
    simp [ih h, Mode.read]
  | case5 cs ih =>
    rw [cut] at h
    simp [ih h, Mode.read]
  | case6 c cs hslash hquote ih =>
    rw [cut] at h
    . obtain ⟨others, hrest, rfl⟩ := Option.map_eq_some_iff.1 h
      simp [ih hrest, Mode.read, Lexeme.text]
    . exact hslash
    . exact hquote
  | case7 read cs ih =>
    rw [cut] at h
    obtain ⟨others, hrest, rfl⟩ := Option.map_eq_some_iff.1 h
    simp [ih hrest, Mode.read, Lexeme.text]
  | case8 read c cs hstar ih =>
    rw [cut] at h
    . simp [ih h, Mode.read]
    . exact hstar
  | case9 read c cs ih =>
    rw [cut] at h
    simp [ih h, Mode.read]
  | case10 read cs ih =>
    rw [cut] at h
    obtain ⟨others, hrest, rfl⟩ := Option.map_eq_some_iff.1 h
    simp [ih hrest, Mode.read, Lexeme.text]
  | case11 read c cs hslash hquote ih =>
    rw [cut] at h
    . simp [ih h, Mode.read]
    . exact hslash
    . exact hquote

theorem cut_outside_cons {c : Char} (cs : List Char) (hslash : c ≠ '/') (hquote : c ≠ '"') :
    cut .outside (c :: cs) = (cut .outside cs).map (.sign c :: ·) := by
  rw [cut]
  . intro _ heq
    exact absurd heq hslash
  . exact hquote

theorem cut_comment_cons {c : Char} (read cs : List Char) (hstar : c ≠ '*') :
    cut (.comment read) (c :: cs) = cut (.comment (read ++ [c])) cs := by
  rw [cut]
  intro _ heq
  exact absurd heq hstar

theorem cut_literal_cons {c : Char} (read cs : List Char) (hslash : c ≠ '\\') (hquote : c ≠ '"') :
    cut (.literal read) (c :: cs) = cut (.literal (read ++ [c])) cs := by
  rw [cut]
  . intro _ _ heq
    exact absurd heq hslash
  . exact hquote

/--
Wherever a text stands outside of comments and literals, it gives some lexemes, and what follows it
stands outside again.
-/
def Cuts (text : List Char) (lexemes : List Lexeme) : Prop :=
  ∀ rest, cut .outside (text ++ rest) = (cut .outside rest).map (lexemes ++ ·)

def Commented (text : List Char) : Prop :=
  ∀ read rest, cut (.comment read) (text ++ rest) = cut (.comment (read ++ text)) rest

def Literal (text : List Char) : Prop :=
  ∀ read rest, cut (.literal read) (text ++ rest) = cut (.literal (read ++ text)) rest

theorem Cuts.cut_eq_some {text : List Char} {lexemes : List Lexeme} (h : Cuts text lexemes) :
    cut .outside text = some lexemes := by
  have hnil := h []
  simpa using hnil

theorem Cuts.nil : Cuts [] [] := by
  intro rest
  simp

theorem Cuts.append {text other : List Char} {lexemes others : List Lexeme}
    (h : Cuts text lexemes) (hother : Cuts other others) :
    Cuts (text ++ other) (lexemes ++ others) := by
  intro rest
  rw [List.append_assoc, h, hother, Option.map_map]
  simp only [Function.comp_def, List.append_assoc]

theorem Commented.append {text other : List Char} (h : Commented text)
    (hother : Commented other) : Commented (text ++ other) := by
  intro read rest
  rw [List.append_assoc, h, hother, List.append_assoc]

theorem Literal.append {text other : List Char} (h : Literal text) (hother : Literal other) :
    Literal (text ++ other) := by
  intro read rest
  rw [List.append_assoc, h, hother, List.append_assoc]

theorem commented_of_forall {text : List Char} (h : ∀ c ∈ text, c ≠ '*') : Commented text := by
  induction text with
  | nil =>
    intro read rest
    simp
  | cons c cs ih =>
    rw [List.forall_mem_cons] at h
    intro read rest
    rw [List.cons_append, cut_comment_cons _ _ h.1, ih h.2]
    simp

theorem literal_of_forall {text : List Char} (h : ∀ c ∈ text, c ≠ '\\' ∧ c ≠ '"') :
    Literal text := by
  induction text with
  | nil =>
    intro read rest
    simp
  | cons c cs ih =>
    rw [List.forall_mem_cons] at h
    intro read rest
    rw [List.cons_append, cut_literal_cons _ _ h.1.1 h.1.2, ih h.2]
    simp

theorem literal_escape (c : Char) : Literal ['\\', c] := by
  intro read rest
  simp

theorem Commented.cons {c d : Char} {text rest : List Char} (h : Commented text)
    (htext : text = d :: rest) (hc : c = '*' → d ≠ '/') : Commented (c :: text) := by
  intro read others
  have hstep : cut (.comment read) (c :: text ++ others)
      = cut (.comment (read ++ [c])) (text ++ others) := by
    rw [htext, List.cons_append, List.cons_append, cut]
    intro _ hstar heq
    exact hc hstar (List.cons.inj heq).1
  rw [hstep, h]
  simp

theorem Commented.cuts {text : List Char} (h : Commented text) :
    Cuts (['/', '*'] ++ text ++ ['*', '/']) [.comment (['/', '*'] ++ text ++ ['*', '/'])] := by
  intro rest
  have hopen : cut .outside (['/', '*'] ++ text ++ ['*', '/'] ++ rest)
      = cut (.comment ['/', '*']) (text ++ ('*' :: '/' :: rest)) := by
    simp
  rw [hopen, h]
  simp

theorem Literal.cuts {text : List Char} (h : Literal text) :
    Cuts ('"' :: text ++ ['"']) [.literal ('"' :: text ++ ['"'])] := by
  intro rest
  have hopen : cut .outside ('"' :: text ++ ['"'] ++ rest)
      = cut (.literal ['"']) (text ++ ('"' :: rest)) := by
    simp
  rw [hopen, h]
  simp

def isInert (c : Char) : Bool :=
  !(['/', '"', '(', ')', '[', ']', '\x7b', '\x7d', '<', '>'].contains c)

theorem cuts_of_forall {text : List Char} (h : ∀ c ∈ text, c ≠ '/' ∧ c ≠ '"') :
    Cuts text (text.map .sign) := by
  induction text with
  | nil => exact Cuts.nil
  | cons c cs ih =>
    rw [List.forall_mem_cons] at h
    intro rest
    rw [List.cons_append, cut_outside_cons _ h.1.1 h.1.2, ih h.2, Option.map_map]
    rfl

def brackets : List (Char × Char) :=
  [('(', ')'), ('[', ']'), ('\x7b', '\x7d'), ('<', '>')]

def isBracket (c : Char) : Bool :=
  brackets.any fun (opening, closing) => c == opening || c == closing

theorem isInert_cases {c : Char} (h : isInert c = true) :
    (c ≠ '/' ∧ c ≠ '"') ∧ isBracket c = false := by
  simp only [isInert, Bool.not_eq_true', List.contains_eq_mem, decide_eq_false_iff_not,
    List.mem_cons, List.not_mem_nil, or_false, not_or] at h
  simp only [isBracket, brackets, List.any_cons, List.any_nil, Bool.or_eq_false_iff,
    beq_eq_false_iff_ne]
  simp [h]

inductive Nested : List Char → Prop
  | nil : Nested []
  | other {c : Char} {rest : List Char} (hc : isBracket c = false) (hrest : Nested rest) :
    Nested (c :: rest)
  | group {opening closing : Char} {inner rest : List Char}
    (hpair : (opening, closing) ∈ brackets) (hinner : Nested inner) (hrest : Nested rest) :
    Nested (opening :: inner ++ closing :: rest)

theorem Nested.append {text other : List Char} (h : Nested text) (hother : Nested other) :
    Nested (text ++ other) := by
  induction h with
  | nil => exact hother
  | other hc _ ih => exact .other hc ih
  | group hpair hinner _ _ ih =>
    rw [List.append_assoc]
    exact .group hpair hinner ih

theorem nested_of_forall {text : List Char} (h : ∀ c ∈ text, isBracket c = false) :
    Nested text := by
  induction text with
  | nil => exact .nil
  | cons c cs ih =>
    rw [List.forall_mem_cons] at h
    exact .other h.1 (ih h.2)

theorem isInert_of_isContinue {c : Char} (h : Identifier.isContinue c = true) :
    isInert c = true := by
  have hnone : ['/', '"', '(', ')', '[', ']', '\x7b', '\x7d', '<', '>'].all
      (fun c => !Identifier.isContinue c) = true := by decide
  unfold isInert
  rw [Bool.not_eq_true', Bool.eq_false_iff]
  intro hmem
  have := List.all_eq_true.1 hnone c (List.contains_iff_mem.1 hmem)
  simp [h] at this

theorem isInert_of_isIdentifier {name : String} (h : Identifier.isIdentifier name = true) :
    name.toList.all isInert = true := by
  rw [List.all_eq_true]
  exact fun c hmem => isInert_of_isContinue (Identifier.isContinue_of_mem h c hmem)

def lineEnds : List Char :=
  ['\n', '\r', '\u2028', '\u2029']

namespace Quoted

theorem literal_codePoint (c : Char) : Literal (codePoint c) := by
  have hhex : ∀ d ∈ '\x7b' :: hex c.toNat ++ ['\x7d'], d ≠ '\\' ∧ d ≠ '"' := by
    simp only [List.cons_append, List.mem_cons, List.mem_append, List.not_mem_nil, or_false]
    rintro d (hopen | hmem | hclose)
    . subst hopen
      decide
    . have halnum := isAlphanum_of_mem_hex hmem
      constructor
      . rintro rfl
        revert halnum
        decide
      . rintro rfl
        revert halnum
        decide
    . subst hclose
      decide
  exact (literal_escape 'u').append (literal_of_forall hhex)

theorem literal_encodeChar (c : Char) : Literal (encodeChar c) := by
  unfold encodeChar
  split
  . exact literal_escape '0'
  . exact literal_escape 't'
  . exact literal_escape 'r'
  . exact literal_escape 'n'
  . exact literal_escape '\\'
  . exact literal_escape '"'
  . next hslash hquote =>
    split
    . apply literal_of_forall
      rw [List.forall_mem_singleton]
      exact ⟨hslash, hquote⟩
    . exact literal_codePoint c

theorem cuts_encode (text : String) :
    Cuts (encode text).toList [.literal (encode text).toList] := by
  have hliteral : Literal (text.toList.flatMap encodeChar) := by
    induction text.toList with
    | nil =>
      intro read rest
      simp
    | cons c cs ih => exact (literal_encodeChar c).append ih
  unfold encode encodeChars
  rw [String.toList_ofList]
  exact hliteral.cuts

theorem mem_encodeChar_cases {c d : Char} (h : d ∈ encodeChar c) :
    isPlain d = true ∨ d.isAlphanum = true ∨ d ∈ ['\\', '"', '\x7b', '\x7d'] := by
  unfold encodeChar at h
  split at h
  case h_7 =>
    split at h
    . next hplain =>
      rw [List.mem_singleton] at h
      rw [h]
      exact Or.inl hplain
    . simp only [codePoint, List.mem_append, List.mem_cons, List.not_mem_nil, or_false] at h
      rcases h with ((hslash | hu | hopen) | hhex) | hclose
      . simp [hslash]
      . simp [hu]
      . simp [hopen]
      . exact Or.inr (Or.inl (isAlphanum_of_mem_hex hhex))
      . simp [hclose]
  all_goals
    refine Or.inr ?_
    simp only [List.mem_cons, List.not_mem_nil, or_false] at h
    rcases h with rfl | rfl
    . decide
    . decide

theorem lineEnds_not_mem_encode (text : String) :
    ∀ c ∈ (encode text).toList, c ∉ lineEnds := by
  have hends : lineEnds.all (fun c => !isPlain c && !c.isAlphanum
      && !(['\\', '"', '\x7b', '\x7d'].contains c)) = true := by decide +kernel
  intro c hmem hend
  obtain ⟨⟨hplain, halnum⟩, hsign⟩ : (isPlain c = false ∧ c.isAlphanum = false)
      ∧ c ∉ ['\\', '"', '\x7b', '\x7d'] := by simpa using List.all_eq_true.1 hends c hend
  unfold encode encodeChars at hmem
  rw [String.toList_ofList, List.cons_append, List.mem_cons, List.mem_append, List.mem_flatMap,
    List.mem_singleton] at hmem
  rcases hmem with hopen | ⟨_, _, hc⟩ | hclose
  . simp [hopen] at hsign
  . rcases mem_encodeChar_cases hc with h | h | h
    . simp [hplain] at h
    . simp [halnum] at h
    . exact hsign h
  . simp [hclose] at hsign

end Quoted

end Bindings.Text
