import Bindings.Proofs.Text.Lexeme
import Bindings.Text.Join

/-!
This module contains the words of a text: what is written with the characters of identifiers outside
of comments and literals. A word with a colon or a question mark behind it is the name of a property
or a parameter and is left out.
-/

namespace Bindings.Text

def keyEnds : List Char :=
  [':', '?']

def finished (word : List Char) : List String :=
  if word.isEmpty then [] else [String.ofList word]

def wordsFrom (word : List Char) : List Lexeme → List String
  | [] => finished word
  | .sign c :: lexemes =>
    if Identifier.isContinue c then wordsFrom (word ++ [c]) lexemes
    else (if keyEnds.contains c then [] else finished word) ++ wordsFrom [] lexemes
  | .comment _ :: lexemes | .literal _ :: lexemes => finished word ++ wordsFrom [] lexemes

/--
The words of a text. None if it ends inside of a comment or a literal.
-/
def words (text : String) : Option (List String) :=
  (cut .outside text.toList).map (wordsFrom [])

example : words "/* a */ export type A = \x7b b?: C, \"d\": E \x7d;"
    = some ["export", "type", "A", "C", "E"] := by decide +kernel

def isSeparator (c : Char) : Bool :=
  c != '/' && c != '"' && !Identifier.isContinue c

def isBreak (text : String) : Bool :=
  text.toList.all isSeparator && text.toList.head?.any (!keyEnds.contains ·)

def isKeyEnd (text : String) : Bool :=
  text.toList.all isSeparator && text.toList.head?.any (keyEnds.contains ·)

def Stops (lexemes : List Lexeme) : Prop :=
  ∀ word, wordsFrom word lexemes = finished word ++ wordsFrom [] lexemes

def Clause (text : String) (words : List String) : Prop :=
  ∃ lexemes, Cuts text.toList lexemes
    ∧ ∀ rest, wordsFrom [] (lexemes ++ rest) = words ++ wordsFrom [] rest

/--
Wherever a text stands where no word has begun, it gives some words if what follows it ends the last
one.
-/
def Phrase (text : String) (words : List String) : Prop :=
  ∃ lexemes, Cuts text.toList lexemes
    ∧ ∀ rest, Stops rest → wordsFrom [] (lexemes ++ rest) = words ++ wordsFrom [] rest

@[simp]
theorem finished_nil : finished [] = [] := rfl

theorem finished_toList {text : String} (h : text.toList ≠ []) :
    finished text.toList = [text] := by
  unfold finished
  rw [if_neg, String.ofList_toList]
  rwa [List.isEmpty_iff]

theorem wordsFrom_append {cs : List Char} (h : ∀ c ∈ cs, Identifier.isContinue c = true)
    (word : List Char) (rest : List Lexeme) :
    wordsFrom word (cs.map .sign ++ rest) = wordsFrom (word ++ cs) rest := by
  induction cs generalizing word with
  | nil => simp
  | cons c cs ih =>
    rw [List.forall_mem_cons] at h
    rw [List.map_cons, List.cons_append, wordsFrom, if_pos h.1, ih h.2]
    simp

theorem wordsFrom_signs {cs : List Char} (h : cs.all isSeparator = true) (rest : List Lexeme) :
    wordsFrom [] (cs.map .sign ++ rest) = wordsFrom [] rest := by
  induction cs with
  | nil => simp
  | cons c cs ih =>
    simp only [List.all_cons, Bool.and_eq_true, isSeparator, Bool.not_eq_true'] at h
    rw [List.map_cons, List.cons_append, wordsFrom, if_neg (by simp [h.1.2]), ih h.2]
    simp

theorem cuts_signs {text : String} (h : text.toList.all isSeparator = true) :
    Cuts text.toList (text.toList.map .sign) := by
  rw [List.all_eq_true] at h
  apply cuts_of_forall
  intro c hmem
  have hc := h c hmem
  simp only [isSeparator, Bool.and_eq_true, bne_iff_ne] at hc
  exact hc.1

theorem wordsFrom_break {text : String} (h : text.toList.all isSeparator = true) {first : Char}
    (hfirst : text.toList.head? = some first) (word : List Char) (rest : List Lexeme) :
    wordsFrom word (text.toList.map .sign ++ rest)
      = (if keyEnds.contains first then [] else finished word) ++ wordsFrom [] rest := by
  obtain ⟨cs, heq⟩ := List.head?_eq_some_iff.1 hfirst
  rw [heq] at h ⊢
  rw [List.all_cons, Bool.and_eq_true] at h
  have hsign : Identifier.isContinue first = false := by
    simpa [isSeparator] using (Bool.and_eq_true_iff.1 h.1).2
  rw [List.map_cons, List.cons_append, wordsFrom, if_neg (by simp [hsign]), wordsFrom_signs h.2]

theorem Stops.of_break {text : String} (h : isBreak text = true) (rest : List Lexeme) :
    Stops (text.toList.map .sign ++ rest) := by
  obtain ⟨hsigns, hfirst⟩ := Bool.and_eq_true_iff.1 h
  obtain ⟨first, hhead, hkey⟩ := (Option.any_eq_true _ _).1 hfirst
  intro word
  rw [wordsFrom_break hsigns hhead, wordsFrom_signs hsigns, if_neg]
  simpa using hkey

namespace Clause

variable {text other : String} {words more : List String}

theorem nil : Clause "" [] :=
  ⟨[], Cuts.nil, fun _ => rfl⟩

theorem append (h : Clause text words) (hother : Clause other more) :
    Clause (text ++ other) (words ++ more) := by
  obtain ⟨lexemes, hcuts, hwords⟩ := h
  obtain ⟨others, hcuts', hwords'⟩ := hother
  refine ⟨lexemes ++ others, ?_, ?_⟩
  . rw [String.toList_append]
    exact hcuts.append hcuts'
  . intro rest
    rw [List.append_assoc, hwords, hwords', List.append_assoc]

theorem phrase (h : Clause text words) : Phrase text words := by
  obtain ⟨lexemes, hcuts, hwords⟩ := h
  exact ⟨lexemes, hcuts, fun rest _ => hwords rest⟩

theorem before (h : Clause text words) (hother : Phrase other more) :
    Phrase (text ++ other) (words ++ more) := by
  obtain ⟨lexemes, hcuts, hwords⟩ := h
  obtain ⟨others, hcuts', hwords'⟩ := hother
  refine ⟨lexemes ++ others, ?_, ?_⟩
  . rw [String.toList_append]
    exact hcuts.append hcuts'
  . intro rest hrest
    rw [List.append_assoc, hwords, hwords' rest hrest, List.append_assoc]

theorem words_eq (h : Clause text words) : Text.words text = some words := by
  obtain ⟨lexemes, hcuts, hwords⟩ := h
  have hall := hwords []
  rw [List.append_nil] at hall
  rw [Text.words, hcuts.cut_eq_some, Option.map_some, hall]
  simp [wordsFrom]

theorem signs (h : text.toList.all isSeparator = true) : Clause text [] :=
  ⟨_, cuts_signs h, wordsFrom_signs h⟩

theorem closed (h : Clause text words) (closing : String)
    (hclosing : closing.toList.all isSeparator = true) : Clause (text ++ closing) words := by
  have hall := h.append (signs hclosing)
  rwa [List.append_nil] at hall

theorem key {name : String} (hname : Identifier.isIdentifier name = true) (closing : String)
    (h : isKeyEnd closing = true) : Clause (name ++ closing) [] := by
  obtain ⟨hsigns, hfirst⟩ := Bool.and_eq_true_iff.1 h
  obtain ⟨first, hhead, hkey⟩ := (Option.any_eq_true _ _).1 hfirst
  have hcontinue := Identifier.isContinue_of_mem hname
  refine ⟨name.toList.map .sign ++ closing.toList.map .sign, ?_, ?_⟩
  . rw [String.toList_append]
    refine (cuts_of_forall ?_).append (cuts_signs hsigns)
    intro c hmem
    exact (isInert_cases (isInert_of_isContinue (hcontinue c hmem))).1
  . intro rest
    rw [List.append_assoc, wordsFrom_append hcontinue, wordsFrom_break hsigns hhead, if_pos hkey]

theorem literal (name : String) : Clause (Quoted.encode name) [] :=
  ⟨_, Quoted.cuts_encode name, fun _ => rfl⟩

end Clause

namespace Phrase

variable {text : String} {words : List String}

theorem word {name : String} (h : Identifier.isIdentifier name = true) : Phrase name [name] := by
  have hcontinue := Identifier.isContinue_of_mem h
  refine ⟨name.toList.map .sign, ?_, ?_⟩
  . apply cuts_of_forall
    intro c hmem
    exact (isInert_cases (isInert_of_isContinue (hcontinue c hmem))).1
  . intro rest hrest
    rw [wordsFrom_append hcontinue, List.nil_append, hrest, finished_toList]
    intro hnil
    simp [Identifier.isIdentifier, hnil] at h

theorem ended (h : Phrase text words) (closing : String) (hbreak : isBreak closing = true) :
    Clause (text ++ closing) words := by
  obtain ⟨lexemes, hcuts, hwords⟩ := h
  have hsigns := (Bool.and_eq_true_iff.1 hbreak).1
  refine ⟨lexemes ++ closing.toList.map .sign, ?_, ?_⟩
  . rw [String.toList_append]
    exact hcuts.append (cuts_signs hsigns)
  . intro rest
    rw [List.append_assoc, hwords _ (.of_break hbreak rest), wordsFrom_signs hsigns]

theorem spaced {name : String} (h : Identifier.isIdentifier name = true)
    (htext : text = name ++ " ") : Clause text [name] := by
  rw [htext]
  exact (word h).ended " " rfl

theorem enclosed (h : Phrase text words) (opening closing : String)
    (hopening : opening.toList.all isSeparator = true) (hclosing : isBreak closing = true) :
    Clause (opening ++ text ++ closing) words :=
  ((Clause.signs hopening).before h).ended closing hclosing

end Phrase

inductive Phrases : List String → List String → Prop
  | nil : Phrases [] []
  | cons {part : String} {parts words more : List String} (hpart : Phrase part words)
    (hparts : Phrases parts more) : Phrases (part :: parts) (words ++ more)

namespace Phrases

theorem eq_nil {parts words : List String} (h : Phrases parts words)
    (hempty : parts.isEmpty = true) : words = [] := by
  cases h with
  | nil => rfl
  | cons => cases hempty

theorem append {parts others words more : List String} (h : Phrases parts words)
    (hothers : Phrases others more) : Phrases (parts ++ others) (words ++ more) := by
  induction h with
  | nil => exact hothers
  | cons hpart _ ih =>
    rw [List.cons_append, List.append_assoc]
    exact .cons hpart ih

theorem map {elements : List α} {text : α → String} {words : α → List String}
    (h : ∀ element ∈ elements, Phrase (text element) (words element)) :
    Phrases (elements.map text) (elements.flatMap words) := by
  induction elements with
  | nil => exact .nil
  | cons element elements ih =>
    rw [List.forall_mem_cons] at h
    exact .cons h.1 (ih h.2)

theorem joinWith {parts words : List String} (h : Phrases parts words) (separator : String)
    (hseparator : isBreak separator = true) : Phrase (joinWith separator parts) words := by
  induction h with
  | nil => exact Clause.nil.phrase
  | @cons part parts words more hpart hparts ih =>
    cases hparts with
    | nil => simpa using hpart
    | cons hnext hparts =>
      rw [joinWith_cons_cons]
      exact (hpart.ended separator hseparator).before ih

end Phrases

end Bindings.Text
