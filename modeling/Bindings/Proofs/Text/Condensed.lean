import Bindings.Proofs.Artifact.Lines
import Bindings.Text.Infix
import Bindings.Text.Join

/-!
This module contains how a text is condensed: the comments that have lines of their own are dropped,
and unions whose members have a line each are written on one line.
-/

namespace Bindings.Text

def feedLines (text : String) : List String :=
  (text.toList.splitOn '\n').map String.ofList

def content (line : String) : List Char :=
  line.toList.dropWhile (· == ' ')

def opensComment (line : String) : Bool :=
  content line == "/**".toList

def closesComment (line : String) : Bool :=
  holds line.toList "*/".toList

/--
The lines outside of comments. A comment ends with the first line that holds the closing sign.
-/
def dropComments (inside : Bool) : List String → List String
  | [] => []
  | line :: lines =>
    if inside then
      dropComments (!closesComment line) lines
    else if opensComment line then
      dropComments true lines
    else
      line :: dropComments false lines

def isMember (line : String) : Bool :=
  "| ".toList.isPrefixOf (content line)

def member (line : String) : String :=
  String.ofList ((content line).drop 2)

def joinUnions : List String → List String
  | [] => []
  | line :: lines =>
    let rest := joinUnions lines
    if !isMember line && line.toList.getLast? == some '=' then
      (line ++ " " ++ joinWith " | " ((rest.takeWhile isMember).map member))
        :: rest.dropWhile isMember
    else
      line :: rest

def condenseLines (lines : List String) : List String :=
  joinUnions (dropComments false lines)

def condense (text : String) : String :=
  joinWith "\n" (condenseLines (feedLines text))

theorem feedLines_unlines {lines : List String} (h : ∀ line ∈ lines, OneLine line) :
    feedLines (unlines lines) = lines ++ [""] := by
  unfold feedLines
  rw [splitOn_unlines h]
  simp

theorem joinWith_feed (lines : List String) : joinWith "\n" (lines ++ [""]) = unlines lines := by
  induction lines with
  | nil => rfl
  | cons line lines ih =>
    rw [unlines, ← ih]
    cases lines with
    | nil => rfl
    | cons next lines => rfl

section Content

open Artifact

theorem content_append_of_blank {margin : String} (h : Blank margin) (line : String) :
    content (margin ++ line) = content line := by
  unfold content
  rw [String.toList_append, List.dropWhile_append_of_pos]
  intro c hmem
  rw [h c hmem]
  rfl

theorem content_of_beginsWith {c : Char} {line : String} (h : BeginsWith c line) (hc : c ≠ ' ') :
    content line = line.toList := by
  obtain ⟨cs, heq⟩ := h
  unfold content
  rw [heq, List.dropWhile_cons_of_neg]
  simpa using hc

def EndsWith (c : Char) (text : String) : Prop :=
  ∃ cs, text.toList = cs ++ [c]

theorem EndsWith.append {c : Char} {text : String} (h : EndsWith c text) (other : String) :
    EndsWith c (other ++ text) := by
  obtain ⟨cs, heq⟩ := h
  refine ⟨other.toList ++ cs, ?_⟩
  rw [String.toList_append, heq, List.append_assoc]

theorem opensComment_of_endsWith {c : Char} {line : String} (h : EndsWith c line) (hspace : c ≠ ' ')
    (hstar : c ≠ '*') : opensComment line = false := by
  obtain ⟨cs, heq⟩ := h
  have hcontent : ∃ rest, content line = rest ++ [c] := by
    unfold content
    rw [heq, List.dropWhile_append]
    split
    . refine ⟨[], ?_⟩
      rw [List.dropWhile_cons_of_neg]
      . rfl
      . simpa using hspace
    . exact ⟨_, rfl⟩
  obtain ⟨rest, hrest⟩ := hcontent
  unfold opensComment
  rw [hrest, beq_eq_false_iff_ne]
  intro hopen
  have hlast := congrArg List.getLast? hopen
  rw [List.getLast?_concat] at hlast
  cases hlast
  exact hstar rfl

theorem content_member {margin : String} (hmargin : Blank margin) (text : String) :
    content (margin ++ "| " ++ text) = '|' :: ' ' :: text.toList := by
  have hbar : BeginsWith '|' "| " := ⟨[' '], rfl⟩
  rw [String.append_assoc, content_append_of_blank hmargin,
    content_of_beginsWith (hbar.append text) (by decide), String.toList_append]
  rfl

theorem isMember_of_blank {margin : String} (hmargin : Blank margin) (text : String) :
    isMember (margin ++ "| " ++ text) = true := by
  unfold isMember
  rw [content_member hmargin]
  rfl

theorem member_of_blank {margin : String} (hmargin : Blank margin) (text : String) :
    member (margin ++ "| " ++ text) = text := by
  unfold member
  rw [content_member hmargin]
  simp

theorem opensComment_of_isMember {line : String} (h : isMember line = true) :
    opensComment line = false := by
  unfold isMember at h
  unfold opensComment
  rw [beq_eq_false_iff_ne]
  intro hopen
  rw [hopen] at h
  cases h

theorem dropComments_member {line : String} (h : isMember line = true) (rest : List String) :
    dropComments false (line :: rest) = line :: dropComments false rest := by
  rw [dropComments, opensComment_of_isMember h]
  rfl

theorem joinUnions_members {lines : List String} (h : ∀ line ∈ lines, isMember line = true)
    (rest : List String) : joinUnions (lines ++ rest) = lines ++ joinUnions rest := by
  induction lines with
  | nil => rfl
  | cons line lines ih =>
    rw [List.forall_mem_cons] at h
    simp [joinUnions, h.1, ih h.2]

end Content

def Condenses (lines condensed : List String) : Prop :=
  ∀ rest, condenseLines (lines ++ rest) = condensed ++ condenseLines rest

namespace Condenses

theorem nil : Condenses [] [] := by
  intro rest
  rfl

theorem append {lines condensed others more : List String} (h : Condenses lines condensed)
    (hothers : Condenses others more) : Condenses (lines ++ others) (condensed ++ more) := by
  intro rest
  rw [List.append_assoc, h, hothers, List.append_assoc]

theorem flatMap {lines condensed : α → List String}
    (h : ∀ element, Condenses (lines element) (condensed element)) (elements : List α) :
    Condenses (elements.flatMap lines) (elements.flatMap condensed) := by
  induction elements with
  | nil => exact nil
  | cons element elements ih => exact (h element).append ih

theorem line {line : String} (hopens : opensComment line = false)
    (hlast : line.toList.getLast? ≠ some '=') : Condenses [line] [line] := by
  intro rest
  unfold condenseLines
  simp [dropComments, joinUnions, hopens, hlast]

theorem of_endsWith {c : Char} {line : String} (h : EndsWith c line)
    (hc : c ∉ [' ', '*', '=']) : Condenses [line] [line] := by
  simp only [List.mem_cons, List.not_mem_nil, or_false, not_or] at hc
  apply Condenses.line
  . exact opensComment_of_endsWith h hc.1 hc.2.1
  . obtain ⟨cs, heq⟩ := h
    rw [heq, List.getLast?_concat, ne_eq, Option.some.injEq]
    exact hc.2.2

theorem statement (text : String) : Condenses [text ++ ";"] [text ++ ";"] :=
  of_endsWith (EndsWith.append ⟨[], rfl⟩ text) (by decide)

theorem empty : Condenses [""] [""] :=
  line rfl (by decide)

end Condenses

end Bindings.Text
