import Bindings.Proofs.Text.OneLine
import Bindings.Text.Join

/-!
This module contains which texts the splitting into lines gives back: lines without a line feed and
without a carriage return at their end, joined by line feeds or each followed by one. Lines without
white space at their end are of this kind.
-/

namespace Bindings.Text

/--
Nothing of a line is taken for a part of a line end, also with a line feed behind it.
-/
structure IsLine (cs : List Char) : Prop where
  lineFeed_not_mem : '\n' ∉ cs
  getLast?_ne : cs.getLast? ≠ some '\r'

def IsTrimmed (cs : List Char) : Prop :=
  ∀ c, cs.getLast? = some c → isBlank c = false

theorem isTrimmed_trimEnd (cs : List Char) : IsTrimmed (trimEnd cs) := by
  induction cs with
  | nil =>
    intro c h
    cases h
  | cons c cs ih =>
    rw [trimEnd]
    split
    . split
      . intro d h
        cases h
      . next hblank =>
        intro d h
        cases h
        exact Bool.eq_false_iff.2 hblank
    . next rest hrest =>
      intro d h
      apply ih d
      rw [← h, List.getLast?_cons_of_ne_nil hrest]

theorem IsTrimmed.tail {c : Char} {cs : List Char} (h : IsTrimmed (c :: cs)) : IsTrimmed cs := by
  intro d hd
  apply h d
  rw [List.getLast?_cons, hd]
  rfl

theorem IsTrimmed.trimEnd_eq {cs : List Char} (h : IsTrimmed cs) : trimEnd cs = cs := by
  induction cs with
  | nil => rfl
  | cons c cs ih =>
    rw [trimEnd, ih h.tail]
    cases cs with
    | nil => simp [h c rfl]
    | cons d cs => rfl

theorem IsTrimmed.isLine {cs : List Char} (h : IsTrimmed cs) (hfeed : '\n' ∉ cs) : IsLine cs where
  lineFeed_not_mem := hfeed
  getLast?_ne hreturn := by
    have := h '\r' hreturn
    revert this
    decide

theorem IsLine.tail {c : Char} {cs : List Char} (h : IsLine (c :: cs)) : IsLine cs where
  lineFeed_not_mem hfeed := h.lineFeed_not_mem (List.mem_cons_of_mem c hfeed)
  getLast?_ne hreturn := h.getLast?_ne (by rw [List.getLast?_cons, hreturn]; rfl)

theorem splitLines_cons {c : Char} {cs : List Char} (hfeed : c ≠ '\n')
    (hreturn : c = '\r' → cs.head? ≠ some '\n') :
    splitLines (c :: cs) =
      match splitLines cs with
      | [] => [[c]]
      | line :: lines => (c :: line) :: lines := by
  apply splitLines.eq_4 c cs hfeed
  rintro rest rfl rfl
  exact hreturn rfl rfl

theorem splitLines_append_lineFeed {cs : List Char} (h : IsLine cs) (rest : List Char) :
    splitLines (cs ++ '\n' :: rest) = cs :: splitLines rest := by
  induction cs with
  | nil => rw [List.nil_append, splitLines]
  | cons c cs ih =>
    have hfeed : '\n' ≠ c ∧ '\n' ∉ cs := not_or.1 (mt List.mem_cons.2 h.lineFeed_not_mem)
    rw [List.cons_append, splitLines_cons hfeed.1.symm, ih h.tail]
    -- A carriage return at the end would be taken for a part of the line end.
    rintro rfl hhead
    cases cs with
    | nil => exact h.getLast?_ne rfl
    | cons d cs =>
      cases hhead
      exact hfeed.2 List.mem_cons_self

theorem splitLines_of_lineFeed_not_mem {cs : List Char} (hfeed : '\n' ∉ cs) (hne : cs ≠ []) :
    splitLines cs = [cs] := by
  induction cs with
  | nil => exact absurd rfl hne
  | cons c cs ih =>
    rw [List.mem_cons, not_or] at hfeed
    have hhead : cs.head? ≠ some '\n' := fun hhead => hfeed.2 (List.mem_of_head? hhead)
    rw [splitLines_cons (Ne.symm hfeed.1) fun _ => hhead]
    cases cs with
    | nil => rfl
    | cons d cs => rw [ih hfeed.2 (List.cons_ne_nil d cs)]

theorem lines_append_lineFeed {line : String} (h : IsLine line.toList) (rest : String) :
    lines (line ++ "\n" ++ rest) = line :: lines rest := by
  have hlist : (line ++ "\n" ++ rest).toList = line.toList ++ '\n' :: rest.toList := by
    simp [String.toList_append]
  unfold lines
  rw [hlist, splitLines_append_lineFeed h, List.map_cons, String.ofList_toList]

theorem lines_joinWith {ls : List String} (h : ∀ line ∈ ls, IsLine line.toList)
    (hlast : ls.getLast? ≠ some "") : lines (joinWith "\n" ls) = ls := by
  induction ls with
  | nil => rfl
  | cons line ls ih =>
    rw [List.forall_mem_cons] at h
    cases ls with
    | nil =>
      have hne : line.toList ≠ [] := by
        intro hnil
        apply hlast
        rw [List.getLast?_singleton, String.toList_eq_nil_iff.1 hnil]
      unfold lines
      rw [joinWith_singleton, splitLines_of_lineFeed_not_mem h.1.lineFeed_not_mem hne,
        List.map_singleton, String.ofList_toList]
    | cons next ls =>
      rw [joinWith_cons_cons, lines_append_lineFeed h.1, ih h.2]
      rwa [List.getLast?_cons_cons] at hlast

theorem lines_unlines {ls : List String} (h : ∀ line ∈ ls, IsLine line.toList) :
    lines (unlines ls) = ls := by
  induction ls with
  | nil => rfl
  | cons line ls ih =>
    rw [List.forall_mem_cons] at h
    rw [unlines, lines_append_lineFeed h.1, ih h.2]

end Bindings.Text
