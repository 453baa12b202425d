import Bindings.Identifier
import Bindings.Text.Blank
import Bindings.Text.Lines
import Bindings.Text.Quoted

/-!
This module contains the texts without a line feed. What is written line by line out of such texts
can be taken apart into the same lines again.
-/

namespace Bindings

namespace Text

def OneLine (text : String) : Prop :=
  '\n' ∉ text.toList

instance : DecidablePred OneLine :=
  fun text => inferInstanceAs (Decidable ('\n' ∉ text.toList))

theorem oneLine_append {text other : String} :
    OneLine (text ++ other) ↔ OneLine text ∧ OneLine other := by
  unfold OneLine
  rw [String.toList_append, List.mem_append, not_or]

theorem lineFeed_not_mem_of_mem_splitLines {cs line : List Char} (h : line ∈ splitLines cs) :
    '\n' ∉ line := by
  induction cs using splitLines.induct generalizing line with
  | case1 => cases h
  | case2 cs ih =>
    rw [splitLines, List.mem_cons] at h
    cases h with
    | inl heq =>
      rw [heq]
      exact List.not_mem_nil
    | inr hmem => exact ih hmem
  | case3 cs ih =>
    rw [splitLines, List.mem_cons] at h
    cases h with
    | inl heq =>
      rw [heq]
      exact List.not_mem_nil
    | inr hmem => exact ih hmem
  | case4 c cs hfeed _ hnil _ =>
    rw [splitLines, hnil, List.mem_singleton] at h
    . rw [h, List.mem_singleton]
      exact fun heq => hfeed heq.symm
    . exact hfeed
    . assumption
  | case5 c cs hfeed _ first rest hcons ih =>
    rw [hcons] at ih
    rw [splitLines, hcons, List.mem_cons] at h
    . cases h with
      | inl heq =>
        rw [heq, List.mem_cons, not_or]
        exact ⟨fun heq => hfeed heq.symm, ih List.mem_cons_self⟩
      | inr hmem => exact ih (List.mem_cons_of_mem _ hmem)
    . exact hfeed
    . assumption

theorem oneLine_of_mem_lines {text line : String} (h : line ∈ lines text) : OneLine line := by
  unfold lines at h
  rw [List.mem_map] at h
  obtain ⟨cs, hmem, heq⟩ := h
  unfold OneLine
  rw [← heq, String.toList_ofList]
  exact lineFeed_not_mem_of_mem_splitLines hmem

theorem mem_of_mem_trimEnd {c : Char} {cs : List Char} (h : c ∈ trimEnd cs) : c ∈ cs := by
  induction cs with
  | nil => cases h
  | cons first cs ih =>
    rw [trimEnd] at h
    split at h
    . split at h
      . cases h
      . rw [List.mem_singleton] at h
        rw [h]
        exact List.mem_cons_self
    . next hrest =>
      rw [List.mem_cons] at h ⊢
      exact h.imp_right ih

theorem splitOn_unlines {ls : List String} (h : ∀ line ∈ ls, OneLine line) :
    (unlines ls).toList.splitOn '\n' = ls.map String.toList ++ [[]] := by
  induction ls with
  | nil => rfl
  | cons line ls ih =>
    rw [List.forall_mem_cons] at h
    have hlist : (unlines (line :: ls)).toList = line.toList ++ '\n' :: (unlines ls).toList := by
      rw [unlines, String.append_assoc, String.toList_append, String.toList_append]
      rfl
    rw [hlist, List.splitOn_append_cons_self_of_not_mem h.1, ih h.2]
    rfl

end Text

namespace Identifier

theorem isContinue_of_mem {name : String} (h : isIdentifier name = true) :
    ∀ c ∈ name.toList, isContinue c = true := by
  unfold isIdentifier at h
  split at h
  . cases h
  . next first rest hname =>
    rw [Bool.and_eq_true, List.all_eq_true] at h
    rw [hname, List.forall_mem_cons]
    refine ⟨?_, h.2⟩
    have hfirst := h.1
    simp only [isStart, isContinue, Char.isAlphanum, Bool.or_eq_true] at hfirst ⊢
    rcases hfirst with (halpha | hunder) | hdollar
    . exact Or.inl (Or.inl (Or.inl halpha))
    . exact Or.inl (Or.inr hunder)
    . exact Or.inr hdollar

theorem not_mem_of_mem {name : String} {signs : List Char} (h : isIdentifier name = true)
    (hsigns : signs.all (fun c => !isContinue c) = true) : ∀ c ∈ name.toList, c ∉ signs := by
  intro c hmem hsign
  have hother := List.all_eq_true.1 hsigns c hsign
  rw [isContinue_of_mem h c hmem] at hother
  cases hother

theorem oneLine {name : String} (h : isIdentifier name = true) : Text.OneLine name :=
  fun hfeed => not_mem_of_mem h (by decide) '\n' hfeed (List.mem_singleton_self _)

end Identifier

namespace Text.Quoted

theorem isAlphanum_of_mem_hex {n : Nat} {c : Char} (h : c ∈ hex n) : c.isAlphanum = true := by
  have hdigit : ∀ d < 16, (Nat.digitChar d).isAlphanum = true := by decide
  unfold hex at h
  induction n using Nat.strongRecOn with
  | ind n ih =>
    rw [Nat.toDigits_eq_if (by decide)] at h
    split at h
    . next hlt =>
      rw [List.mem_singleton] at h
      rw [h]
      exact hdigit n hlt
    . next hle =>
      rw [List.mem_append, List.mem_singleton] at h
      cases h with
      | inl hmem => exact ih (n / 16) (by omega) hmem
      | inr heq =>
        rw [heq]
        exact hdigit (n % 16) (Nat.mod_lt n (by decide))

theorem lineFeed_not_mem_encodeChar (c : Char) : '\n' ∉ encodeChar c := by
  unfold encodeChar
  split
  . decide
  . decide
  . decide
  . decide
  . decide
  . decide
  . next hfeed _ _ =>
    split
    . rw [List.mem_singleton]
      exact fun heq => hfeed heq.symm
    . intro hmem
      simp only [codePoint, List.mem_append, List.mem_cons, List.not_mem_nil, or_false] at hmem
      rcases hmem with (hopen | hhex) | hclose
      . revert hopen
        decide
      . have halnum := isAlphanum_of_mem_hex hhex
        revert halnum
        decide
      . revert hclose
        decide

theorem oneLine_encode (text : String) : OneLine (encode text) := by
  unfold OneLine encode encodeChars
  rw [String.toList_ofList, List.cons_append, List.mem_cons, List.mem_append, List.mem_flatMap,
    List.mem_singleton]
  intro hmem
  rcases hmem with hopen | ⟨c, _, hc⟩ | hclose
  . revert hopen
    decide
  . exact lineFeed_not_mem_encodeChar c hc
  . revert hclose
    decide

end Text.Quoted

end Bindings
