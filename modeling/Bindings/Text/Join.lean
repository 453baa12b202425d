/-!
This module contains the joining of texts with a separator.
-/

namespace Bindings.Text

def joinWith (separator : String) : List String → String
  | [] => ""
  | [part] => part
  | part :: parts => part ++ separator ++ joinWith separator parts

@[simp]
theorem joinWith_nil (separator : String) : joinWith separator [] = "" := rfl

@[simp]
theorem joinWith_singleton (separator part : String) : joinWith separator [part] = part := rfl

theorem joinWith_cons_cons (separator part next : String) (parts : List String) :
    joinWith separator (part :: next :: parts)
      = part ++ separator ++ joinWith separator (next :: parts) := rfl

theorem joinWith_cons {separator part : String} {parts : List String} (h : parts ≠ []) :
    joinWith separator (part :: parts) = part ++ separator ++ joinWith separator parts := by
  cases parts with
  | nil => exact absurd rfl h
  | cons next parts => rfl

theorem joinWith_eq_intercalate (separator : String) (parts : List String) :
    joinWith separator parts = separator.intercalate parts := by
  induction parts with
  | nil => rfl
  | cons part parts ih =>
    cases parts with
    | nil => simp
    | cons next parts => rw [joinWith_cons_cons, ih, String.intercalate_cons_cons]

theorem joinWith_map_ofList (separator : String) (parts : List (List Char)) :
    joinWith separator (parts.map String.ofList)
      = String.ofList (separator.toList.intercalate parts) := by
  apply String.toList_inj.1
  rw [joinWith_eq_intercalate, String.toList_intercalate, String.toList_ofList, List.map_map]
  simp [Function.comp_def]

end Bindings.Text
