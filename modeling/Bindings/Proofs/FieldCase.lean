import Bindings.RenameRule

/-!
This module contains what the case conventions make of the names of fields. For all ASCII names
Pascal case joins the parts between underscores with capitals at their beginnings, and camel case is
Pascal case with a small letter at its beginning, except where dropping the underscores leaves a
capital there.
-/

namespace Bindings

namespace Naming

def nameParts (name : String) : List (List Char) :=
  name.toList.splitOnP (· == '_')

def capitalize : List Char → List Char
  | [] => []
  | c :: cs => c.toUpper :: cs

def lowerFirst (text : String) : String :=
  String.ofList (mapFirst (fun c => [c.toLower]) text.toList)

/--
Whether a name begins with a capital, or with underscores that raise the letter behind them.
-/
def beginsRaised (name : String) : Bool :=
  match name.toList with
  | [] => false
  | c :: cs =>
    if c == '_' then (cs.dropWhile (· == '_')).head?.any Char.isAlpha else c.isUpper

theorem forall_ascii {p : Char → Prop} (h : ∀ n < 128, p (Char.ofNat n)) (c : Char)
    (hc : c.toNat < 128) : p c := by
  rw [← Char.ofNat_toNat c]
  exact h c.toNat hc

theorem camelChars_of_splitOnP {cs part : List Char} {parts : List (List Char)}
    (h : cs.splitOnP (· == '_') = part :: parts) :
    camelChars false cs = part ++ parts.flatMap capitalize
      ∧ camelChars true cs = capitalize part ++ parts.flatMap capitalize := by
  induction cs generalizing part parts with
  | nil =>
    rw [List.splitOnP_nil] at h
    cases h
    exact ⟨rfl, rfl⟩
  | cons c cs ih =>
    rw [List.splitOnP_cons_eq_if_modifyHead] at h
    obtain ⟨first, others, hsplit⟩ := List.exists_cons_of_ne_nil (List.splitOnP_ne_nil _ cs)
    obtain ⟨hfalse, htrue⟩ := ih hsplit
    unfold camelChars
    split at h <;> rename_i hc
    . cases h
      simp only [hc, if_true, htrue, hsplit, List.flatMap_cons, List.nil_append, capitalize,
        and_self]
    . rw [hsplit, List.modifyHead_cons] at h
      cases h
      simp only [hc, if_false, hfalse, if_true, List.cons_append, capitalize, and_self,
        Bool.false_eq_true]

theorem upperCase_of_ascii {c : Char} (h : c.toNat < 128) : Text.upperCase c = [c.toUpper] := by
  refine forall_ascii (p := fun c => Text.upperCase c = [c.toUpper]) ?_ c h
  decide +kernel

theorem upperCase_toUpper_of_ascii {c : Char} (h : c.toNat < 128) :
    Text.upperCase c.toUpper = [c.toUpper] := by
  refine forall_ascii (p := fun c => Text.upperCase c.toUpper = [c.toUpper]) ?_ c h
  decide +kernel

theorem toLower_toUpper_iff_of_ascii {c : Char} (h : c.toNat < 128) :
    c.toUpper.toLower = c ↔ c.isUpper = false := by
  refine forall_ascii (p := fun c => c.toUpper.toLower = c ↔ c.isUpper = false) ?_ c h
  decide +kernel

theorem toLower_toUpper_eq_toUpper_iff_of_ascii {c : Char} (h : c.toNat < 128) :
    c.toUpper.toLower = c.toUpper ↔ c.isAlpha = false := by
  refine forall_ascii (p := fun c => c.toUpper.toLower = c.toUpper ↔ c.isAlpha = false) ?_ c h
  decide +kernel

theorem mapFirst_upperCase_camelChars (raise : Bool) {cs : List Char}
    (hascii : ∀ c ∈ cs, c.toNat < 128) :
    mapFirst Text.upperCase (camelChars raise cs) = camelChars true cs := by
  induction cs generalizing raise with
  | nil => rfl
  | cons c cs ih =>
    obtain ⟨hc, hcs⟩ := List.forall_mem_cons.1 hascii
    by_cases hline : c = '_'
    . simp only [camelChars, hline, beq_self_eq_true, if_true]
      exact ih true hcs
    . cases raise with
      | false => simp [camelChars, hline, mapFirst, upperCase_of_ascii hc]
      | true => simp [camelChars, hline, mapFirst, upperCase_toUpper_of_ascii hc]

theorem camelChars_eq_lowered_iff {cs : List Char} (hascii : ∀ c ∈ cs, c.toNat < 128) :
    camelChars true cs = mapFirst (fun c => [c.toLower]) (camelChars true cs)
      ↔ (cs.dropWhile (· == '_')).head?.any Char.isAlpha = false := by
  induction cs with
  | nil => simp [camelChars, mapFirst]
  | cons c cs ih =>
    obtain ⟨hc, hcs⟩ := List.forall_mem_cons.1 hascii
    by_cases hline : c = '_'
    . simp only [camelChars, hline, beq_self_eq_true, if_true, List.dropWhile_cons_of_pos]
      exact ih hcs
    . have hkept : (c == '_') = false := beq_eq_false_iff_ne.2 hline
      simp only [camelChars, hkept, Bool.false_eq_true, if_false, if_true, mapFirst,
        List.cons_append, List.nil_append, List.cons.injEq, and_true, List.dropWhile_cons,
        List.head?_cons, Option.any_some]
      rw [eq_comm]
      exact toLower_toUpper_eq_toUpper_iff_of_ascii hc

theorem toCamelCase_eq_iff {name : String} (hascii : ∀ c ∈ name.toList, c.toNat < 128) :
    toCamelCase name = lowerFirst (toPascalCase name) ↔ beginsRaised name = false := by
  unfold toCamelCase lowerFirst toPascalCase beginsRaised
  rw [String.toList_ofList, mapFirst_upperCase_camelChars false hascii, String.ofList_inj]
  cases hname : name.toList with
  | nil => simp [camelChars, mapFirst]
  | cons c cs =>
    rw [hname] at hascii
    obtain ⟨hc, hcs⟩ := List.forall_mem_cons.1 hascii
    by_cases hline : c = '_'
    . simp only [camelChars, hline, beq_self_eq_true, if_true]
      exact camelChars_eq_lowered_iff hcs
    . have hkept : (c == '_') = false := beq_eq_false_iff_ne.2 hline
      simp only [camelChars, hkept, Bool.false_eq_true, if_false, if_true, mapFirst,
        List.cons_append, List.nil_append, List.cons.injEq, and_true]
      rw [eq_comm]
      exact toLower_toUpper_iff_of_ascii hc

theorem toPascalCase_eq {name : String} (hascii : ∀ c ∈ name.toList, c.toNat < 128) :
    (toPascalCase name).toList = (nameParts name).flatMap capitalize := by
  obtain ⟨part, parts, hparts⟩ :=
    List.exists_cons_of_ne_nil (List.splitOnP_ne_nil (· == '_') name.toList)
  unfold toPascalCase nameParts
  rw [String.toList_ofList, mapFirst_upperCase_camelChars false hascii, hparts,
    (camelChars_of_splitOnP hparts).2, List.flatMap_cons]

theorem toCamelCase_eq (name : String) :
    (toCamelCase name).toList
      = (nameParts name).headD [] ++ (nameParts name).tail.flatMap capitalize := by
  obtain ⟨part, parts, hparts⟩ :=
    List.exists_cons_of_ne_nil (List.splitOnP_ne_nil (· == '_') name.toList)
  unfold toCamelCase nameParts
  rw [String.toList_ofList, hparts, (camelChars_of_splitOnP hparts).1, List.headD_cons,
    List.tail_cons]

theorem hyphenate_upperAscii {name : String} (hascii : ∀ c ∈ name.toList, c.toNat < 128) :
    (hyphenate (upperAscii name)).toList
      = name.toList.map fun c => if c == '_' then '-' else c.toUpper := by
  unfold hyphenate upperAscii
  rw [String.toList_map, String.toList_map, List.map_map]
  apply List.map_congr_left
  intro c hmem
  refine forall_ascii (p := fun c => (if c.toUpper == '_' then '-' else c.toUpper)
    = if c == '_' then '-' else c.toUpper) ?_ c (hascii c hmem)
  decide +kernel

end Naming

namespace RenameRule

open Naming

/--
What the conventions make of the name of a field. Camel case leaves the first part as it is, so it
is Pascal case with a small letter at its beginning only where the name does not begin raised; every
other convention keeps to its rule.
-/
theorem applyToField_of_ascii {name : String} (hascii : ∀ c ∈ name.toList, c.toNat < 128) :
    (pascal.applyToField name).toList = (nameParts name).flatMap capitalize
      ∧ (camel.applyToField name).toList
        = (nameParts name).headD [] ++ (nameParts name).tail.flatMap capitalize
      ∧ (camel.applyToField name = lowerFirst (pascal.applyToField name)
        ↔ beginsRaised name = false)
      ∧ (∀ rule ∈ [lower, snake], rule.applyToField name = name)
      ∧ (∀ rule ∈ [upper, screamingSnake],
        (rule.applyToField name).toList = name.toList.map Char.toUpper)
      ∧ (kebab.applyToField name).toList
        = name.toList.map (fun c => if c == '_' then '-' else c)
      ∧ (screamingKebab.applyToField name).toList
        = name.toList.map (fun c => if c == '_' then '-' else c.toUpper) := by
  refine ⟨toPascalCase_eq hascii, toCamelCase_eq name, toCamelCase_eq_iff hascii, ?_, ?_, ?_,
    hyphenate_upperAscii hascii⟩
  . simp [applyToField]
  . simp [applyToField, upperAscii]
  . simp [applyToField, hyphenate]

theorem applyToField_nextPage :
    (∀ c ∈ "next__page_2".toList, c.toNat < 128) ∧ beginsRaised "next__page_2" = false
      ∧ pascal.applyToField "next__page_2" = "NextPage2"
      ∧ camel.applyToField "next__page_2" = lowerFirst (pascal.applyToField "next__page_2") := by
  have hascii : ∀ c ∈ "next__page_2".toList, c.toNat < 128 := by simp
  have hraised : beginsRaised "next__page_2" = false := by decide
  obtain ⟨hpascal, -, hcamel, -⟩ := applyToField_of_ascii hascii
  exact ⟨hascii, hraised, String.toList_inj.1 (hpascal.trans (by decide)), hcamel.2 hraised⟩

/--
An underscore at the beginning raises the letter behind it in camel case too.
-/
theorem camel_privateField :
    camel.applyToField "_private_field" = "PrivateField"
      ∧ lowerFirst (pascal.applyToField "_private_field") = "privateField" := by
  decide +kernel

end RenameRule

end Bindings
