import Bindings.Proofs.FieldCase
import Bindings.Text.Join

/-!
This module contains the names on which snake case and Pascal case undo each other: a capital and
what follows it without an underscore, and words of small letters and digits between single
underscores.
-/

namespace Bindings

namespace Naming

/--
A name in Pascal case begins with a capital and has no underscore. What else it holds may be any
character.
-/
def IsPascal (name : String) : Prop :=
  name.toList.head?.any Char.isUpper = true ∧ '_' ∉ name.toList

def IsWord (word : String) : Prop :=
  word.toList.head?.any Char.isLower = true
    ∧ word.toList.all (fun c => c.isLower || c.isDigit) = true

instance (name : String) : Decidable (IsPascal name) :=
  inferInstanceAs (Decidable (_ ∧ _))

instance (word : String) : Decidable (IsWord word) :=
  inferInstanceAs (Decidable (_ ∧ _))

theorem ascii_of_letter_or_digit {c : Char} (h : (c.isUpper || c.isLower || c.isDigit) = true) :
    c.toNat < 128 := by
  unfold Char.isUpper Char.isLower Char.isDigit at h
  simp only [Bool.or_eq_true, Bool.and_eq_true, decide_eq_true_eq, UInt32.le_iff_toNat_le,
    ge_iff_le] at h
  have hupper : 'Z'.val.toNat = 90 := rfl
  have hlower : 'z'.val.toNat = 122 := rfl
  have hdigit : '9'.val.toNat = 57 := rfl
  have hval : c.toNat = c.val.toNat := rfl
  omega

theorem exists_cons_of_any_head? {p : Char → Bool} {cs : List Char}
    (h : cs.head?.any p = true) : ∃ c rest, cs = c :: rest ∧ p c = true := by
  cases cs with
  | nil => cases h
  | cons c rest => exact ⟨c, rest, rfl, h⟩

theorem toUpper_toLower_of_isUpper {c : Char} (h : c.isUpper = true) :
    c.toLower.toUpper = c ∧ c.toLower ≠ '_' ∧ c.toLower.toNat < 128 := by
  refine forall_ascii (p := fun c => c.isUpper = true →
    c.toLower.toUpper = c ∧ c.toLower ≠ '_' ∧ c.toLower.toNat < 128) ?_ c ?_ h
  . decide +kernel
  . exact ascii_of_letter_or_digit (by simp [h])

theorem toLower_toUpper_of_isLower {c : Char} (h : c.isLower = true) :
    c.toUpper.isUpper = true ∧ c.toUpper.toLower = c := by
  refine forall_ascii (p := fun c => c.isLower = true →
    c.toUpper.isUpper = true ∧ c.toUpper.toLower = c) ?_ c ?_ h
  . decide +kernel
  . exact ascii_of_letter_or_digit (by simp [h])

theorem small_of_isLower_or_isDigit {c : Char} (h : (c.isLower || c.isDigit) = true) :
    c.toNat < 128 ∧ c.isUpper = false ∧ c ≠ '_' := by
  refine forall_ascii (p := fun c => (c.isLower || c.isDigit) = true →
    c.toNat < 128 ∧ c.isUpper = false ∧ c ≠ '_') ?_ c ?_ h
  . decide +kernel
  . rw [Bool.or_eq_true] at h
    exact ascii_of_letter_or_digit (by cases h <;> simp_all)

theorem camelChars_snakeChars {cs : List Char} (h : '_' ∉ cs) :
    camelChars false (snakeChars cs) = cs := by
  induction cs with
  | nil => rfl
  | cons c cs ih =>
    rw [List.mem_cons, not_or] at h
    have hrest := ih h.2
    by_cases hupper : c.isUpper = true
    . -- The underscore raises what the capital has become, whatever follows.
      obtain ⟨hraise, hline, -⟩ := toUpper_toLower_of_isUpper hupper
      have hsnake : snakeChars (c :: cs) = '_' :: c.toLower :: snakeChars cs := by
        simp [snakeChars, hupper]
      rw [hsnake]
      simp [camelChars, hline, hraise, hrest]
    . have hsnake : snakeChars (c :: cs) = c :: snakeChars cs := by
        simp [snakeChars, hupper]
      rw [hsnake]
      simp [camelChars, Ne.symm h.1, hrest]

theorem toPascalCase_toSnakeCase {name : String} (h : IsPascal name) :
    toPascalCase (toSnakeCase name) = name := by
  obtain ⟨hhead, hline⟩ := h
  obtain ⟨c, cs, hname, hupper⟩ := exists_cons_of_any_head? hhead
  obtain ⟨hraise, hkept, hascii⟩ := toUpper_toLower_of_isUpper hupper
  rw [hname, List.mem_cons, not_or] at hline
  apply String.toList_inj.1
  unfold toPascalCase toSnakeCase
  rw [String.toList_ofList, String.toList_ofList, hname]
  simp [snakeWord, camelChars, hkept, mapFirst, camelChars_snakeChars hline.2,
    upperCase_of_ascii hascii, hraise]

theorem snakeChars_append (cs ds : List Char) :
    snakeChars (cs ++ ds) = snakeChars cs ++ snakeChars ds :=
  List.flatMap_append

theorem snakeChars_of_forall {cs : List Char} (h : ∀ c ∈ cs, c.isUpper = false) :
    snakeChars cs = cs := by
  induction cs with
  | nil => rfl
  | cons c cs ih =>
    rw [List.forall_mem_cons] at h
    have hrest := ih h.2
    unfold snakeChars at hrest ⊢
    rw [List.flatMap_cons, h.1, hrest]
    rfl

namespace IsWord

variable {word : String} (h : IsWord word)

include h

theorem small_of_mem {c : Char} (hmem : c ∈ word.toList) :
    c.toNat < 128 ∧ c.isUpper = false ∧ c ≠ '_' :=
  small_of_isLower_or_isDigit (List.all_eq_true.1 h.2 c hmem)

theorem exists_capitalize :
    ∃ c cs, capitalize word.toList = c :: cs ∧ c.isUpper = true ∧ c.toLower :: cs = word.toList
      ∧ snakeChars cs = cs := by
  obtain ⟨c, cs, hword, hlower⟩ := exists_cons_of_any_head? h.1
  obtain ⟨hupper, hback⟩ := toLower_toUpper_of_isLower hlower
  rw [hword, capitalize]
  refine ⟨c.toUpper, cs, rfl, hupper, by rw [hback], snakeChars_of_forall ?_⟩
  intro d hd
  apply (h.small_of_mem _).2.1
  rw [hword]
  exact List.mem_cons_of_mem c hd

theorem mapFirst_upperCase_append (rest : List Char) :
    mapFirst Text.upperCase (word.toList ++ rest) = capitalize word.toList ++ rest := by
  obtain ⟨c, cs, hword, -⟩ := exists_cons_of_any_head? h.1
  have hmem : c ∈ word.toList := hword ▸ List.mem_cons_self
  rw [hword]
  simp [mapFirst, capitalize, upperCase_of_ascii (h.small_of_mem hmem).1]

theorem snakeChars_capitalize : snakeChars (capitalize word.toList) = '_' :: word.toList := by
  obtain ⟨c, cs, hcapital, hupper, hword, hrest⟩ := h.exists_capitalize
  rw [hcapital, ← hword]
  show (if c.isUpper then ['_', c.toLower] else [c]) ++ snakeChars cs = _
  rw [hupper, hrest]
  rfl

theorem snakeWord_capitalize_append (rest : List Char) :
    snakeWord (capitalize word.toList ++ rest) = word.toList ++ snakeChars rest := by
  obtain ⟨c, cs, hcapital, _, hword, hrest⟩ := h.exists_capitalize
  rw [hcapital, ← hword, List.cons_append, snakeWord, snakeChars_append, hrest, List.cons_append]

end IsWord

theorem nameParts_joinWith {words : List String} (hne : words ≠ [])
    (h : ∀ word ∈ words, IsWord word) :
    nameParts (Text.joinWith "_" words) = words.map String.toList := by
  have hline : ∀ part ∈ words.map String.toList, '_' ∉ part := by
    intro part hpart hmem
    obtain ⟨word, hword, rfl⟩ := List.mem_map.1 hpart
    exact ((h word hword).small_of_mem hmem).2.2 rfl
  unfold nameParts
  rw [Text.joinWith_eq_intercalate, String.toList_intercalate]
  exact List.splitOn_intercalate '_' hline (mt List.map_eq_nil_iff.1 hne)

theorem snakeWord_flatMap_capitalize {word : String} {words : List String}
    (h : ∀ other ∈ word :: words, IsWord other) :
    snakeWord (((word :: words).map String.toList).flatMap capitalize)
      = (Text.joinWith "_" (word :: words)).toList := by
  induction words generalizing word with
  | nil =>
    have hword := h word List.mem_cons_self
    have := hword.snakeWord_capitalize_append []
    simpa [snakeChars] using this
  | cons next words ih =>
    rw [List.forall_mem_cons] at h
    have hnext := h.2 next List.mem_cons_self
    have hrest := ih h.2
    rw [List.map_cons, List.flatMap_cons, hnext.snakeWord_capitalize_append] at hrest
    rw [List.map_cons, List.flatMap_cons, h.1.snakeWord_capitalize_append, List.map_cons,
      List.flatMap_cons, snakeChars_append, hnext.snakeChars_capitalize, List.cons_append, hrest,
      Text.joinWith_cons_cons, String.toList_append, String.toList_append, List.append_assoc]
    rfl

theorem toSnakeCase_toPascalCase {words : List String} (hne : words ≠ [])
    (h : ∀ word ∈ words, IsWord word) :
    toSnakeCase (toPascalCase (Text.joinWith "_" words)) = Text.joinWith "_" words := by
  cases words with
  | nil => exact absurd rfl hne
  | cons word words =>
    have hparts := nameParts_joinWith hne h
    have hcamel := (camelChars_of_splitOnP hparts).1
    have hword := h word List.mem_cons_self
    apply String.toList_inj.1
    unfold toSnakeCase toPascalCase
    rw [String.toList_ofList, String.toList_ofList, hcamel, hword.mapFirst_upperCase_append]
    exact snakeWord_flatMap_capitalize h

/--
Pascal case undoes snake case on names in Pascal case, also with digits, several capitals in a row
and letters beyond ASCII, so no two variants in Pascal case become one in snake case. Snake case
undoes Pascal case on words that are joined by single underscores.
-/
theorem pascal_snake_inverse :
    (∀ name, IsPascal name → toPascalCase (toSnakeCase name) = name)
      ∧ (∀ name other, IsPascal name → IsPascal other →
          RenameRule.snake.applyToVariant name = RenameRule.snake.applyToVariant other →
          name = other)
      ∧ ∀ words : List String, words ≠ [] → (∀ word ∈ words, IsWord word) →
          toSnakeCase (toPascalCase (Text.joinWith "_" words)) = Text.joinWith "_" words := by
  refine ⟨fun _ => toPascalCase_toSnakeCase, ?_, fun _ => toSnakeCase_toPascalCase⟩
  intro name other hname hother hsame
  have hsnake : toSnakeCase name = toSnakeCase other := hsame
  calc
    name = toPascalCase (toSnakeCase name) := (toPascalCase_toSnakeCase hname).symm
    _ = toPascalCase (toSnakeCase other) := by rw [hsnake]
    _ = other := toPascalCase_toSnakeCase hother

theorem pascal_snake_inverse_http :
    IsPascal "HTTP2Größe" ∧ toSnakeCase "HTTP2Größe" = "h_t_t_p2_größe"
      ∧ toPascalCase "h_t_t_p2_größe" = "HTTP2Größe"
      ∧ (∀ word ∈ ["http2", "status", "x"], IsWord word)
      ∧ toPascalCase "http2_status_x" = "Http2StatusX"
      ∧ toSnakeCase "Http2StatusX" = "http2_status_x"
      ∧ RenameRule.snake.applyToVariant "IOError" ≠ RenameRule.snake.applyToVariant "IoError" := by
  obtain ⟨hpascal, hdistinct, hsnake⟩ := pascal_snake_inverse
  have hname : IsPascal "HTTP2Größe" := by decide
  have hlowered : toSnakeCase "HTTP2Größe" = "h_t_t_p2_größe" := by decide
  have hwords : ∀ word ∈ ["http2", "status", "x"], IsWord word := by decide
  have hraised : toPascalCase "http2_status_x" = "Http2StatusX" := by decide
  have hback := hpascal _ hname
  have hback' := hsnake _ (List.cons_ne_nil _ _) hwords
  rw [hlowered] at hback
  have hjoined : Text.joinWith "_" ["http2", "status", "x"] = "http2_status_x" := by decide
  rw [hjoined, hraised] at hback'
  refine ⟨hname, hlowered, hback, hwords, hraised, hback', ?_⟩
  intro hsame
  exact absurd (hdistinct _ _ (by decide) (by decide) hsame) (by decide)

end Naming

end Bindings
