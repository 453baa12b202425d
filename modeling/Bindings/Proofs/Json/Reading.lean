import Bindings.Json.Reading
import Bindings.Proofs.Json.Lexeme

/-!
This module contains that the text of a value is read as this value, whatever follows it.
-/

namespace Bindings.Json

def reading : Json → Reading
  | null => .null
  | bool value => .bool value
  | number value => .number ⟨false, digitValues (Nat.toDigits 10 value), [], none⟩
  | string value => .string (some value)
  | array items => .array (ofItems items) true
  | object members => .object (ofMembers members) true
where
  ofItems : List Json → List Reading
    | [] => []
    | item :: items => item.reading :: ofItems items
  ofMembers : List (String × Json) → List (Option String × Reading)
    | [] => []
    | (key, value) :: members => (some key, value.reading) :: ofMembers members

def Space (text : List Char) : Prop :=
  ∀ c ∈ text, isSpace c = true

theorem space_newline (depth : Nat) : Space (newline depth).toList := by
  intro c hmem
  simp only [newline, String.toList_ofList, List.mem_cons, List.mem_replicate] at hmem
  rcases hmem with heq | ⟨_, heq⟩
  . simp [heq, isSpace]
  . simp [heq, isSpace]

theorem space_blank : Space [' '] := by
  simp [Space, isSpace]

theorem skipSpace_append {space : List Char} (h : Space space) (cs : List Char) :
    skipSpace (space ++ cs) = skipSpace cs :=
  List.dropWhile_append_of_pos h

theorem skipSpace_cons {c : Char} (h : isSpace c = false) (cs : List Char) :
    skipSpace (c :: cs) = c :: cs := by
  simp [skipSpace, h]

theorem skipSpace_newline {c : Char} (h : isSpace c = false) (depth : Nat) (cs : List Char) :
    skipSpace ((newline depth).toList ++ c :: cs) = c :: cs := by
  rw [skipSpace_append (space_newline depth), skipSpace_cons h]

theorem endsNumber_newline (depth : Nat) (rest : List Char) :
    EndsNumber ((newline depth).toList ++ rest) := by
  intro c cs heq
  simp only [newline, String.toList_ofList, List.cons_append, List.cons.injEq] at heq
  rw [← heq.1]
  decide

theorem endsNumber_cons {c : Char} (h : c.isDigit = false ∧ c ≠ '.' ∧ c ≠ 'e' ∧ c ≠ 'E')
    (rest : List Char) : EndsNumber (c :: rest) := by
  intro d cs heq
  rw [← (List.cons.inj heq).1]
  exact h

def itemsText (depth : Nat) : List Json → List Char
  | [] => []
  | item :: items => (item.prettyAt depth).toList ++ (prettyAt.prettyItems depth items).toList

def membersText (depth : Nat) : List (String × Json) → List Char
  | [] => []
  | (key, value) :: members =>
    key.toList.flatMap escapeChar ++ '"' :: ':' :: ' ' :: (value.prettyAt depth).toList
      ++ (prettyAt.prettyMembers depth members).toList

theorem toList_prettyAt_string (depth : Nat) (value : String) :
    ((string value).prettyAt depth).toList = '"' :: value.toList.flatMap escapeChar ++ ['"'] := by
  simp [prettyAt, quoted]

theorem toList_prettyAt_array (depth : Nat) (item : Json) (items : List Json) :
    ((array (item :: items)).prettyAt depth).toList
      = '[' :: (newline (depth + 1)).toList ++ itemsText (depth + 1) (item :: items)
        ++ (newline depth).toList ++ [']'] := by
  simp [prettyAt, itemsText]

theorem toList_prettyAt_object (depth : Nat) (member : String × Json)
    (members : List (String × Json)) :
    ((object (member :: members)).prettyAt depth).toList
      = '\x7b' :: (newline (depth + 1)).toList ++ '"' :: membersText (depth + 1) (member :: members)
        ++ (newline depth).toList ++ ['\x7d'] := by
  simp [prettyAt, membersText, quoted]

theorem toList_prettyItems_cons (depth : Nat) (item : Json) (items : List Json) :
    (prettyAt.prettyItems depth (item :: items)).toList
      = ',' :: (newline depth).toList ++ itemsText depth (item :: items) := by
  simp [prettyAt.prettyItems, itemsText]

theorem toList_prettyMembers_cons (depth : Nat) (member : String × Json)
    (members : List (String × Json)) :
    (prettyAt.prettyMembers depth (member :: members)).toList
      = ',' :: (newline depth).toList ++ '"' :: membersText depth (member :: members) := by
  simp [prettyAt.prettyMembers, membersText, quoted]

def marks : List Char :=
  ['n', 't', 'f', '-', '"', '[', ']', '\x7b', ' ', '\n', '\t', '\r']

theorem toDigits_head (n : Nat) :
    ∃ c cs, Nat.toDigits 10 n = c :: cs ∧ c.isDigit = true ∧ c ∉ marks := by
  obtain ⟨c, cs, heq⟩ :=
    List.exists_cons_of_length_pos (Nat.length_toDigits_pos (b := 10) (n := n))
  have hdigit : c.isDigit = true :=
    Nat.isDigit_of_mem_toDigits (by decide) (by decide) (heq ▸ List.mem_cons_self)
  refine ⟨c, cs, heq, hdigit, ?_⟩
  intro hmem
  have hmarks : marks.all (fun c => !c.isDigit) = true := by decide
  have := List.all_eq_true.1 hmarks c hmem
  simp [hdigit] at this

theorem prettyAt_head (json : Json) (depth : Nat) :
    ∃ c cs, (json.prettyAt depth).toList = c :: cs ∧ isSpace c = false ∧ c ≠ ']' := by
  cases json with
  | null => exact ⟨'n', "ull".toList, by simp [prettyAt], by decide⟩
  | bool value =>
    cases value with
    | false => exact ⟨'f', "alse".toList, by simp [prettyAt], by decide⟩
    | true => exact ⟨'t', "rue".toList, by simp [prettyAt], by decide⟩
  | number value =>
    obtain ⟨c, cs, heq, -, hmem⟩ := toDigits_head value
    simp only [marks, List.mem_cons, List.not_mem_nil, or_false, not_or] at hmem
    exact ⟨c, cs, by simpa [prettyAt] using heq, by simp [isSpace, hmem], by simp [hmem]⟩
  | string value => exact ⟨_, _, toList_prettyAt_string depth value, by decide⟩
  | array items =>
    cases items with
    | nil => exact ⟨'[', [']'], by simp [prettyAt], by decide⟩
    | cons item items => exact ⟨_, _, toList_prettyAt_array depth item items, by decide⟩
  | object members =>
    cases members with
    | nil => exact ⟨'\x7b', ['\x7d'], by simp [prettyAt], by decide⟩
    | cons member members => exact ⟨_, _, toList_prettyAt_object depth member members, by decide⟩

theorem readValue_number (n fuel : Nat) {rest : List Char} (hrest : EndsNumber rest) :
    readValue (fuel + 1) (Nat.toDigits 10 n ++ rest) = ((number n).reading, rest) := by
  have hread := readNumeral_toDigits n hrest
  obtain ⟨c, cs, heq, hdigit, hmem⟩ := toDigits_head n
  simp only [marks, List.mem_cons, List.not_mem_nil, or_false, not_or] at hmem
  have hspace : isSpace c = false := by simp [isSpace, hmem]
  rw [heq, List.cons_append] at hread
  rw [reading, heq, List.cons_append, readValue, skipSpace_cons hspace]
  simp [hmem, hdigit, hread, readValue.numeral]

theorem readValue_space {space : List Char} (h : Space space) {fuel : Nat} (hfuel : 0 < fuel)
    (cs : List Char) : readValue fuel (space ++ cs) = readValue fuel cs := by
  obtain ⟨fuel, rfl⟩ := Nat.exists_eq_add_of_le' hfuel
  rw [readValue, readValue, skipSpace_append h]

theorem readItems_space {space : List Char} (h : Space space) {fuel : Nat} (hfuel : 1 < fuel)
    (cs : List Char) : readItems fuel (space ++ cs) = readItems fuel cs := by
  obtain ⟨fuel, rfl⟩ := Nat.exists_eq_add_of_le' hfuel
  rw [readItems, readItems, readValue_space h (by omega)]

theorem readValue_quote {value : Option String} {cs rest : List Char}
    (h : readString cs = some (value, rest)) (fuel : Nat) :
    readValue (fuel + 1) ('"' :: cs) = (.string value, rest) := by
  rw [readValue, skipSpace_cons (by decide)]
  simp [h]

theorem readValue_bracket {space cs : List Char} (hspace : Space space) {c : Char}
    (hc : isSpace c = false) (hclose : c ≠ ']') {fuel : Nat} {items : List Reading} {closed : Bool}
    {rest : List Char} (h : readItems fuel (c :: cs) = (items, closed, rest)) :
    readValue (fuel + 1) ('[' :: (space ++ c :: cs)) = (.array items closed, rest) := by
  rw [readValue, skipSpace_cons (by decide)]
  simp only [skipSpace_append hspace, skipSpace_cons hc]
  simp [hclose, h]

theorem readValue_brace {space cs : List Char} (hspace : Space space) {fuel : Nat}
    {members : List (Option String × Reading)} {closed : Bool} {rest : List Char}
    (h : readMembers fuel cs = (members, closed, rest)) :
    readValue (fuel + 1) ('\x7b' :: (space ++ '"' :: cs)) = (.object members closed, rest) := by
  rw [readValue, skipSpace_cons (by decide)]
  simp only [skipSpace_append hspace, skipSpace_cons (c := '"') (by decide)]
  simp [h]

structure ReadsBack (fuel : Nat) : Prop where
  value (json : Json) (depth : Nat) {rest : List Char} (hrest : EndsNumber rest)
    (hfuel : (json.prettyAt depth).toList.length ≤ fuel) :
    readValue fuel ((json.prettyAt depth).toList ++ rest) = (json.reading, rest)
  items (item : Json) (items : List Json) (depth outer : Nat) (rest : List Char)
    (hfuel : (itemsText depth (item :: items)).length < fuel) :
    readItems fuel (itemsText depth (item :: items) ++ ((newline outer).toList ++ ']' :: rest))
      = (reading.ofItems (item :: items), true, rest)
  members (member : String × Json) (members : List (String × Json)) (depth outer : Nat)
    (rest : List Char) (hfuel : (membersText depth (member :: members)).length < fuel) :
    readMembers fuel
        (membersText depth (member :: members) ++ ((newline outer).toList ++ '\x7d' :: rest))
      = (reading.ofMembers (member :: members), true, rest)

namespace ReadsBack

theorem value_succ {fuel : Nat} (h : ReadsBack fuel) (json : Json) (depth : Nat) {rest : List Char}
    (hrest : EndsNumber rest) (hfuel : (json.prettyAt depth).toList.length ≤ fuel + 1) :
    readValue (fuel + 1) ((json.prettyAt depth).toList ++ rest) = (json.reading, rest) := by
  cases json with
  | null => simp [prettyAt, reading, readValue, skipSpace, isSpace, readValue.word, afterWord?]
  | bool value =>
    cases value with
    | false => simp [prettyAt, reading, readValue, skipSpace, isSpace, readValue.word, afterWord?]
    | true => simp [prettyAt, reading, readValue, skipSpace, isSpace, readValue.word, afterWord?]
  | number value => simpa [prettyAt] using readValue_number value fuel hrest
  | string value =>
    have h := readValue_quote (readString_escaped value.toList rest) fuel
    simpa [toList_prettyAt_string, reading] using h
  | array items =>
    cases items with
    | nil => simp [prettyAt, reading, readValue, skipSpace, isSpace, reading.ofItems]
    | cons item items =>
      rw [toList_prettyAt_array] at hfuel ⊢
      -- A closing bracket behind the space would end the array before its first item.
      obtain ⟨c, cs, hhead, hspace, hclose⟩ := prettyAt_head item (depth + 1)
      have hitems := h.items item items (depth + 1) depth rest (by simp at hfuel ⊢; omega)
      rw [itemsText, hhead] at hitems ⊢
      simpa [reading] using readValue_bracket (space_newline (depth + 1)) hspace hclose
        (by simpa using hitems)
  | object members =>
    cases members with
    | nil => simp [prettyAt, reading, readValue, skipSpace, isSpace, reading.ofMembers]
    | cons member members =>
      rw [toList_prettyAt_object] at hfuel ⊢
      have hmembers := h.members member members (depth + 1) depth rest (by simp at hfuel ⊢; omega)
      simpa [reading] using readValue_brace (space_newline (depth + 1)) hmembers

theorem items_succ {fuel : Nat} (h : ReadsBack fuel) (item : Json) (items : List Json)
    (depth outer : Nat) (rest : List Char)
    (hfuel : (itemsText depth (item :: items)).length < fuel + 1) :
    readItems (fuel + 1)
        (itemsText depth (item :: items) ++ ((newline outer).toList ++ ']' :: rest))
      = (reading.ofItems (item :: items), true, rest) := by
  rw [itemsText, List.length_append] at hfuel
  cases items with
  | nil =>
    have hvalue := h.value item depth (endsNumber_newline outer (']' :: rest)) (by omega)
    simp only [itemsText, prettyAt.prettyItems, String.toList_empty, List.append_nil, readItems,
      hvalue, skipSpace_newline (c := ']') (by decide), reading.ofItems]
  | cons next items =>
    -- The comma and this item are at least two characters, the next items take one fuel less.
    obtain ⟨c, cs, hhead, -⟩ := prettyAt_head item depth
    have hlength : (itemsText depth (next :: items)).length < fuel := by
      rw [toList_prettyItems_cons, hhead] at hfuel
      simp at hfuel
      omega
    have hpos : 0 < (itemsText depth (next :: items)).length := by
      obtain ⟨c, cs, hhead, -⟩ := prettyAt_head next depth
      simp [itemsText, hhead]
    have hvalue := h.value item depth
      (endsNumber_cons (c := ',') (by decide) ((newline depth).toList
        ++ (itemsText depth (next :: items) ++ ((newline outer).toList ++ ']' :: rest))))
      (by omega)
    have hitems := h.items next items depth outer rest hlength
    rw [← readItems_space (space_newline depth) (by omega)] at hitems
    rw [itemsText, toList_prettyItems_cons, readItems, reading.ofItems]
    simp only [List.append_assoc, List.cons_append] at hvalue hitems ⊢
    simp only [hvalue, skipSpace_cons (c := ',') (by decide), hitems]

theorem members_succ {fuel : Nat} (h : ReadsBack fuel) (member : String × Json)
    (members : List (String × Json)) (depth outer : Nat) (rest : List Char)
    (hfuel : (membersText depth (member :: members)).length < fuel + 1) :
    readMembers (fuel + 1)
        (membersText depth (member :: members) ++ ((newline outer).toList ++ '\x7d' :: rest))
      = (reading.ofMembers (member :: members), true, rest) := by
  obtain ⟨key, value⟩ := member
  simp only [membersText, List.length_append, List.length_cons] at hfuel
  rw [membersText, readMembers]
  simp only [List.append_assoc, List.cons_append, readString_escaped,
    skipSpace_cons (c := ':') (by decide)]
  have hpos : 0 < fuel := by omega
  cases members with
  | nil =>
    have hvalue := h.value value depth (endsNumber_newline outer ('\x7d' :: rest)) (by omega)
    rw [← readValue_space space_blank hpos] at hvalue
    simp only [prettyAt.prettyMembers, String.toList_empty, List.nil_append, List.cons_append]
      at hvalue ⊢
    simp only [hvalue, skipSpace_newline (c := '\x7d') (by decide), reading.ofMembers,
      String.ofList_toList]
  | cons next members =>
    rw [toList_prettyMembers_cons] at hfuel ⊢
    have hvalue := h.value value depth
      (endsNumber_cons (c := ',') (by decide) ((newline depth).toList ++ '"' ::
        (membersText depth (next :: members) ++ ((newline outer).toList ++ '\x7d' :: rest))))
      (by omega)
    have hmembers := h.members next members depth outer rest (by simp at hfuel; omega)
    rw [← readValue_space space_blank hpos] at hvalue
    simp only [List.append_assoc, List.cons_append, List.nil_append] at hvalue hmembers ⊢
    simp only [hvalue, skipSpace_cons (c := ',') (by decide),
      skipSpace_newline (c := '"') (by decide), hmembers, reading.ofMembers, String.ofList_toList]

end ReadsBack

theorem readsBack (fuel : Nat) : ReadsBack fuel := by
  induction fuel with
  | zero =>
    refine ⟨?_, ?_, ?_⟩
    . -- No value is written without a character.
      intro json depth rest _ hfuel
      obtain ⟨c, cs, hhead, -⟩ := prettyAt_head json depth
      rw [hhead] at hfuel
      cases hfuel
    . intro _ _ _ _ _ hfuel
      cases hfuel
    . intro _ _ _ _ _ hfuel
      cases hfuel
  | succ fuel ih => exact ⟨ih.value_succ, ih.items_succ, ih.members_succ⟩

theorem read_pretty (json : Json) : read json.pretty = (json.reading, true) := by
  have hrest : EndsNumber [] := nofun
  have hfuel : (json.prettyAt 0).toList.length ≤ 2 * json.pretty.toList.length + 2 := by
    rw [pretty]
    omega
  have h := (readsBack _).value json 0 hrest hfuel
  rw [List.append_nil] at h
  simp only [read, pretty] at h ⊢
  rw [h]
  rfl

end Bindings.Json
