import Bindings.Json.Value

/-!
This module contains that the brackets which are open at once in the text of a value are those that
are nested in the value.
-/

namespace Bindings.Json

def nesting : Json → Nat
  | null | bool _ | number _ | string _ => 0
  | array items => ofItems items + 1
  | object members => ofMembers members + 1
where
  ofItems : List Json → Nat
    | [] => 0
    | item :: items => max item.nesting (ofItems items)
  ofMembers : List (String × Json) → Nat
    | [] => 0
    | (_, value) :: members => max value.nesting (ofMembers members)

theorem nesting.ofMembers_le_iff {members : List (String × Json)} {n : Nat} :
    ofMembers members ≤ n ↔ ∀ member ∈ members, member.2.nesting ≤ n := by
  induction members with
  | nil => simp [ofMembers]
  | cons member members ih => rw [ofMembers, Nat.max_le, ih, List.forall_mem_cons]

@[simp]
theorem nesting_bool (value : Bool) : (bool value).nesting = 0 := by
  rw [nesting]

@[simp]
theorem nesting_string (value : String) : (string value).nesting = 0 := by
  rw [nesting]

@[simp]
theorem nesting_ofOption (text : Option String) : (ofOption text).nesting = 0 := by
  cases text <;> rfl

@[simp]
theorem nesting_singleton (name : String) (json : Json) :
    (object [(name, json)]).nesting = json.nesting + 1 := by
  simp [nesting, nesting.ofMembers]

namespace OpenBrackets

mutual

/--
The greatest number of brackets that are open at once in a text, if some are open before it. The
characters of strings do not count.
-/
def outside (opened : Nat) : List Char → Nat
  | [] => opened
  | c :: cs =>
    if c = '"' then inside opened cs
    else if c = '[' ∨ c = '\x7b' then outside (opened + 1) cs
    else if c = ']' ∨ c = '\x7d' then max opened (outside (opened - 1) cs)
    else outside opened cs

def inside (opened : Nat) : List Char → Nat
  | [] => opened
  | '\\' :: _ :: cs => inside opened cs
  | '"' :: cs => outside opened cs
  | _ :: cs => inside opened cs

end

mutual

theorem le_outside (opened : Nat) (cs : List Char) : opened ≤ outside opened cs := by
  cases cs with
  | nil => simp [outside]
  | cons c cs =>
    rw [outside]
    split
    . apply le_inside
    . split
      . have := le_outside (opened + 1) cs
        omega
      . split
        . apply Nat.le_max_left
        . apply le_outside

theorem le_inside (opened : Nat) (cs : List Char) : opened ≤ inside opened cs := by
  unfold inside
  split
  . omega
  . apply le_inside
  . apply le_outside
  . apply le_inside

end

end OpenBrackets

def Nests (text : List Char) (n : Nat) : Prop :=
  ∀ opened rest, OpenBrackets.outside opened (text ++ rest)
    = max (opened + n) (OpenBrackets.outside opened rest)

namespace Nests

open OpenBrackets

theorem append {s t : List Char} {m n : Nat} (hs : Nests s m) (ht : Nests t n) :
    Nests (s ++ t) (max m n) := by
  intro opened rest
  rw [List.append_assoc, hs, ht]
  omega

theorem enclose {text : List Char} {n : Nat} (h : Nests text n) {left right : Char}
    (hleft : left = '[' ∨ left = '\x7b') (hright : right = ']' ∨ right = '\x7d') :
    Nests (left :: text ++ [right]) (n + 1) := by
  intro opened rest
  have hinner := h (opened + 1) (right :: rest)
  have hopen : outside opened (left :: (text ++ right :: rest))
      = outside (opened + 1) (text ++ right :: rest) := by
    rcases hleft with rfl | rfl <;> simp [outside]
  have hclose : outside (opened + 1) (right :: rest) = max (opened + 1) (outside opened rest) := by
    rcases hright with rfl | rfl <;> simp [outside]
  simp only [List.cons_append, List.append_assoc, List.nil_append]
  rw [hopen, hinner, hclose]
  omega

def isFlat (c : Char) : Bool :=
  !(['"', '[', '\x7b', ']', '\x7d'].contains c)

theorem flat {text : List Char} (h : text.all isFlat = true) : Nests text 0 := by
  intro opened rest
  have hle := le_outside opened rest
  have heq : outside opened (text ++ rest) = outside opened rest := by
    induction text with
    | nil => rfl
    | cons c cs ih =>
      rw [List.all_cons, Bool.and_eq_true] at h
      obtain ⟨hc, hcs⟩ := h
      simp only [isFlat, Bool.not_eq_true', List.contains_eq_mem, decide_eq_false_iff_not,
        List.mem_cons, List.not_mem_nil, or_false, not_or] at hc
      rw [List.cons_append, outside]
      simp [hc, ih hcs]
  omega

theorem nil : Nests [] 0 :=
  flat rfl

theorem newline (depth : Nat) : Nests (newline depth).toList 0 := by
  have hbreak : isFlat '\n' = true := by decide
  have hblank : isFlat ' ' = true := by decide
  apply flat
  simp [Json.newline, hbreak, hblank]

theorem toDigits (n : Nat) : Nests (Nat.toDigits 10 n) 0 := by
  apply flat
  rw [List.all_eq_true]
  intro c hmem
  have hdigit : c.isDigit = true := Nat.isDigit_of_mem_toDigits (by decide) (by decide) hmem
  have hsigns : ['"', '[', '\x7b', ']', '\x7d'].all (fun c => !c.isDigit) = true := by decide
  rw [isFlat, Bool.not_eq_true', Bool.eq_false_iff]
  intro hsign
  have := List.all_eq_true.1 hsigns c (List.contains_iff_mem.1 hsign)
  simp [hdigit] at this

def isPlain (c : Char) : Bool :=
  c != '"' && c != '\\'

theorem inside_plain {text : List Char} (h : text.all isPlain = true) (opened : Nat)
    (rest : List Char) : inside opened (text ++ rest) = inside opened rest := by
  induction text with
  | nil => rfl
  | cons c cs ih =>
    simp only [List.all_cons, isPlain, Bool.and_eq_true, bne_iff_ne] at h
    obtain ⟨⟨hquote, hslash⟩, hcs⟩ := h
    rw [List.cons_append, inside, ih hcs]
    . intro _ _ heq
      exact absurd heq hslash
    . exact hquote

theorem inside_escapeChar (c : Char) (opened : Nat) (rest : List Char) :
    inside opened (escapeChar c ++ rest) = inside opened rest := by
  unfold escapeChar
  split
  case h_8 hquote hslash _ _ _ _ _ =>
    split
    . next hcontrol =>
      -- Four hexadecimal digits follow the character that the backslash escapes.
      have hdigits : ∀ n < 0x20, ('0' :: '0' :: hexPair n).all isPlain = true := by decide
      exact inside_plain (hdigits _ hcontrol) opened rest
    . exact inside_plain (by simp [isPlain, bne_iff_ne.2 hquote, bne_iff_ne.2 hslash]) opened rest
  all_goals rfl

theorem quoted (text : String) : Nests (quoted text).toList 0 := by
  intro opened rest
  have hinside : inside opened (text.toList.flatMap escapeChar ++ '"' :: rest)
      = outside opened rest := by
    induction text.toList with
    | nil => simp [inside]
    | cons c cs ih => rw [List.flatMap_cons, List.append_assoc, inside_escapeChar, ih]
  have hle := le_outside opened rest
  simp [Json.quoted, outside, hinside, hle]

theorem member {text : List Char} {n : Nat} (h : Nests text n) (key : String) :
    Nests ((Json.quoted key).toList ++ (": ".toList ++ text)) n := by
  have hcolon : Nests ": ".toList 0 := flat (by decide)
  simpa using (quoted key).append (hcolon.append h)

end Nests

mutual

theorem nests_prettyAt (json : Json) (depth : Nat) :
    Nests (json.prettyAt depth).toList json.nesting := by
  cases json with
  | null =>
    have h : Nests "null".toList 0 := Nests.flat (by decide)
    simpa [prettyAt, nesting] using h
  | bool value =>
    cases value with
    | false =>
      have h : Nests "false".toList 0 := Nests.flat (by decide)
      simpa [prettyAt, nesting] using h
    | true =>
      have h : Nests "true".toList 0 := Nests.flat (by decide)
      simpa [prettyAt, nesting] using h
  | number value => simpa [prettyAt, nesting] using Nests.toDigits value
  | string value => simpa [prettyAt, nesting] using Nests.quoted value
  | array items =>
    cases items with
    | nil =>
      simpa [prettyAt, nesting, nesting.ofItems] using Nests.nil.enclose (.inl rfl) (.inl rfl)
    | cons item items =>
      have h := (Nests.newline (depth + 1)).append ((nests_prettyAt item (depth + 1)).append
        ((nests_prettyItems items (depth + 1)).append (Nests.newline depth)))
      simpa [prettyAt, nesting, nesting.ofItems] using h.enclose (.inl rfl) (.inl rfl)
  | object members =>
    cases members with
    | nil =>
      simpa [prettyAt, nesting, nesting.ofMembers] using Nests.nil.enclose (.inr rfl) (.inr rfl)
    | cons member members =>
      obtain ⟨key, value⟩ := member
      have hmember := (nests_prettyAt value (depth + 1)).member key
      have h := (Nests.newline (depth + 1)).append (hmember.append
        ((nests_prettyMembers members (depth + 1)).append (Nests.newline depth)))
      simpa [prettyAt, nesting, nesting.ofMembers] using h.enclose (.inr rfl) (.inr rfl)
termination_by sizeOf json

theorem nests_prettyItems (items : List Json) (depth : Nat) :
    Nests (prettyAt.prettyItems depth items).toList (nesting.ofItems items) := by
  have hcomma : Nests [','] 0 := Nests.flat (by decide)
  cases items with
  | nil => simpa [prettyAt.prettyItems, nesting.ofItems] using Nests.nil
  | cons item items =>
    have h := hcomma.append ((Nests.newline depth).append
      ((nests_prettyAt item depth).append (nests_prettyItems items depth)))
    simpa [prettyAt.prettyItems, nesting.ofItems] using h
termination_by sizeOf items

theorem nests_prettyMembers (members : List (String × Json)) (depth : Nat) :
    Nests (prettyAt.prettyMembers depth members).toList (nesting.ofMembers members) := by
  have hcomma : Nests [','] 0 := Nests.flat (by decide)
  cases members with
  | nil => simpa [prettyAt.prettyMembers, nesting.ofMembers] using Nests.nil
  | cons member members =>
    obtain ⟨key, value⟩ := member
    have hmember := (nests_prettyAt value depth).member key
    have h := hcomma.append ((Nests.newline depth).append
      (hmember.append (nests_prettyMembers members depth)))
    simpa [prettyAt.prettyMembers, nesting.ofMembers] using h
termination_by sizeOf members

end

/--
The greatest number of brackets that are open at once in a text.
-/
def openBrackets (text : String) : Nat :=
  OpenBrackets.outside 0 text.toList

example : openBrackets "[\x7b\"a]\": []\x7d, []]" = 3 := by decide

theorem openBrackets_pretty (json : Json) : openBrackets json.pretty = json.nesting := by
  have h := nests_prettyAt json 0 0 []
  rw [List.append_nil] at h
  rw [openBrackets, pretty, h]
  simp [OpenBrackets.outside]

end Bindings.Json
