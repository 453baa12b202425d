import Bindings.Json.Lexeme
import Bindings.Proofs.Text.OneLine

/-!
This module contains the value that the target's strict mode gives to a literal between double
quotes. Reading a quoted text gives the text back, unless a null character stands before a decimal
digit in it: such a literal is none of the target's.
-/

namespace Bindings.Text.Quoted

def escapes : List (Char × Char) :=
  [('0', '\x00'), ('b', '\x08'), ('t', '\t'), ('n', '\n'), ('v', '\x0b'), ('f', '\x0c'),
    ('r', '\r'), ('"', '"'), ('\'', '\''), ('\\', '\\')]

def hexValue? (digits : List Char) : Option Nat :=
  digits.foldlM (fun n digit => (Json.hexDigit? digit).map (16 * n + ·)) 0

def ofCodePoint? (digits : List Char) : Option Char :=
  if digits.isEmpty then none
  else (hexValue? digits).bind fun n => if n.isValidChar then some (Char.ofNat n) else none

/--
The next character of a literal, escaped or not, and what follows it. A quote and a line end are
none. Of the target's escapes those that are never written are left out, like the ones with a fixed
number of hexadecimal digits.
-/
def readChar : List Char → Option (Char × List Char)
  | '\\' :: 'u' :: '\x7b' :: cs =>
    match cs.dropWhile (· != '\x7d') with
    | _ :: rest => (ofCodePoint? (cs.takeWhile (· != '\x7d'))).map (·, rest)
    | [] => none
  | '\\' :: e :: cs => (escapes.lookup e).map (·, cs)
  | c :: cs => if ['"', '\\', '\n', '\r'].contains c then none else some (c, cs)
  | [] => none

/--
An escaped zero before a decimal digit. It would be the octal code of a character, and strict mode
has none of these.
-/
def isOctal : List Char → Bool
  | '\\' :: '0' :: digit :: _ => digit.isDigit
  | _ => false

theorem length_lt_of_readChar {cs rest : List Char} {c : Char}
    (h : readChar cs = some (c, rest)) : rest.length < cs.length := by
  unfold readChar at h
  split at h
  . next cs =>
    have hdrop := (List.dropWhile_sublist (· != '\x7d') (l := cs)).length_le
    split at h
    . next heq =>
      obtain ⟨_, _, hpair⟩ := Option.map_eq_some_iff.1 h
      cases hpair
      rw [heq] at hdrop
      simp only [List.length_cons] at hdrop ⊢
      omega
    . cases h
  . obtain ⟨_, _, hpair⟩ := Option.map_eq_some_iff.1 h
    cases hpair
    simp only [List.length_cons]
    omega
  . split at h
    . cases h
    . cases h
      simp only [List.length_cons]
      omega
  . cases h

/--
The value of a literal behind its opening quote. None if it is not closed at the end of the text or
is not allowed in strict mode.
-/
def value (cs : List Char) : Option (List Char) :=
  if cs = ['"'] then some []
  else if isOctal cs then none
  else
    match _h : readChar cs with
    | some (c, rest) => (value rest).map (c :: ·)
    | none => none
termination_by cs.length
decreasing_by exact length_lt_of_readChar _h

theorem value_cons {cs rest : List Char} {c : Char} (hquote : cs ≠ ['"'])
    (hread : readChar cs = some (c, rest)) :
    value cs = if isOctal cs then none else (value rest).map (c :: ·) := by
  rw [value, if_neg hquote]
  split
  . rfl
  . split
    . next heq =>
      rw [hread] at heq
      cases heq
      rfl
    . next heq =>
      rw [hread] at heq
      cases heq

def decode (literal : String) : Option String :=
  match literal.toList with
  | '"' :: cs => (value cs).map String.ofList
  | _ => none

inductive Written (c : Char) : List Char → Prop
  | short (hlookup : escapes.lookup e = some c) (hzero : e = '0' ↔ c = '\x00')
      (hdigit : c.isDigit = false) : Written c ['\\', e]
  | plain (hplain : ['"', '\\', '\n', '\r'].contains c = false) (hnull : c ≠ '\x00') :
    Written c [c]
  | code (hdigit : c.isDigit = false) (hnull : c ≠ '\x00') : Written c (codePoint c)

theorem isPlain_of_isDigit {c : Char} (h : c.isDigit = true) : isPlain c = true := by
  have hrange : 48 ≤ c.toNat ∧ c.toNat ≤ 57 := by
    simpa [Char.isDigit, UInt32.le_iff_toNat_le] using h
  have hascii : c.toNat < 0x80 := by omega
  simp only [isPlain, hascii, if_true, Bool.and_eq_true, decide_eq_true_eq]
  omega

theorem written_encodeChar (c : Char) : Written c (encodeChar c) := by
  unfold encodeChar
  split
  . exact .short rfl (by decide) rfl
  . exact .short rfl (by decide) rfl
  . exact .short rfl (by decide) rfl
  . exact .short rfl (by decide) rfl
  . exact .short rfl (by decide) rfl
  . exact .short rfl (by decide) rfl
  . next hnull _ hreturn hfeed hslash hquote =>
    split
    . apply Written.plain _ hnull
      rw [Bool.eq_false_iff]
      intro hmem
      simp only [List.contains_iff_mem, List.mem_cons, List.not_mem_nil, or_false] at hmem
      rcases hmem with h | h | h | h
      . exact hquote h
      . exact hslash h
      . exact hfeed h
      . exact hreturn h
    . next hplain =>
      apply Written.code _ hnull
      rw [Bool.eq_false_iff]
      intro hdigit
      exact hplain (isPlain_of_isDigit hdigit)

theorem hexDigit?_digitChar {n : Nat} (h : n < 16) : Json.hexDigit? (Nat.digitChar n) = some n := by
  have hall : ∀ n < 16, Json.hexDigit? (Nat.digitChar n) = some n := by decide
  exact hall n h

theorem hexValue?_hex (n : Nat) : hexValue? (hex n) = some n := by
  unfold hexValue? hex
  induction n using Nat.strongRecOn with
  | ind n ih =>
    rw [Nat.toDigits_eq_if (by decide)]
    split
    . next hlt => simp [hexDigit?_digitChar hlt]
    . next hle =>
      have hlast : n % 16 < 16 := Nat.mod_lt n (by decide)
      rw [List.foldlM_append, ih (n / 16) (by omega)]
      simp only [Option.bind_eq_bind, Option.bind_some, List.foldlM_cons, List.foldlM_nil,
        hexDigit?_digitChar hlast, Option.map_some]
      exact congrArg some (Nat.div_add_mod n 16)

theorem ofCodePoint?_hex (c : Char) : ofCodePoint? (hex c.toNat) = some c := by
  have hnonempty : (hex c.toNat).isEmpty = false := by
    simp [hex, Nat.toDigits_ne_nil]
  have hvalid : c.toNat.isValidChar := c.valid
  simp [ofCodePoint?, hnonempty, hexValue?_hex, hvalid]

namespace Written

variable {c : Char} {written : List Char}

theorem readChar_append (h : Written c written) (rest : List Char) :
    readChar (written ++ rest) = some (c, rest) := by
  cases h with
  | short hlookup _ _ =>
    rw [List.cons_append, List.cons_append, readChar]
    . rw [hlookup]
      rfl
    . rintro _ rfl
      cases hlookup
  | plain hplain _ =>
    have hslash : c ≠ '\\' := by
      rintro rfl
      cases hplain
    rw [List.cons_append, readChar]
    . rw [hplain]
      rfl
    . exact fun _ heq => absurd heq hslash
    . exact fun _ _ heq => absurd heq hslash
  | code _ _ =>
    have hhex : ∀ d ∈ hex c.toNat, (d != '\x7d') = true := by
      intro d hmem
      rw [bne_iff_ne]
      rintro rfl
      cases isAlphanum_of_mem_hex hmem
    have hsplit : codePoint c ++ rest
        = '\\' :: 'u' :: '\x7b' :: (hex c.toNat ++ '\x7d' :: rest) := by
      simp [codePoint]
    rw [hsplit, readChar, List.dropWhile_append_of_pos hhex, List.takeWhile_append_of_pos hhex]
    simp [ofCodePoint?_hex]

theorem head?_any_isDigit (h : Written c written) (rest : List Char) :
    (written ++ rest).head?.any Char.isDigit = c.isDigit := by
  cases h with
  | short _ _ hdigit =>
    rw [hdigit]
    rfl
  | plain => rfl
  | code hdigit _ =>
    rw [hdigit]
    rfl

theorem ne_quote (h : Written c written) (rest : List Char) : written ++ rest ≠ ['"'] := by
  intro heq
  have hread := h.readChar_append rest
  rw [heq] at hread
  cases hread

theorem isOctal_append (h : Written c written) (rest : List Char) :
    isOctal (written ++ rest) = (c == '\x00' && rest.head?.any Char.isDigit) := by
  have hcons : ∀ d ds, d ≠ '\\' → isOctal (d :: ds) = false := by
    intro d ds hd
    unfold isOctal
    split
    . next heq => exact absurd (List.cons.inj heq).1 hd
    . rfl
  cases h with
  | @short e hlookup hzero _ =>
    by_cases hnull : c = '\x00'
    . have he : e = '0' := hzero.2 hnull
      subst he hnull
      cases rest with
      | nil => rfl
      | cons => rfl
    . have he : e ≠ '0' := fun heq => hnull (hzero.1 heq)
      unfold isOctal
      split
      . next heq =>
        simp only [List.cons_append, List.cons.injEq] at heq
        exact absurd heq.2.1 he
      . simp [hnull]
  | plain hplain hnull =>
    have hslash : c ≠ '\\' := by
      rintro rfl
      cases hplain
    rw [List.cons_append, hcons _ _ hslash]
    simp [hnull]
  | code _ hnull =>
    simp [codePoint, isOctal, hnull]

end Written

theorem encodeChars_injective {text other : List Char}
    (h : text.flatMap encodeChar ++ ['"'] = other.flatMap encodeChar ++ ['"']) : text = other := by
  have hend : readChar ['"'] = none := rfl
  induction text generalizing other with
  | nil =>
    cases other with
    | nil => rfl
    | cons d ds =>
      have hread := congrArg readChar h
      rw [List.flatMap_cons, List.append_assoc, (written_encodeChar _).readChar_append] at hread
      cases hend.symm.trans hread
  | cons c cs ih =>
    have hread := congrArg readChar h
    rw [List.flatMap_cons, List.append_assoc, (written_encodeChar _).readChar_append] at hread
    cases other with
    | nil => cases hread.trans hend
    | cons d ds =>
      rw [List.flatMap_cons, List.append_assoc, (written_encodeChar _).readChar_append] at hread
      obtain ⟨hc, hrest⟩ := Prod.mk.inj (Option.some.inj hread)
      rw [hc, ih hrest]

theorem encode_injective {text other : String} (h : encode text = encode other) :
    text = other := by
  have hlist := congrArg String.toList h
  unfold encode encodeChars at hlist
  simp only [String.toList_ofList, List.cons_append, List.cons.injEq, true_and] at hlist
  exact String.toList_inj.1 (encodeChars_injective hlist)

def nullBeforeDigit : List Char → Bool
  | [] => false
  | c :: cs => (c == '\x00' && cs.head?.any Char.isDigit) || nullBeforeDigit cs

theorem head?_encoded_any_isDigit (text : List Char) :
    (text.flatMap encodeChar ++ ['"']).head?.any Char.isDigit = text.head?.any Char.isDigit := by
  cases text with
  | nil => rfl
  | cons c cs =>
    rw [List.flatMap_cons, List.append_assoc, (written_encodeChar c).head?_any_isDigit]
    rfl

theorem value_encoded (text : List Char) :
    value (text.flatMap encodeChar ++ ['"'])
      = if nullBeforeDigit text then none else some text := by
  induction text with
  | nil =>
    rw [value]
    rfl
  | cons c cs ih =>
    have hwritten := written_encodeChar c
    rw [List.flatMap_cons, List.append_assoc, value_cons (hwritten.ne_quote _)
      (hwritten.readChar_append _), hwritten.isOctal_append, head?_encoded_any_isDigit, ih]
    rw [nullBeforeDigit]
    cases c == '\x00' && cs.head?.any Char.isDigit with
    | true => rfl
    | false => cases nullBeforeDigit cs <;> rfl

theorem decode_encode (text : String) :
    decode (encode text) = if nullBeforeDigit text.toList then none else some text := by
  have hlist : (encode text).toList = '"' :: (text.toList.flatMap encodeChar ++ ['"']) := by
    simp [encode, encodeChars]
  unfold decode
  simp only [hlist, value_encoded]
  split
  . rfl
  . simp

end Bindings.Text.Quoted
