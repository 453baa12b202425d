import Bindings.Json.Lexeme
import Bindings.Json.Value

/-!
This module contains that strings and numbers are read as they were written.
-/

namespace Bindings.Json

def StandsFor (unit : CodeUnit) (c : Char) : Prop :=
  ∀ units, decodeUnits (unit :: units) = (decodeUnits units).map (c :: ·)

theorem standsFor_char (c : Char) : StandsFor (.char c) c := by
  intro units
  simp only [decodeUnits]
  cases decodeUnits units <;> rfl

theorem standsFor_unit {c : Char} (h : c.toNat < 0xd800) : StandsFor (.unit c.toNat) c := by
  have hhigh : isHighSurrogate c.toNat = false := by
    simp only [isHighSurrogate, Bool.and_eq_false_iff, decide_eq_false_iff_not]
    omega
  have hlow : isLowSurrogate c.toNat = false := by
    simp only [isLowSurrogate, Bool.and_eq_false_iff, decide_eq_false_iff_not]
    omega
  intro units
  cases units with
  | nil => simp [decodeUnits, hhigh, hlow]
  | cons unit units =>
    cases unit with
    | char d =>
      simp only [decodeUnits, hhigh, hlow]
      cases decodeUnits units <;> simp
    | unit m =>
      simp only [decodeUnits, hhigh, hlow]
      cases decodeUnits (.unit m :: units) <;> simp

theorem hexQuad?_hexPair {n : Nat} (h : n < 0x20) :
    hexQuad? '0' '0' (Nat.digitChar (n / 16)) (Nat.digitChar (n % 16)) = some n := by
  have hall : ∀ n < 0x20,
      hexQuad? '0' '0' (Nat.digitChar (n / 16)) (Nat.digitChar (n % 16)) = some n := by decide
  exact hall n h

theorem stringUnits_short {e c : Char} (h : shortEscapes.lookup e = some c) (cs : List Char) :
    stringUnits ('\\' :: e :: cs)
      = (stringUnits cs).map fun (units, rest) => (.char c :: units, rest) := by
  rw [stringUnits]
  . simp only [h]
    cases stringUnits cs <;> rfl
  . rintro _ _ _ _ _ rfl
    cases h

theorem stringUnits_plain {c : Char} (hquote : c ≠ '"') (hslash : c ≠ '\\')
    (hcontrol : ¬ c.toNat < 0x20) (cs : List Char) :
    stringUnits (c :: cs)
      = (stringUnits cs).map fun (units, rest) => (.char c :: units, rest) := by
  rw [stringUnits]
  . simp only [hslash, hcontrol, decide_false, beq_false_of_ne, ne_eq, not_false_eq_true,
      Bool.or_self, Bool.false_eq_true, if_false]
    cases stringUnits cs <;> rfl
  . exact hquote
  . exact fun _ _ _ _ _ heq => absurd heq hslash
  . exact fun _ _ heq => absurd heq hslash

theorem stringUnits_escapeChar (c : Char) :
    ∃ unit, StandsFor unit c ∧ ∀ rest, stringUnits (escapeChar c ++ rest)
      = (stringUnits rest).map fun (units, rest) => (unit :: units, rest) := by
  unfold escapeChar
  split
  case h_8 hquote hslash _ _ _ _ _ =>
    split
    . next hcontrol =>
      refine ⟨.unit c.toNat, standsFor_unit (by omega), ?_⟩
      intro rest
      simp only [hexPair, List.cons_append, List.nil_append, stringUnits,
        hexQuad?_hexPair hcontrol]
      cases stringUnits rest <;> rfl
    . next hcontrol => exact ⟨_, standsFor_char c, stringUnits_plain hquote hslash hcontrol⟩
  all_goals exact ⟨_, standsFor_char _, stringUnits_short (by decide)⟩

theorem readString_escaped (text rest : List Char) :
    readString (text.flatMap escapeChar ++ '"' :: rest)
      = some (some (String.ofList text), rest) := by
  have hunits : ∃ units, stringUnits (text.flatMap escapeChar ++ '"' :: rest) = some (units, rest)
      ∧ decodeUnits units = some text := by
    induction text with
    | nil => exact ⟨[], by simp [stringUnits], by simp [decodeUnits]⟩
    | cons c cs ih =>
      obtain ⟨units, hread, hdecode⟩ := ih
      obtain ⟨unit, hstands, hunit⟩ := stringUnits_escapeChar c
      refine ⟨unit :: units, ?_, ?_⟩
      . rw [List.flatMap_cons, List.append_assoc, hunit, hread]
        rfl
      . rw [hstands, hdecode]
        rfl
  obtain ⟨units, hread, hdecode⟩ := hunits
  simp [readString, hread, hdecode]

def EndsNumber (rest : List Char) : Prop :=
  ∀ c cs, rest = c :: cs → c.isDigit = false ∧ c ≠ '.' ∧ c ≠ 'e' ∧ c ≠ 'E'

theorem toDigits_eq_cons {n : Nat} (h : n ≠ 0) :
    ∃ c cs, Nat.toDigits 10 n = c :: cs ∧ c ≠ '0' := by
  induction n using Nat.strongRecOn with
  | ind n ih =>
    rw [Nat.toDigits_eq_if (by decide)]
    split
    . refine ⟨_, [], rfl, ?_⟩
      rw [ne_eq, Nat.digitChar_eq_zero]
      exact h
    . obtain ⟨c, cs, heq, hc⟩ := ih (n / 10) (by omega) (by omega)
      refine ⟨c, cs ++ [Nat.digitChar (n % 10)], ?_, hc⟩
      rw [heq, List.cons_append]

theorem spanDigits_append {digits rest : List Char} (hdigits : ∀ c ∈ digits, c.isDigit = true)
    (hrest : EndsNumber rest) : spanDigits (digits ++ rest) = (digitValues digits, rest) := by
  have htake : rest.takeWhile Char.isDigit = [] := by
    cases rest with
    | nil => rfl
    | cons c cs => simp [(hrest c cs rfl).1]
  have hdrop : rest.dropWhile Char.isDigit = rest := by
    cases rest with
    | nil => rfl
    | cons c cs => simp [(hrest c cs rfl).1]
  rw [spanDigits, List.takeWhile_append_of_pos hdigits, List.dropWhile_append_of_pos hdigits, htake,
    hdrop, List.append_nil]

theorem readInteger_toDigits (n : Nat) {rest : List Char} (hrest : EndsNumber rest) :
    readInteger (Nat.toDigits 10 n ++ rest) = some (digitValues (Nat.toDigits 10 n), rest) := by
  by_cases hzero : n = 0
  . subst hzero
    have hnone : rest.head?.any Char.isDigit = false := by
      cases rest with
      | nil => rfl
      | cons c cs => exact (hrest c cs rfl).1
    show readInteger ('0' :: rest) = some ([0], rest)
    rw [readInteger, hnone]
    rfl
  . obtain ⟨c, cs, hdigits, hc⟩ := toDigits_eq_cons hzero
    have hspan : spanDigits (Nat.toDigits 10 n ++ rest)
        = (digitValues (Nat.toDigits 10 n), rest) :=
      spanDigits_append (fun _ => Nat.isDigit_of_mem_toDigits (by decide) (by decide)) hrest
    rw [hdigits] at hspan ⊢
    rw [List.cons_append] at hspan ⊢
    rw [readInteger, hspan]
    . rfl
    . intro _ heq
      exact hc (List.cons.inj heq).1

theorem readNumeral_toDigits (n : Nat) {rest : List Char} (hrest : EndsNumber rest) :
    readNumeral false (Nat.toDigits 10 n ++ rest)
      = some (⟨false, digitValues (Nat.toDigits 10 n), [], none⟩, rest) := by
  have hfraction : readFraction rest = some ([], rest) := by
    rw [readFraction]
    intro cs heq
    exact (hrest _ cs heq).2.1 rfl
  have hexponent : readExponent rest = some (none, rest) := by
    cases rest with
    | nil => rfl
    | cons c cs =>
      obtain ⟨_, _, he, hE⟩ := hrest c cs rfl
      simp [readExponent, he, hE]
  simp only [readNumeral, readInteger_toDigits n hrest, Option.bind_eq_bind, Option.bind_some,
    hfraction, hexponent]
  rfl

end Bindings.Json
