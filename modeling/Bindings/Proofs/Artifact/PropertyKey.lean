import Bindings.Artifact.Block
import Bindings.Proofs.Text.Value

/-!
This module contains what the keys of properties and the literals of variants stand for in the
target: the names that they were written for, unless a null character stands before a decimal digit.
-/

namespace Bindings.Artifact

open Text

def keyName? (key : String) : Option String :=
  if Identifier.isIdentifier key then some key else Quoted.decode key

theorem quote_not_mem_of_isIdentifier {name : String} (h : Identifier.isIdentifier name = true) :
    '"' ∉ name.toList :=
  fun hmem => Identifier.not_mem_of_mem h (by decide) '"' hmem (List.mem_singleton_self _)

theorem isIdentifier_encode (name : String) :
    Identifier.isIdentifier (Quoted.encode name) = false := by
  rw [Bool.eq_false_iff]
  intro h
  apply quote_not_mem_of_isIdentifier h
  simp [Quoted.encode, Quoted.encodeChars]

theorem nullBeforeDigit_of_forall {cs : List Char} (h : ∀ c ∈ cs, c ≠ '\x00') :
    Quoted.nullBeforeDigit cs = false := by
  induction cs with
  | nil => rfl
  | cons c cs ih =>
    rw [List.forall_mem_cons] at h
    rw [Quoted.nullBeforeDigit, ih h.2, beq_false_of_ne h.1]
    rfl

theorem keyName?_propertyKey (name : String) :
    keyName? (propertyKey name)
      = if Quoted.nullBeforeDigit name.toList then none else some name := by
  unfold propertyKey
  split
  . next hident =>
    have hnull : Quoted.nullBeforeDigit name.toList = false := by
      apply nullBeforeDigit_of_forall
      rintro c hmem rfl
      cases Identifier.isContinue_of_mem hident _ hmem
    simp [keyName?, hident, hnull]
  . simp [keyName?, isIdentifier_encode, Quoted.decode_encode]

theorem eq_of_encode_eq_propertyKey {name other : String}
    (h : Quoted.encode name = propertyKey other) : name = other := by
  unfold propertyKey at h
  split at h
  . next hident =>
    rw [← h, isIdentifier_encode] at hident
    cases hident
  . exact Quoted.encode_injective h

theorem propertyKey_injective {name other : String} (h : propertyKey name = propertyKey other) :
    name = other := by
  by_cases hident : Identifier.isIdentifier name = true
  . by_cases hother : Identifier.isIdentifier other = true
    . rwa [propertyKey, propertyKey, if_pos hident, if_pos hother] at h
    . rw [propertyKey, propertyKey, if_pos hident, if_neg hother] at h
      rw [h, isIdentifier_encode] at hident
      cases hident
  . rw [propertyKey, if_neg hident] at h
    exact eq_of_encode_eq_propertyKey h

/--
A name that is an identifier is its own key. Any other key and the literal of a variant are quoted
names. They stand for the name exactly if no null character stands before a decimal digit in it;
otherwise they are nothing that strict mode allows.
-/
theorem key_and_literal_denote (name : String) :
    propertyKey name = (if Identifier.isIdentifier name then name else Quoted.encode name)
      ∧ (∀ nameOf o doc,
          memberText nameOf o .external ⟨name, .unit, doc⟩ = Quoted.encode name)
      ∧ keyName? (propertyKey name)
          = (if Quoted.nullBeforeDigit name.toList then none else some name)
      ∧ Quoted.decode (Quoted.encode name)
          = (if Quoted.nullBeforeDigit name.toList then none else some name) :=
  ⟨rfl, fun _ _ _ => rfl, keyName?_propertyKey name, Quoted.decode_encode name⟩

/--
The escape of a null character takes the digit behind it for a part of an octal code.
-/
theorem not_denoted_null_digit :
    propertyKey "\x001" = "\"\\01\"" ∧ keyName? "\"\\01\"" = none
      ∧ ¬ ∀ name, keyName? (propertyKey name) = some name
        ∧ Quoted.decode (Quoted.encode name) = some name := by
  have hkey : propertyKey "\x001" = "\"\\01\"" := by decide +kernel
  have hnone : keyName? (propertyKey "\x001") = none := by
    rw [keyName?_propertyKey]
    rfl
  refine ⟨hkey, hkey ▸ hnone, ?_⟩
  intro h
  cases hnone.symm.trans (h "\x001").1

end Bindings.Artifact
