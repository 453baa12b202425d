import Bindings.Decimal.Shortest
import Bindings.Json.Fault

/-!
This module contains the numerals of JSON texts and the numbers that are read from them.
-/

namespace Bindings.Json

structure Numeral where
  negative : Bool
  integer : List Nat
  /-- The digits after the point; none if there is no point. -/
  fraction : List Nat
  /-- The sign and the digits of the exponent. -/
  exponent : Option (Bool × List Nat)
deriving DecidableEq, Repr

namespace Numeral

def accumulate (bound : Nat) (significand : Nat) : List Nat → Nat × List Nat
  | [] => (significand, [])
  | d :: ds =>
    if bound < significand * 10 + d then
      (significand, d :: ds)
    else
      accumulate bound (significand * 10 + d) ds

def maxUnsigned : Nat := Nat.pow 2 64 - 1

/--
The least power of ten that is no number of 64 bits is `10 ^ 309`.
-/
def maxPower : Nat := 308

/--
Scales down by powers of ten, the largest ones first. Every step rounds.
-/
def scaleDown (x : Binary64) (places : Nat) : Binary64 :=
  if places ≤ maxPower then
    (do x.div? (← Binary64.powerOfTen? places)).getD .zero
  else if x = .zero then
    .zero
  else
    scaleDown ((do x.div? (← Binary64.powerOfTen? maxPower)).getD .zero) (places - maxPower)
termination_by places
decreasing_by simp only [maxPower] at *; omega

def scale? (significand : Nat) (exponent : Int) : Option Binary64 := do
  let x ← Binary64.ofQuotient? significand 1
  if exponent < 0 then
    return scaleDown x (-exponent).toNat
  else if exponent.toNat ≤ maxPower then
    x.mul? (← Binary64.powerOfTen? exponent.toNat)
  else if x = .zero then
    return .zero
  else
    none

def maxExponent : Nat := Nat.pow 2 31 - 1

def clampExponent (exponent : Int) : Int :=
  max (-(maxExponent : Int) - 1) (min maxExponent exponent)

/--
The magnitude of a numeral that is no integer of 64 bits, unless it is too large. Digits beyond 64
bits count as zeros before the point and not at all after it.
-/
def magnitude? (numeral : Numeral) : Option Binary64 :=
  let (whole, dropped) := accumulate maxUnsigned 0 numeral.integer
  let (significand, ignored) := accumulate maxUnsigned whole numeral.fraction
  let places : Int := dropped.length - (numeral.fraction.length - ignored.length : Nat)
  match numeral.exponent with
  | none => scale? significand places
  | some (negative, digits) =>
    match accumulate maxExponent 0 digits with
    | (exponent, []) =>
      scale? significand (clampExponent (if negative then places - exponent else places + exponent))
    | (_, _ :: _) => if significand ≠ 0 ∧ !negative then none else some .zero

def floatText (negative : Bool) (x : Binary64) : String :=
  let ⟨digits, exponent⟩ := Decimal.shortest x
  let sign := if negative then "-" else ""
  let zeros (n : Nat) := List.replicate n '0'
  if exponent < -5 ∨ 15 < exponent then
    let fraction := if digits.length ≤ 1 then [] else '.' :: digits.drop 1
    let places := exponent.natAbs
    sign ++ String.ofList (digits.take 1 ++ fraction) ++ "e" ++ (if exponent < 0 then "-" else "+")
      ++ places.repr
  else if exponent < 0 then
    sign ++ "0." ++ String.ofList (zeros (exponent.natAbs - 1) ++ digits)
  else
    let whole := exponent.toNat + 1
    if digits.length ≤ whole then
      sign ++ String.ofList (digits ++ zeros (whole - digits.length)) ++ ".0"
    else
      sign ++ String.ofList (digits.take whole) ++ "." ++ String.ofList (digits.drop whole)

/--
What a numeral denotes, unless it is too large: an integer of 64 bits or a number that is none.
There is no negative zero among the integers.
-/
def denote? (numeral : Numeral) : Option Found :=
  let float := numeral.magnitude?.map fun x => .float (floatText numeral.negative x)
  if numeral.fraction = [] ∧ numeral.exponent = none then
    match accumulate maxUnsigned 0 numeral.integer with
    | (n, []) =>
      if !numeral.negative then some (.integer n)
      else if n = 0 ∨ Nat.pow 2 63 < n then float
      else some (.integer (-n))
    | (_, _ :: _) => float
  else
    float

end Numeral

end Bindings.Json
