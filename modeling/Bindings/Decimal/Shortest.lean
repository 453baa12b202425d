import Bindings.Decimal.Binary64

/-!
This module contains the shortest decimal that reads back as a given number: no decimal with fewer
digits rounds to the number, and of those with as many digits none is nearer to it.
-/

namespace Bindings

/--
The number `d₀.d₁d₂… * 10 ^ exponent`.
-/
structure Decimal where
  digits : List Char
  exponent : Int
deriving DecidableEq, Repr

namespace Decimal

/--
The decimals that round to a number, as numerators over a common denominator. The ends belong to
them where ties go to the number.
-/
structure Interval where
  low : Nat
  value : Nat
  high : Nat
  denominator : Nat
  closed : Bool

namespace Interval

/--
The neighbours of a number are half a unit away, below a power of two a quarter.
-/
def around (x : Binary64) : Interval :=
  let scale := Nat.pow 2 x.shift
  let below := if 2 * x.mantissa = Binary64.limit ∧ x.shift ≠ 0 then 1 else 2
  ⟨(4 * x.mantissa - below) * scale, 4 * x.mantissa * scale, (4 * x.mantissa + 2) * scale,
    4 * Nat.pow 2 1074, x.mantissa % 2 = 0⟩

def contains (i : Interval) (n d : Nat) : Bool :=
  let scaled := n * i.denominator
  if i.closed then i.low * d ≤ scaled && scaled ≤ i.high * d
  else i.low * d < scaled && scaled < i.high * d

end Interval

def leadingExponent (n d : Nat) : Int :=
  if d ≤ n then
    ((Nat.toDigits 10 (n / d)).length : Int) - 1
  else
    go 400 1 (n * 10)
where
  go : Nat → Nat → Nat → Int
    | 0, places, _ => -(places : Int)
    | fuel + 1, places, n => if d ≤ n then -(places : Int) else go fuel (places + 1) (n * 10)

def pick? (i : Interval) (place : Int) : Option Nat :=
  let up := Nat.pow 10 place.toNat
  let down := Nat.pow 10 (-place).toNat
  let n := i.value * down
  let d := i.denominator * up
  let low := n / d
  let high := low + 1
  match i.contains (low * up) down, i.contains (high * up) down with
  | false, false => none
  | true, false => some low
  | false, true => some high
  | true, true =>
    let rest := 2 * (n % d)
    if rest < d ∨ rest = d ∧ low % 2 = 0 then some low else some high

def ofPoint (point : Nat) (place : Int) : Decimal :=
  let digits := Nat.toDigits 10 point
  let kept := (digits.reverse.dropWhile (· == '0')).reverse
  ⟨if kept.isEmpty then ['0'] else kept, place + (digits.length : Int) - 1⟩

/--
The shortest decimal of a number. At most 17 digits are needed.
-/
def shortest (x : Binary64) : Decimal :=
  if x.mantissa = 0 then ⟨['0'], 0⟩ else
    let i := Interval.around x
    let exponent := leadingExponent i.value i.denominator
    go i exponent 18 0
where
  go (i : Interval) (exponent : Int) : Nat → Nat → Decimal
    | 0, _ => ⟨['0'], 0⟩
    | fuel + 1, digits =>
      let place := exponent - digits
      match pick? i place with
      | some point => ofPoint point place
      | none => go i exponent fuel (digits + 1)

end Decimal

end Bindings
