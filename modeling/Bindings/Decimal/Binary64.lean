/-!
This module contains the non-negative finite binary floating point numbers of 64 bits and the
rounding of quotients to them: to the nearest one, ties to the even one.
-/

namespace Bindings

/--
The number `mantissa * 2 ^ (shift - 1074)`.
-/
structure Binary64 where
  mantissa : Nat
  shift : Nat
deriving DecidableEq, Repr

namespace Binary64

def zero : Binary64 := ⟨0, 0⟩

/--
Twice the least exponent of a number that is too large.
-/
def limit : Nat := Nat.pow 2 53

/--
The integer nearest to a quotient, ties to the even one.
-/
def roundQuotient (n d : Nat) : Nat :=
  let q := n / d
  let r := 2 * (n % d)
  if r < d then q else if d < r then q + 1 else q + q % 2

def shiftFor (n d : Nat) : Nat :=
  let bits := (n / d).log2 + 1
  if n / d < limit then 0 else bits - 53

def ofQuotient? (n d : Nat) : Option Binary64 :=
  let scaled := n * Nat.pow 2 1074
  let shift := shiftFor scaled d
  let mantissa := roundQuotient scaled (d * Nat.pow 2 shift)
  let result : Binary64 := if mantissa = limit then ⟨mantissa / 2, shift + 1⟩ else ⟨mantissa, shift⟩
  if 2045 < result.shift then none else some result

def numerator (x : Binary64) : Nat :=
  x.mantissa * Nat.pow 2 x.shift

def mul? (x y : Binary64) : Option Binary64 :=
  ofQuotient? (x.numerator * y.numerator) (Nat.pow 2 2148)

def div? (x y : Binary64) : Option Binary64 :=
  ofQuotient? x.numerator y.numerator

def powerOfTen? (k : Nat) : Option Binary64 :=
  ofQuotient? (Nat.pow 10 k) 1

end Binary64

end Bindings
