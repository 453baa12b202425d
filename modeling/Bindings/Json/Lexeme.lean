import Bindings.Json.Numeral

/-!
This module contains the reading of the strings and numerals of JSON texts.
-/

namespace Bindings.Json

def isSpace (c : Char) : Bool :=
  c == ' ' || c == '\n' || c == '\t' || c == '\r'

def skipSpace (cs : List Char) : List Char :=
  cs.dropWhile isSpace

def hexDigit? (c : Char) : Option Nat :=
  if c.isDigit then some (c.toNat - '0'.toNat)
  else if 'a' ≤ c ∧ c ≤ 'f' then some (c.toNat - 'a'.toNat + 10)
  else if 'A' ≤ c ∧ c ≤ 'F' then some (c.toNat - 'A'.toNat + 10)
  else none

def hexQuad? (a b c d : Char) : Option Nat := do
  return (← hexDigit? a) * 4096 + (← hexDigit? b) * 256 + (← hexDigit? c) * 16 + (← hexDigit? d)

inductive CodeUnit
  | char (c : Char)
  /-- An escaped UTF-16 unit. -/
  | unit (n : Nat)

def shortEscapes : List (Char × Char) :=
  [('"', '"'), ('\\', '\\'), ('/', '/'), ('b', '\x08'), ('f', '\x0c'), ('n', '\n'), ('r', '\r'),
    ('t', '\t')]

/--
The units of a string after its opening quote and what follows the closing one. None if the string
is not closed, holds a control character or an unknown escape.
-/
def stringUnits : List Char → Option (List CodeUnit × List Char)
  | '"' :: cs => some ([], cs)
  | '\\' :: 'u' :: a :: b :: c :: d :: cs => do
    let n ← hexQuad? a b c d
    let (units, rest) ← stringUnits cs
    return (.unit n :: units, rest)
  | '\\' :: e :: cs => do
    let c ← shortEscapes.lookup e
    let (units, rest) ← stringUnits cs
    return (.char c :: units, rest)
  | c :: cs => do
    if c == '\\' || c.toNat < 0x20 then failure
    let (units, rest) ← stringUnits cs
    return (.char c :: units, rest)
  | [] => none

def isHighSurrogate (n : Nat) : Bool :=
  0xd800 ≤ n && n < 0xdc00

def isLowSurrogate (n : Nat) : Bool :=
  0xdc00 ≤ n && n < 0xe000

def decodeUnits : List CodeUnit → Option (List Char)
  | [] => some []
  | .char c :: units => do return c :: (← decodeUnits units)
  | .unit n :: .unit m :: units => do
    if isHighSurrogate n && isLowSurrogate m then
      return Char.ofNat (0x10000 + (n - 0xd800) * 0x400 + (m - 0xdc00)) :: (← decodeUnits units)
    else if isHighSurrogate n || isLowSurrogate n then
      failure
    else
      return Char.ofNat n :: (← decodeUnits (.unit m :: units))
  | .unit n :: units => do
    if isHighSurrogate n || isLowSurrogate n then failure
    return Char.ofNat n :: (← decodeUnits units)

def readString (cs : List Char) : Option (Option String × List Char) :=
  (stringUnits cs).map fun (units, rest) => ((decodeUnits units).map String.ofList, rest)

def digitValues (cs : List Char) : List Nat :=
  cs.map fun c => c.toNat - '0'.toNat

def spanDigits (cs : List Char) : List Nat × List Char :=
  (digitValues (cs.takeWhile Char.isDigit), cs.dropWhile Char.isDigit)

def readInteger : List Char → Option (List Nat × List Char)
  | '0' :: cs => if (cs.head?.any Char.isDigit) then none else some ([0], cs)
  | cs =>
    match spanDigits cs with
    | ([], _) => none
    | result => some result

def readFraction : List Char → Option (List Nat × List Char)
  | '.' :: cs =>
    match spanDigits cs with
    | ([], _) => none
    | result => some result
  | cs => some ([], cs)

def readSign : List Char → Bool × List Char
  | '-' :: cs => (true, cs)
  | '+' :: cs => (false, cs)
  | cs => (false, cs)

def readExponent : List Char → Option (Option (Bool × List Nat) × List Char)
  | [] => some (none, [])
  | c :: cs =>
    if c == 'e' || c == 'E' then
      let (negative, cs) := readSign cs
      match spanDigits cs with
      | ([], _) => none
      | (digits, rest) => some (some (negative, digits), rest)
    else
      some (none, c :: cs)

def readNumeral (negative : Bool) (cs : List Char) : Option (Numeral × List Char) := do
  let (integer, cs) ← readInteger cs
  let (fraction, cs) ← readFraction cs
  let (exponent, cs) ← readExponent cs
  return (⟨negative, integer, fraction, exponent⟩, cs)

def afterWord? (word cs : List Char) : Option (List Char) :=
  if word.isPrefixOf cs then some (cs.drop word.length) else none

end Bindings.Json
