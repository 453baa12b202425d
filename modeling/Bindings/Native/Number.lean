import Bindings.Text.WordCharacter

/-!
This module contains the numbers among the literals of native source text: whether a literal is an
integer, and which one.
-/

namespace Bindings.Native

structure IntegerLiteral where
  value : Nat
  suffix : List Char
deriving DecidableEq, Repr

namespace IntegerLiteral

def digit? (base : Nat) (c : Char) : Option Nat :=
  let value :=
    if c.isDigit then c.toNat - '0'.toNat
    else if 'a' ≤ c ∧ c ≤ 'f' then c.toNat - 'a'.toNat + 10
    else if 'A' ≤ c ∧ c ≤ 'F' then c.toNat - 'A'.toNat + 10
    else 16
  if value < base then some value else none

def isExponent (cs : List Char) : Bool :=
  match cs.dropWhile (· == '_') with
  | [] => false
  | c :: _ => c == '+' || c == '-' || c.isDigit

/--
Reads digits. A point or an exponent behind decimal digits makes no integer of them.
-/
def digits (base value : Nat) : List Char → Option IntegerLiteral
  | [] => some ⟨value, []⟩
  | c :: cs =>
    if c == '_' then digits base value cs
    else
      match digit? base c with
      | some d => digits base (value * base + d) cs
      | none =>
        if base = 10 ∧ (c = '.' ∨ ((c = 'e' ∨ c = 'E') ∧ isExponent cs)) then none
        else some ⟨value, c :: cs⟩

def ofChars? : List Char → Option IntegerLiteral
  | '0' :: 'x' :: cs => digits 16 0 cs
  | '0' :: 'o' :: cs => digits 8 0 cs
  | '0' :: 'b' :: cs => digits 2 0 cs
  | c :: cs => if c.isDigit then digits 10 0 (c :: cs) else none
  | [] => none

def ofText? (text : String) : Option IntegerLiteral :=
  ofChars? text.toList

end IntegerLiteral

namespace Number

def isNumber (text : String) : Bool :=
  text.toList.head?.any Char.isDigit

def isFloat (text : String) : Bool :=
  isNumber text && (IntegerLiteral.ofText? text).isNone

end Number

end Bindings.Native
