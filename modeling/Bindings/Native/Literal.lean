import Bindings.Text.WordCharacter

/-!
This module contains the literals of native source text. Reading a literal yields what follows it
and, for a string, what it denotes.
-/

namespace Bindings.Native.Literal

inductive Kind
  | text
  | bytes
  | terminated
deriving DecidableEq

inductive State
  | plain
  /-- Behind a carriage return, which a line feed has to follow. -/
  | afterReturn
  /-- Behind a backslash. -/
  | escape
  | hexHigh
  | hexLow (high : Nat)
  | brace
  | code (value digits : Nat)
  /-- In white space behind an escaped line end. -/
  | gap
  | gapAfterReturn

def hexDigit? (c : Char) : Option Nat :=
  if c.isDigit then some (c.toNat - '0'.toNat)
  else if 'a' ≤ c ∧ c ≤ 'f' then some (c.toNat - 'a'.toNat + 10)
  else if 'A' ≤ c ∧ c ≤ 'F' then some (c.toNat - 'A'.toNat + 10)
  else none

def shortEscapes : List (Char × Char) :=
  [('n', '\n'), ('r', '\r'), ('t', '\t'), ('\\', '\\'), ('0', '\x00'), ('\'', '\''), ('"', '"')]

namespace Kind

def allowsByte (kind : Kind) (n : Nat) : Bool :=
  match kind with
  | text => n < 0x80
  | bytes => true
  | terminated => n != 0

def allowsChar (kind : Kind) (c : Char) : Bool :=
  match kind with
  | text => true
  | bytes => c.toNat < 0x80
  | terminated => c != '\x00'

end Kind

def readQuoted (kind : Kind) : State → List Char → Option (List Char × List Char)
  | _, [] => none
  | .afterReturn, c :: cs =>
    if c == '\n' then emit '\n' (readQuoted kind .plain cs) else none
  | .escape, c :: cs =>
    if c == 'x' then readQuoted kind .hexHigh cs
    else if c == 'u' && kind != .bytes then readQuoted kind .brace cs
    else if c == '\n' then readQuoted kind .gap cs
    else if c == '\r' then readQuoted kind .gapAfterReturn cs
    else do
      let denoted ← shortEscapes.lookup c
      if !kind.allowsChar denoted then failure
      emit denoted (readQuoted kind .plain cs)
  | .hexHigh, c :: cs => do readQuoted kind (.hexLow (← hexDigit? c)) cs
  | .hexLow high, c :: cs => do
    let n := high * 16 + (← hexDigit? c)
    if !kind.allowsByte n then failure
    emit (Char.ofNat n) (readQuoted kind .plain cs)
  | .brace, c :: cs => if c == '\x7b' then readQuoted kind (.code 0 0) cs else none
  | .code value digits, c :: cs =>
    match hexDigit? c with
    | some d =>
      if digits < 6 then readQuoted kind (.code (value * 16 + d) (digits + 1)) cs else none
    | none =>
      if digits = 0 then none
      else if c == '_' then readQuoted kind (.code value digits) cs
      else if c == '\x7d' && value.isValidChar && kind.allowsChar (Char.ofNat value) then
        emit (Char.ofNat value) (readQuoted kind .plain cs)
      else none
  | .gapAfterReturn, c :: cs => if c == '\n' then readQuoted kind .gap cs else none
  | .gap, c :: cs =>
    if c == ' ' || c == '\t' || c == '\n' then readQuoted kind .gap cs
    else if c == '\r' then readQuoted kind .gapAfterReturn cs
    else if c == '"' then some ([], cs)
    else if c == '\\' then readQuoted kind .escape cs
    else if kind.allowsChar c then emit c (readQuoted kind .plain cs)
    else none
  | .plain, c :: cs =>
    if c == '"' then some ([], cs)
    else if c == '\r' then readQuoted kind .afterReturn cs
    else if c == '\\' then readQuoted kind .escape cs
    else if kind.allowsChar c then emit c (readQuoted kind .plain cs)
    else none
where
  emit (c : Char) (result : Option (List Char × List Char)) : Option (List Char × List Char) :=
    result.map fun (denoted, rest) => (c :: denoted, rest)

def readRawBody (kind : Kind) (hashes : List Char) : List Char → Option (List Char × List Char)
  | [] => none
  | c :: cs =>
    if c == '"' && hashes.isPrefixOf cs then some ([], cs.drop hashes.length)
    else if c == '\r' && cs.head? != some '\n' then none
    else if !kind.allowsChar c then none
    else (readRawBody kind hashes cs).map fun (denoted, rest) => (c :: denoted, rest)

def readRaw (kind : Kind) (cs : List Char) : Option (List Char × List Char) :=
  let hashes := cs.takeWhile (· == '#')
  match cs.dropWhile (· == '#') with
  | '"' :: cs => if hashes.length ≤ 255 then readRawBody kind hashes cs else none
  | _ => none

def dropWord : List Char → List Char
  | [] => []
  | c :: cs => if Text.isWordStart c then cs.dropWhile Text.isWordContinue else c :: cs

def readCharacter (kind : Kind) (cs : List Char) : Option (List Char) :=
  let body : Option (List Char) :=
    match cs with
    | '\\' :: 'x' :: a :: b :: cs => do
      let n := (← hexDigit? a) * 16 + (← hexDigit? b)
      if kind.allowsByte n then return cs else failure
    | '\\' :: 'u' :: '\x7b' :: cs => if kind = .text then code cs 0 0 else none
    | '\\' :: e :: cs => (shortEscapes.lookup e).map fun _ => cs
    | c :: cs => if kind.allowsChar c then some cs else none
    | [] => none
  match body with
  | some ('\'' :: rest) => some rest
  | _ => none
where
  code : List Char → Nat → Nat → Option (List Char)
    | [], _, _ => none
    | c :: cs, value, digits =>
      match hexDigit? c with
      | some d => if digits < 6 then code cs (value * 16 + d) (digits + 1) else none
      | none =>
        if digits = 0 then none
        else if c == '_' then code cs value digits
        else if c == '\x7d' && value.isValidChar then some cs
        else none

def isDigitOrUnderscore (c : Char) : Bool :=
  c.isDigit || c == '_'

def readExponent? (cs : List Char) : Option (List Char) :=
  let unsigned := cs.dropWhile (· == '_')
  let cs :=
    match unsigned with
    | c :: rest => if c == '+' || c == '-' then rest else unsigned
    | [] => []
  let body := cs.takeWhile isDigitOrUnderscore
  match body.any Char.isDigit, cs.dropWhile isDigitOrUnderscore with
  | true, rest => some rest
  | false, _ => none

def readFloat : List Char → Option (List Char)
  | [] => none
  | c :: cs =>
    if !c.isDigit then none
    else
      match cs.dropWhile isDigitOrUnderscore with
      | '.' :: rest =>
        if rest.head?.any fun c => c == '.' || Text.isWordStart c then none
        else
          match rest.dropWhile isDigitOrUnderscore with
          | e :: rest =>
            if e == 'e' || e == 'E' then some ((readExponent? rest).getD (e :: rest))
            else some (e :: rest)
          | [] => some []
      | e :: rest => if e == 'e' || e == 'E' then readExponent? rest else none
      | [] => none

/--
The digits of a base, underscores included, and what follows them. A digit that is too large for the
base is no end but an error.
-/
def readDigits (base : Nat) (empty : Bool) : List Char → Option (List Char)
  | [] => if empty then none else some []
  | c :: cs =>
    if c.isDigit then
      if c.toNat - '0'.toNat < base then readDigits base false cs else none
    else if c == '_' then
      if empty && base == 10 then none else readDigits base empty cs
    else
      match hexDigit? c with
      | some d =>
        if d < base then readDigits base false cs else if empty then none else some (c :: cs)
      | none => if empty then none else some (c :: cs)

def readInteger : List Char → Option (List Char)
  | '0' :: 'x' :: cs => readDigits 16 true cs
  | '0' :: 'o' :: cs => readDigits 8 true cs
  | '0' :: 'b' :: cs => readDigits 2 true cs
  | cs => readDigits 10 true cs

/--
What follows the suffix of a number. A number ends where a word would not go on.
-/
def endNumber (cs : List Char) : Option (List Char) :=
  let rest := dropWord cs
  if rest.head?.any Text.isWordContinue then none else some rest

def read (cs : List Char) : Option (Option String × List Char) :=
  match string? cs with
  | some (value, rest) => some (some (String.ofList value), dropWord rest)
  | none =>
    match other? cs with
    | some rest => some (none, dropWord rest)
    | none => (((readFloat cs).bind endNumber).or ((readInteger cs).bind endNumber)).map (none, ·)
where
  string? : List Char → Option (List Char × List Char)
    | '"' :: cs => readQuoted .text .plain cs
    | 'r' :: cs => readRaw .text cs
    | _ => none
  other? : List Char → Option (List Char)
    | 'b' :: '"' :: cs => (readQuoted .bytes .plain cs).map (·.2)
    | 'b' :: 'r' :: cs => (readRaw .bytes cs).map (·.2)
    | 'c' :: '"' :: cs => (readQuoted .terminated .plain cs).map (·.2)
    | 'c' :: 'r' :: cs => (readRaw .terminated cs).map (·.2)
    | 'b' :: '\'' :: cs => readCharacter .bytes cs
    | '\'' :: cs => readCharacter .text cs
    | _ => none

end Bindings.Native.Literal
