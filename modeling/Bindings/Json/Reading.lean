import Bindings.Json.Lexeme

/-!
This module contains the reading of JSON texts. A reading says what a text holds as far as it can be
read: where a text stops being JSON, its reading is broken, and what stands before is kept.
-/

namespace Bindings.Json

inductive Reading
  | null
  | bool (value : Bool)
  | number (numeral : Numeral)
  /-- A string; none if an escape stands for half a character. -/
  | string (value : Option String)
  | array (items : List Reading) (closed : Bool)
  | object (members : List (Option String × Reading)) (closed : Bool)
  | broken
deriving Repr

namespace Reading

def isWhole : Reading → Bool
  | null | bool _ | number _ | string _ => true
  | array items closed => closed && wholeItems items
  | object members closed => closed && wholeMembers members
  | broken => false
where
  wholeItems : List Reading → Bool
    | [] => true
    | item :: items => item.isWhole && wholeItems items
  wholeMembers : List (Option String × Reading) → Bool
    | [] => true
    | (_, value) :: members => value.isWhole && wholeMembers members

end Reading

mutual

/--
Reads a value and says what follows it. The fuel bounds the characters that are read.
-/
def readValue : Nat → List Char → Reading × List Char
  | 0, cs => (.broken, cs)
  | fuel + 1, cs =>
    match skipSpace cs with
    | [] => (.broken, [])
    | c :: rest =>
      if c == 'n' then word .null "ull".toList rest
      else if c == 't' then word (.bool true) "rue".toList rest
      else if c == 'f' then word (.bool false) "alse".toList rest
      else if c == '-' then numeral (readNumeral true rest)
      else if c.isDigit then numeral (readNumeral false (c :: rest))
      else if c == '"' then
        match readString rest with
        | some (value, rest) => (.string value, rest)
        | none => (.broken, [])
      else if c == '[' then
        match skipSpace rest with
        | ']' :: rest => (.array [] true, rest)
        | rest =>
          let (items, closed, rest) := readItems fuel rest
          (.array items closed, rest)
      else if c == '\x7b' then
        match skipSpace rest with
        | '\x7d' :: rest => (.object [] true, rest)
        | '"' :: rest =>
          let (members, closed, rest) := readMembers fuel rest
          (.object members closed, rest)
        | _ => (.object [] false, [])
      else (.broken, [])
where
  word (value : Reading) (letters rest : List Char) : Reading × List Char :=
    match afterWord? letters rest with
    | some rest => (value, rest)
    | none => (.broken, [])
  numeral : Option (Numeral × List Char) → Reading × List Char
    | some (numeral, rest) => (.number numeral, rest)
    | none => (.broken, [])

def readItems : Nat → List Char → List Reading × Bool × List Char
  | 0, cs => ([], false, cs)
  | fuel + 1, cs =>
    let (item, rest) := readValue fuel cs
    match skipSpace rest with
    | ',' :: rest =>
      let (items, closed, rest) := readItems fuel rest
      (item :: items, closed, rest)
    | ']' :: rest => ([item], true, rest)
    | rest => ([item], false, rest)

def readMembers : Nat → List Char → List (Option String × Reading) × Bool × List Char
  | 0, cs => ([], false, cs)
  | fuel + 1, cs =>
    match readString cs with
    | none => ([], false, [])
    | some (key, rest) =>
      match skipSpace rest with
      | ':' :: rest =>
        let (value, rest) := readValue fuel rest
        match skipSpace rest with
        | ',' :: rest =>
          match skipSpace rest with
          | '"' :: rest =>
            let (members, closed, rest) := readMembers fuel rest
            ((key, value) :: members, closed, rest)
          | _ => ([(key, value)], false, [])
        | '\x7d' :: rest => ([(key, value)], true, rest)
        | _ => ([(key, value)], false, [])
      | _ => ([(key, .broken)], false, [])

end

def read (text : String) : Reading × Bool :=
  let cs := text.toList
  let (value, rest) := readValue (2 * cs.length + 2) cs
  (value, (skipSpace rest).isEmpty)

end Bindings.Json
