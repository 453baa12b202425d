import Bindings.Text.Join

/-!
This module contains JSON values and their texts: a compact one and one with a line for each item.
-/

namespace Bindings

inductive Json
  | null
  | bool (value : Bool)
  | number (value : Nat)
  | string (value : String)
  | array (items : List Json)
  | object (members : List (String × Json))
deriving Repr

namespace Json

def hexPair (n : Nat) : List Char :=
  [Nat.digitChar (n / 16), Nat.digitChar (n % 16)]

def escapeChar (c : Char) : List Char :=
  match c with
  | '"' => ['\\', '"']
  | '\\' => ['\\', '\\']
  | '\n' => ['\\', 'n']
  | '\r' => ['\\', 'r']
  | '\t' => ['\\', 't']
  | '\x08' => ['\\', 'b']
  | '\x0c' => ['\\', 'f']
  | _ => if c.toNat < 0x20 then ['\\', 'u', '0', '0'] ++ hexPair c.toNat else [c]

def quoted (text : String) : String :=
  String.ofList ('"' :: text.toList.flatMap escapeChar ++ ['"'])

def ofOption (text : Option String) : Json :=
  match text with
  | none => null
  | some text => string text

def compact : Json → String
  | null => "null"
  | bool value => if value then "true" else "false"
  | number value => value.repr
  | string value => quoted value
  | array items => "[" ++ Text.joinWith "," (compactItems items) ++ "]"
  | object members => "\x7b" ++ Text.joinWith "," (compactMembers members) ++ "\x7d"
where
  compactItems : List Json → List String
    | [] => []
    | item :: items => item.compact :: compactItems items
  compactMembers : List (String × Json) → List String
    | [] => []
    | (key, value) :: members => (quoted key ++ ":" ++ value.compact) :: compactMembers members

def newline (depth : Nat) : String :=
  String.ofList ('\n' :: List.replicate (2 * depth) ' ')

def prettyAt (depth : Nat) : Json → String
  | null => "null"
  | bool value => if value then "true" else "false"
  | number value => value.repr
  | string value => quoted value
  | array [] => "[]"
  | array (item :: items) =>
    "[" ++ newline (depth + 1) ++ item.prettyAt (depth + 1) ++ prettyItems (depth + 1) items
      ++ newline depth ++ "]"
  | object [] => "\x7b\x7d"
  | object ((key, value) :: members) =>
    "\x7b" ++ newline (depth + 1) ++ quoted key ++ ": " ++ value.prettyAt (depth + 1)
      ++ prettyMembers (depth + 1) members ++ newline depth ++ "\x7d"
where
  prettyItems (depth : Nat) : List Json → String
    | [] => ""
    | item :: items => "," ++ newline depth ++ item.prettyAt depth ++ prettyItems depth items
  prettyMembers (depth : Nat) : List (String × Json) → String
    | [] => ""
    | (key, value) :: members =>
      "," ++ newline depth ++ quoted key ++ ": " ++ value.prettyAt depth
        ++ prettyMembers depth members

def pretty (value : Json) : String :=
  value.prettyAt 0

end Json

end Bindings
