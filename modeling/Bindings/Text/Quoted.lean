import Bindings.Text.GraphemeExtend
import Bindings.Text.Printable

/-!
This module contains the quoted form of a text: a literal between double quotes in which every
character is either written as it is or escaped.
-/

namespace Bindings.Text.Quoted

def hex (n : Nat) : List Char :=
  Nat.toDigits 16 n

def codePoint (c : Char) : List Char :=
  ['\\', 'u', '\x7b'] ++ hex c.toNat ++ ['\x7d']

/--
Characters of ASCII other than controls are written as they are, and so are printable characters
that do not extend the grapheme before them.
-/
def isPlain (c : Char) : Bool :=
  if c.toNat < 0x80 then 0x20 ≤ c.toNat && c.toNat < 0x7f else isPrintable c && !isGraphemeExtend c

def encodeChar (c : Char) : List Char :=
  match c with
  | '\x00' => ['\\', '0']
  | '\t' => ['\\', 't']
  | '\r' => ['\\', 'r']
  | '\n' => ['\\', 'n']
  | '\\' => ['\\', '\\']
  | '"' => ['\\', '"']
  | _ => if isPlain c then [c] else codePoint c

def encodeChars (text : List Char) : List Char :=
  '"' :: text.flatMap encodeChar ++ ['"']

def encode (text : String) : String :=
  String.ofList (encodeChars text.toList)

end Bindings.Text.Quoted
