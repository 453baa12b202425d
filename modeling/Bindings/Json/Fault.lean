import Bindings.Site
import Bindings.Text.Join
import Bindings.Text.Quoted

/-!
This module contains the reasons for which a JSON text is refused.
-/

namespace Bindings.Json

inductive Found
  | null
  | bool (value : Bool)
  | integer (value : Int)
  /-- A number that is no integer of at most 64 bits, by its shortest decimal text. -/
  | float (digits : String)
  | string (value : String)
  | sequence
  | map
  | unitVariant
deriving DecidableEq, Repr

def Found.describe : Found → String
  | null => "null"
  | bool value => "boolean " ++ Site.quote (if value then "true" else "false")
  | integer value => "integer " ++ Site.quote value.repr
  | float digits => "floating point " ++ Site.quote digits
  | string value => "string " ++ Text.Quoted.encode value
  | sequence => "sequence"
  | map => "map"
  | unitVariant => "unit variant"

inductive Fault
  /-- The text is not JSON, as far as it is read. -/
  | unreadable
  | invalidType (found : Found) (expected : String)
  | invalidValue (found : Found) (expected : String)
  | invalidLength (length : Nat) (expected : String)
  | missingField (name : String)
  | duplicateField (name : String)
  | unknownVariant (name : String) (known : List String)
deriving DecidableEq, Repr

namespace Fault

def describeKnown : List String → String
  | [] => "there are no variants"
  | [one] => Site.quote one
  | [one, other] => Site.quote one ++ " or " ++ Site.quote other
  | names => "one of " ++ Text.joinWith ", " (names.map Site.quote)

def message? : Fault → Option String
  | unreadable => none
  | invalidType found expected =>
    some ("invalid type: " ++ found.describe ++ ", expected " ++ expected)
  | invalidValue found expected =>
    some ("invalid value: " ++ found.describe ++ ", expected " ++ expected)
  | invalidLength length expected =>
    some ("invalid length " ++ length.repr ++ ", expected " ++ expected)
  | missingField name => some ("missing field " ++ Site.quote name)
  | duplicateField name => some ("duplicate field " ++ Site.quote name)
  | unknownVariant name known =>
    some ("unknown variant " ++ Site.quote name ++ ", expected " ++ describeKnown known)

end Fault

end Bindings.Json
