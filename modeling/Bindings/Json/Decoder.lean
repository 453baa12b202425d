import Bindings.Json.Reading

/-!
This module contains decoders: functions from readings to values. They look at a reading in the
order of its text and stop at the first fault. A decoder that enters a bracket has a budget of
brackets that may still be opened.
-/

namespace Bindings.Json

abbrev Decoder (α : Type) := Reading → Except Fault α

/--
The number of brackets that may be open at once.
-/
def bracketBudget : Nat := 127

namespace Reading

def found? : Reading → Option Found
  | null => some .null
  | bool value => some (.bool value)
  | number numeral => numeral.denote?
  | string value => value.map .string
  | array _ _ => some .sequence
  | object _ _ => some .map
  | broken => none

end Reading

namespace Decoder

def mismatch (expected : String) : Decoder α := fun r =>
  match r.found? with
  | some found => .error (.invalidType found expected)
  | none => .error .unreadable

def text : Decoder String
  | .string (some value) => .ok value
  | r => mismatch "a string" r

def flag : Decoder Bool
  | .bool value => .ok value
  | r => mismatch "a boolean" r

def size : Decoder Nat
  | .number numeral =>
    match numeral.denote? with
    | none => .error .unreadable
    | some (.integer (.ofNat n)) => .ok n
    | some (.integer n) => .error (.invalidValue (.integer n) "usize")
    | some found => .error (.invalidType found "usize")
  | r => mismatch "usize" r

def optional (decode : Decoder α) : Decoder (Option α)
  | .null => .ok none
  | r => some <$> decode r

def items (decode : Decoder α) : List Reading → Except Fault (List α)
  | [] => .ok []
  | r :: rs => do
    let a ← decode r
    let as ← items decode rs
    return a :: as

def list (budget : Nat) (decode : Decoder α) : Decoder (List α)
  | .array rs closed => do
    if budget = 0 then throw .unreadable
    let as ← items decode rs
    if closed then return as else throw .unreadable
  | r => mismatch "a sequence" r

structure Slot (α : Type) where
  name : String
  mandatory : Bool
  decode : Decoder (α → α)

namespace Slot

def required (name : String) (decode : Decoder β) (set : β → α → α) : Slot α :=
  ⟨name, true, fun r => set <$> decode r⟩

def defaulted (name : String) (decode : Decoder β) (set : β → α → α) : Slot α :=
  ⟨name, false, fun r => set <$> decode r⟩

end Slot

def describeLength (record : String) (length : Nat) : String :=
  record ++ " with " ++ length.repr ++ (if length = 1 then " element" else " elements")

/--
A record from an array of the values of its slots in order. Defaulted slots at the end may be
missing.
-/
def ofItems (expected : String) (closed : Bool) (position : Nat) (a : α) :
    List (Slot α) → List Reading → Except Fault α
  | slot :: slots, r :: rs => do
    let set ← slot.decode r
    ofItems expected closed (position + 1) (set a) slots rs
  | slots, [] =>
    if !closed then
      .error .unreadable
    else
      match slots.findIdx? (·.mandatory) with
      | some index => .error (.invalidLength (position + index) expected)
      | none => .ok a
  | [], _ :: _ => .error .unreadable

/--
A record from the members of an object in any order. Members that are no slots are ignored, if they
are JSON at all; a slot must not come twice.
-/
def ofMembers (slots : List (Slot α)) (closed : Bool) (seen : List String) (a : α) :
    List (Option String × Reading) → Except Fault α
  | [] =>
    if !closed then
      .error .unreadable
    else
      match slots.find? fun slot => slot.mandatory && !seen.contains slot.name with
      | some slot => .error (.missingField slot.name)
      | none => .ok a
  | (none, _) :: _ => .error .unreadable
  | (some key, r) :: members =>
    match slots.find? fun slot => slot.name == key with
    | none => if r.isWhole then ofMembers slots closed seen a members else .error .unreadable
    | some slot => do
      if seen.contains key then throw (.duplicateField key)
      let set ← slot.decode r
      ofMembers slots closed (key :: seen) (set a) members

def record (name : String) (budget : Nat) (blank : α) (slots : List (Slot α)) : Decoder α
  | .array rs closed =>
    if budget = 0 then .error .unreadable
    else ofItems (describeLength name slots.length) closed 0 blank slots rs
  | .object members closed =>
    if budget = 0 then .error .unreadable else ofMembers slots closed [] blank members
  | r => mismatch name r

inductive Alternative (α : Type)
  | unit (value : α)
  | newtype (decode : Decoder α)
  | struct (decode : Decoder α)

def Alternative.bare : Alternative α → Except Fault α
  | unit value => .ok value
  | newtype _ => .error (.invalidType .unitVariant "newtype variant")
  | struct _ => .error (.invalidType .unitVariant "struct variant")

def Alternative.payload : Alternative α → Decoder α
  | unit value, .null => .ok value
  | unit _, r => mismatch "unit" r
  | newtype decode, r => decode r
  | struct decode, r => decode r

def choose (alternatives : List (String × Alternative α)) (name : String) :
    Except Fault (Alternative α) :=
  match alternatives.lookup name with
  | some alternative => .ok alternative
  | none => .error (.unknownVariant name (alternatives.map (·.1)))

/--
One of several things: a name, or an object whose only key is a name.
-/
def oneOf (budget : Nat) (alternatives : List (String × Alternative α)) : Decoder α
  | .string (some name) => do (← choose alternatives name).bare
  | .object ((some name, r) :: members) closed => do
    if budget = 0 then throw .unreadable
    let a ← (← choose alternatives name).payload r
    if members.isEmpty && closed then return a else throw .unreadable
  | _ => .error .unreadable

def run (decode : Decoder α) (text : String) : Except Fault α := do
  let (r, complete) := read text
  let a ← decode r
  if complete then return a else throw .unreadable

end Decoder

end Bindings.Json
