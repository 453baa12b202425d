/-!
This module contains the scalar types that can cross the boundary, their native spelling and the
name they carry in a description.
-/

namespace Bindings

inductive Scalar
  | u8
  | u16
  | u32
  | u64
  | u128
  | usize
  | i8
  | i16
  | i32
  | i64
  | i128
  | isize
  | f32
  | f64
  | bool
  | char
  | string
deriving DecidableEq, Repr

namespace Scalar

def all : List Scalar :=
  [.u8, .u16, .u32, .u64, .u128, .usize, .i8, .i16, .i32, .i64, .i128, .isize, .f32, .f64, .bool,
    .char, .string]

def name : Scalar → String
  | u8 => "u8"
  | u16 => "u16"
  | u32 => "u32"
  | u64 => "u64"
  | u128 => "u128"
  | usize => "usize"
  | i8 => "i8"
  | i16 => "i16"
  | i32 => "i32"
  | i64 => "i64"
  | i128 => "i128"
  | isize => "isize"
  | f32 => "f32"
  | f64 => "f64"
  | bool => "bool"
  | char => "char"
  | string => "string"

/--
The native spelling; it differs from the name in a description for text only.
-/
def spelling : Scalar → String
  | string => "String"
  | kind => kind.name

def textNames : List String :=
  ["String", "str", "Path", "PathBuf"]

def ofNativeName? (name : String) : Option Scalar :=
  if textNames.contains name then
    some .string
  else
    all.find? fun kind => kind != .string && kind.name == name

def ofName? (name : String) : Option Scalar :=
  all.find? fun kind => kind.name == name

theorem mem_all (kind : Scalar) : kind ∈ all := by
  cases kind <;> decide

@[simp]
theorem ofName?_name (kind : Scalar) : ofName? kind.name = some kind := by
  cases kind <;> decide

@[simp]
theorem ofNativeName?_spelling (kind : Scalar) : ofNativeName? kind.spelling = some kind := by
  cases kind <;> decide

end Scalar

end Bindings
