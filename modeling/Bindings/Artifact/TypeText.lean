import Bindings.Declaration
import Bindings.Identifier
import Bindings.Options
import Bindings.Text.Quoted
import Bindings.Universe

/-!
This module contains the text of types in an artifact.
-/

namespace Bindings

namespace Scalar

/--
The target's type for a scalar. Integers of 64 bits can exceed what a number holds exactly, those of
128 bits exceed it by far.
-/
def text (largeIntegers : LargeIntegers) : Scalar → String
  | u8 | u16 | u32 | i8 | i16 | i32 | f32 | f64 => "number"
  | u64 | i64 | usize | isize => largeIntegers.keyword
  | u128 | i128 => "bigint"
  | bool => "boolean"
  | char | string => "string"

end Scalar

namespace Universe

def nameOf (u : Universe) (id : String) : String :=
  match u.lookup id with
  | some i => (u.get i).declaredName
  | none => id

end Universe

namespace Artifact

def braced (text : String) : String :=
  "\x7b " ++ text ++ " \x7d"

def emptyObject : String :=
  "\x7b\x7d"

def propertyKey (name : String) : String :=
  if Identifier.isIdentifier name then name else Text.Quoted.encode name

/--
The text of a type, given the names of the declared types. A type that can be absent is a union, so
it is parenthesized as the element of an array.
-/
def typeText (nameOf : String → String) (o : Options) : TypeRef → String
  | .scalar kind => kind.text o.largeIntegers
  | .named id => nameOf id
  | .vector (.option inner) =>
    "(" ++ typeText nameOf o inner ++ " | " ++ o.absence.keyword ++ ")[]"
  | .vector element => typeText nameOf o element ++ "[]"
  | .option inner => typeText nameOf o inner ++ " | " ++ o.absence.keyword
  | .tuple elements => "[" ++ Text.joinWith ", " (go elements) ++ "]"
  | .map key value =>
    o.mapType.keyword ++ "<" ++ typeText nameOf o key ++ ", " ++ typeText nameOf o value ++ ">"
where
  go : List TypeRef → List String
    | [] => []
    | element :: elements => typeText nameOf o element :: go elements

def resultText (nameOf : String → String) (o : Options) (result : Option TypeRef)
    (synchrony : Synchrony) : String :=
  let value :=
    match result with
    | none => "void"
    | some type => typeText nameOf o type
  match synchrony with
  | .sync => value
  | .async => "Promise<" ++ value ++ ">"

/--
What a flattened field adds to an intersection. One that can be absent can add nothing.
-/
def flattenedText (nameOf : String → String) (o : Options) : TypeRef → String
  | .option inner => "(" ++ typeText nameOf o inner ++ " | " ++ emptyObject ++ ")"
  | type => typeText nameOf o type

def propertyText (nameOf : String → String) (o : Options) (field : Field) : String :=
  match field.type, o.optionalFields with
  | .option inner, true => propertyKey field.name ++ "?: " ++ typeText nameOf o inner
  | type, _ => propertyKey field.name ++ ": " ++ typeText nameOf o type

def properties (nameOf : String → String) (o : Options) (fields : List Field) : List String :=
  (fields.filter (!·.flatten)).map (propertyText nameOf o)

def flattenedParts (nameOf : String → String) (o : Options) (fields : List Field) : List String :=
  (fields.filter (·.flatten)).map fun field => flattenedText nameOf o field.type

def objectText (nameOf : String → String) (o : Options) (leading : List String)
    (fields : List Field) : String :=
  let properties := leading ++ properties nameOf o fields
  let parts := flattenedParts nameOf o fields
  if properties.isEmpty then
    if parts.isEmpty then emptyObject else Text.joinWith " & " parts
  else
    Text.joinWith " & " (braced (Text.joinWith "; " properties) :: parts)

end Artifact

end Bindings
