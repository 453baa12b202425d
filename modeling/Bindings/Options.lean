/-!
This module contains the choices that an artifact leaves open.
-/

namespace Bindings

inductive Absence
  | null
  | undefined
deriving DecidableEq, Repr

def Absence.keyword : Absence → String
  | null => "null"
  | undefined => "undefined"

inductive LargeIntegers
  | number
  | bigint
deriving DecidableEq, Repr

def LargeIntegers.keyword : LargeIntegers → String
  | number => "number"
  | bigint => "bigint"

inductive MapType
  | record
  | map
deriving DecidableEq, Repr

def MapType.keyword : MapType → String
  | record => "Record"
  | map => "Map"

structure Options where
  /-- The lines before the first declaration. -/
  header : List String := ["/* tslint:disable */", "/* eslint-disable */"]
  /-- Declarations are exported, not only declared. -/
  exporting : Bool := true
  /-- The number of spaces before a member that has a line of its own. -/
  indent : Nat := 4
  absence : Absence := .null
  largeIntegers : LargeIntegers := .number
  mapType : MapType := .record
  /-- Fields that can be absent become optional properties. -/
  optionalFields : Bool := false
  /-- Functions carry tags that document their parameters and results. -/
  jsdoc : Bool := false
deriving DecidableEq, Repr

namespace Options

def declarator (o : Options) : String :=
  if o.exporting then "export " else "declare "

def margin (o : Options) : String :=
  String.ofList (List.replicate o.indent ' ')

end Options

end Bindings
