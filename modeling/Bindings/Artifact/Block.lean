import Bindings.Artifact.Doc
import Bindings.Artifact.TypeText
import Bindings.Text.Infix

/-!
This module contains the lines that declare a type or a function in an artifact.
-/

namespace Bindings.Artifact

variable (nameOf : String → String) (o : Options)

/--
A struct is an interface. With flattened fields it is an intersection, which has no interface form.
-/
def structLines (name : String) (fields : List Field) : List String :=
  let kept := fields.filter (!·.flatten)
  let parts := flattenedParts nameOf o fields
  let members := kept.flatMap fun field =>
    docLines o.margin field.doc ++ [o.margin ++ propertyText nameOf o field ++ ";"]
  match kept.isEmpty, parts.isEmpty with
  | true, true => [o.declarator ++ "interface " ++ name ++ " " ++ emptyObject]
  | true, false => [o.declarator ++ "type " ++ name ++ " = " ++ Text.joinWith " & " parts ++ ";"]
  | false, true => (o.declarator ++ "interface " ++ name ++ " \x7b") :: members ++ ["\x7d"]
  | false, false =>
    (o.declarator ++ "type " ++ name ++ " = \x7b") :: members
      ++ ["\x7d & " ++ Text.joinWith " & " parts ++ ";"]

/--
A text that holds the sign of an intersection is parenthesized, so that it stays one member of a
union.
-/
def parenthesize (text : String) : String :=
  if Text.holds text.toList " & ".toList then "(" ++ text ++ ")" else text

def tupleText (elements : List TypeRef) : String :=
  typeText nameOf o (.tuple elements)

def memberText (tagging : Tagging) (variant : Variant) : String :=
  let literal := Text.Quoted.encode variant.name
  match tagging with
  | .external =>
    let key := propertyKey variant.name
    match variant.payload with
    | .unit => literal
    | .newtype type => braced (key ++ ": " ++ typeText nameOf o type)
    | .tuple elements => braced (key ++ ": " ++ tupleText nameOf o elements)
    | .struct fields => braced (key ++ ": " ++ objectText nameOf o [] fields)
  | .internal tag =>
    let property := propertyKey tag ++ ": " ++ literal
    match variant.payload with
    | .unit => braced property
    | .newtype type => "(" ++ braced property ++ " & " ++ typeText nameOf o type ++ ")"
    | .tuple elements => "(" ++ braced property ++ " & " ++ tupleText nameOf o elements ++ ")"
    | .struct fields => parenthesize (objectText nameOf o [property] fields)
  | .adjacent tag content =>
    let property := propertyKey tag ++ ": " ++ literal
    let key := propertyKey content
    match variant.payload with
    | .unit => braced property
    | .newtype type => braced (property ++ "; " ++ key ++ ": " ++ typeText nameOf o type)
    | .tuple elements => braced (property ++ "; " ++ key ++ ": " ++ tupleText nameOf o elements)
    | .struct fields => braced (property ++ "; " ++ key ++ ": " ++ objectText nameOf o [] fields)
  | .untagged =>
    match variant.payload with
    | .unit => o.absence.keyword
    | .newtype type => typeText nameOf o type
    | .tuple elements => tupleText nameOf o elements
    | .struct fields => parenthesize (objectText nameOf o [] fields)

def unionLines (tagging : Tagging) : List Variant → List String
  | [] => []
  | [variant] =>
    docLines o.margin variant.doc
      ++ [o.margin ++ "| " ++ memberText nameOf o tagging variant ++ ";"]
  | variant :: variants =>
    docLines o.margin variant.doc ++ [o.margin ++ "| " ++ memberText nameOf o tagging variant]
      ++ unionLines tagging variants

def enumLines (name : String) (tagging : Tagging) (variants : List Variant) : List String :=
  let head := o.declarator ++ "type " ++ name
  if variants.isEmpty then
    [head ++ " = never;"]
  else if variants.all (·.doc.isNone) then
    [head ++ " = " ++ Text.joinWith " | " (variants.map (memberText nameOf o tagging)) ++ ";"]
  else
    (head ++ " =") :: unionLines nameOf o tagging variants

def aliasLines (name : String) (target : TypeRef) : List String :=
  [o.declarator ++ "type " ++ name ++ " = " ++ typeText nameOf o target ++ ";"]

def typeLines (decl : TypeDecl) : List String :=
  docLines "" decl.doc ++
    match decl.body with
    | .struct fields => structLines nameOf o decl.declaredName fields
    | .enum tagging variants => enumLines nameOf o decl.declaredName tagging variants
    | .typeAlias target => aliasLines nameOf o decl.declaredName target

def paramTag (param : Param) : String :=
  "@param \x7b" ++ typeText nameOf o param.type ++ "\x7d " ++ param.name ++
    if param.isBorrowed then " - borrowed; the callee does not retain it" else ""

def functionTags (function : FunctionDecl) : List String :=
  let result := resultText nameOf o function.result function.synchrony
  if o.jsdoc then
    function.params.map (paramTag nameOf o)
      ++ if result != "void" then ["@returns \x7b" ++ result ++ "\x7d"] else []
  else
    []

def functionLines (function : FunctionDecl) : List String :=
  let doc := ((function.doc.map Text.lines).getD []) ++ functionTags nameOf o function
  let params := function.params.map fun param => param.name ++ ": " ++ typeText nameOf o param.type
  (if doc.isEmpty then [] else docBlock "" doc)
    ++ [o.declarator ++ "function " ++ function.name ++ "(" ++ Text.joinWith ", " params ++ "): "
      ++ resultText nameOf o function.result function.synchrony ++ ";"]

end Bindings.Artifact
