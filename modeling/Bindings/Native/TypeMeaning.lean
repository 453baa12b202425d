import Bindings.Native.TypeExpr
import Bindings.TypeRef

/-!
This module contains the references that native types stand for. Ownership, sharing and failure
leave no trace in a reference; what has no declaration is refused.
-/

namespace Bindings.Native

def sequenceNames : List String :=
  ["Vec", "VecDeque", "HashSet", "BTreeSet"]

def mapNames : List String :=
  ["HashMap", "BTreeMap"]

/--
The containers that stand for their first argument. Failures surface as exceptions, so a result
stands for its value.
-/
def transparentNames : List String :=
  ["Result", "Box", "Rc", "Arc", "Cow", "RefCell", "Cell"]

def containerNames : List String :=
  "Option" :: sequenceNames ++ mapNames ++ transparentNames

/--
The type that a name with type arguments stands for, given what the arguments stand for. Only the
arguments that are needed are looked at. A name that is no container takes no arguments.
-/
def meaningOfName? (name : String) (arguments : List (Except Refusal TypeRef)) :
    Option (Except Refusal TypeRef) :=
  match containerNames.contains name, arguments with
  | false, [] => some (.ok (((Scalar.ofNativeName? name).map .scalar).getD (.named name)))
  | false, _ :: _ => none
  | true, arguments =>
    some <|
      if mapNames.contains name then
        match arguments with
        | key :: value :: _ => do return .map (← key) (← value)
        | _ => .error (.tooFewArguments name 2)
      else
        match arguments with
        | [] => .error (.tooFewArguments name 1)
        | argument :: _ =>
          if name = "Option" then .option <$> argument
          else if sequenceNames.contains name then .vector <$> argument
          else argument

def Form.refusal (tokens : List TokenTree) : Form → Refusal
  | bareFunction => .bareFunction
  | implTrait => .implTrait
  | traitObject | bound => .traitObject
  | macroCall => .macroCall
  | qualifiedPath => .qualifiedPath
  | other => .unsupported (TokenTree.renderAll tokens)

mutual

def TypeExpr.meaning : TypeExpr → Except Refusal TypeRef
  | .path global segments =>
    let (name, arguments) := Segment.lastMeaning segments
    match meaningOfName? name arguments with
    | some meaning => meaning
    | none =>
      .error (.genericArguments (TokenTree.renderAll (TypeExpr.path global segments).tokens))
  | .reference _ _ target => target.meaning
  | .tuple elements _ => .tuple <$> TypeExpr.meanings elements
  | .slice element => .vector <$> element.meaning
  | .array element _ => .vector <$> element.meaning
  | .paren inner => inner.meaning
  | .refused form tokens => .error (form.refusal tokens)

def TypeExpr.meanings : List TypeExpr → Except Refusal (List TypeRef)
  | [] => .ok []
  | type :: types => do
    let first ← type.meaning
    let rest ← TypeExpr.meanings types
    return first :: rest

def Segment.lastMeaning : List Segment → String × List (Except Refusal TypeRef)
  | [] => ("", [])
  | [.plain name] => (name, [])
  | [.generic name _ arguments _] => (name, Argument.meanings arguments)
  | _ :: segments => Segment.lastMeaning segments

def Argument.meanings : List Argument → List (Except Refusal TypeRef)
  | [] => []
  | .type type :: arguments => type.meaning :: Argument.meanings arguments
  | .lifetime _ :: arguments => Argument.meanings arguments
  | .other _ :: arguments => Argument.meanings arguments

end

end Bindings.Native
