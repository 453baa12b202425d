import Bindings.Site

/-!
This module contains the reasons for which a native type has no declaration.
-/

namespace Bindings.Native

inductive Refusal
  | bareFunction
  | implTrait
  | traitObject
  | macroCall
  | qualifiedPath
  /-- A type of another kind, by its tokens. -/
  | unsupported (tokens : String)
  /-- A path with generic arguments that is no known container, by its tokens. -/
  | genericArguments (tokens : String)
  /-- A container with fewer type arguments than it takes. -/
  | tooFewArguments (container : String) (count : Nat)
deriving DecidableEq, Repr

def Refusal.message : Refusal → String
  | bareFunction => "bare function types cannot be declared"
  | implTrait => "`impl Trait` types are not supported, use a concrete type"
  | traitObject => "trait object types (`dyn Trait`) are not supported, use a concrete type"
  | macroCall => "macros in type position are not supported"
  | qualifiedPath => "qualified paths (`<T as Trait>::X`) are not supported"
  | unsupported tokens => "unsupported type " ++ Site.quote tokens
  | genericArguments tokens =>
    "generic arguments on " ++ Site.quote tokens ++ " are not supported"
  | tooFewArguments container count =>
    Site.quote container ++ " expects " ++ count.repr ++ " type argument(s)"

end Bindings.Native
