import Bindings.Scalar
import Bindings.Text.Join

/-!
This module contains the references that declarations make to types, their native spelling and the
identifiers that they mention.
-/

namespace Bindings

inductive TypeRef
  | scalar (kind : Scalar)
  | named (id : String)
  | vector (element : TypeRef)
  | option (inner : TypeRef)
  | tuple (elements : List TypeRef)
  | map (key value : TypeRef)
deriving Repr

namespace TypeRef

instance : Inhabited TypeRef := ⟨.tuple []⟩

def isOption : TypeRef → Bool
  | option _ => true
  | _ => false

def names : TypeRef → List String
  | scalar _ => []
  | named id => [id]
  | vector element => element.names
  | option inner => inner.names
  | tuple elements => go elements
  | map key value => key.names ++ value.names
where
  go : List TypeRef → List String
    | [] => []
    | element :: elements => element.names ++ go elements

def spelling : TypeRef → String
  | scalar kind => kind.spelling
  | named id => id
  | vector element => "Vec<" ++ element.spelling ++ ">"
  | option inner => "Option<" ++ inner.spelling ++ ">"
  | tuple [element] => "(" ++ element.spelling ++ ",)"
  | tuple elements => "(" ++ Text.joinWith ", " (go elements) ++ ")"
  | map key value => "HashMap<" ++ key.spelling ++ ", " ++ value.spelling ++ ">"
where
  go : List TypeRef → List String
    | [] => []
    | element :: elements => element.spelling :: go elements

mutual

def decEq : (s t : TypeRef) → Decidable (s = t)
  | scalar k, scalar l => decidable_of_iff (k = l) (by simp)
  | named i, named j => decidable_of_iff (i = j) (by simp)
  | vector s, vector t =>
    match decEq s t with
    | isTrue h => isTrue (by rw [h])
    | isFalse h => isFalse (by simpa using h)
  | option s, option t =>
    match decEq s t with
    | isTrue h => isTrue (by rw [h])
    | isFalse h => isFalse (by simpa using h)
  | tuple ss, tuple ts =>
    match decEqList ss ts with
    | isTrue h => isTrue (by rw [h])
    | isFalse h => isFalse (by simpa using h)
  | map s s', map t t' =>
    match decEq s t, decEq s' t' with
    | isTrue h, isTrue h' => isTrue (by rw [h, h'])
    | isFalse h, _ => isFalse fun e => h (by injection e)
    | _, isFalse h => isFalse fun e => h (by injection e)
  | scalar _, named _ | scalar _, vector _ | scalar _, option _ | scalar _, tuple _
  | scalar _, map _ _ | named _, scalar _ | named _, vector _ | named _, option _
  | named _, tuple _ | named _, map _ _ | vector _, scalar _ | vector _, named _
  | vector _, option _ | vector _, tuple _ | vector _, map _ _ | option _, scalar _
  | option _, named _ | option _, vector _ | option _, tuple _ | option _, map _ _
  | tuple _, scalar _ | tuple _, named _ | tuple _, vector _ | tuple _, option _
  | tuple _, map _ _ | map _ _, scalar _ | map _ _, named _ | map _ _, vector _
  | map _ _, option _ | map _ _, tuple _ => isFalse (by simp)

def decEqList : (ss ts : List TypeRef) → Decidable (ss = ts)
  | [], [] => isTrue rfl
  | [], _ :: _ | _ :: _, [] => isFalse (by simp)
  | s :: ss, t :: ts =>
    match decEq s t, decEqList ss ts with
    | isTrue h, isTrue h' => isTrue (by rw [h, h'])
    | isFalse h, _ => isFalse fun e => h (by injection e)
    | _, isFalse h => isFalse fun e => h (by injection e)

end

instance : DecidableEq TypeRef := decEq

theorem names.go_eq_flatMap (elements : List TypeRef) :
    names.go elements = elements.flatMap names := by
  induction elements with
  | nil => rfl
  | cons element elements ih => simp [go, ih]

theorem spelling.go_eq_map (elements : List TypeRef) :
    spelling.go elements = elements.map spelling := by
  induction elements with
  | nil => rfl
  | cons element elements ih => simp [go, ih]

end TypeRef

end Bindings
