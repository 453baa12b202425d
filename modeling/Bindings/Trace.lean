import Bindings.Fault

/-!
This module contains traced computations: outcomes together with the events on the way to them. What
happened before a fault is part of the trace.
-/

namespace Bindings

inductive Event
  | skippedPrivate (function : String)
  | readSource (types functions skipped : Nat)
  | builtUniverse (declarations : Nat)
  | entered (id : String)
  | resolved (types declarations functions : Nat)
  | emitted (types functions : Nat)
  | generated (bytes : Nat)
deriving DecidableEq, Repr

def Event.describe : Event → String
  | skippedPrivate function => "TRACE skipping private function `" ++ function ++ "`"
  | readSource types functions skipped =>
    "DEBUG parsed " ++ types.repr ++ " types and " ++ functions.repr ++ " functions from source ("
      ++ skipped.repr ++ " items skipped)"
  | builtUniverse declarations =>
    "DEBUG type universe holds " ++ declarations.repr ++ " declarations"
  | entered id => "TRACE visiting " ++ id
  | resolved types declarations functions =>
    "DEBUG resolved " ++ types.repr ++ " of " ++ declarations.repr ++ " types for "
      ++ functions.repr ++ " functions"
  | emitted types functions =>
    "DEBUG emitted " ++ types.repr ++ " type declarations and " ++ functions.repr ++ " functions"
  | generated bytes => "DEBUG generated " ++ bytes.repr ++ " bytes of declarations"

structure Traced (α : Type) where
  events : List Event
  result : Except Fault α

namespace Traced

def ofResult (result : Except Fault α) : Traced α :=
  ⟨[], result⟩

def record (event : Event) : Traced Unit :=
  ⟨[event], .ok ()⟩

def andThen (x : Traced α) (f : α → Traced β) : Traced β :=
  match x.result with
  | .error fault => ⟨x.events, .error fault⟩
  | .ok a => ⟨x.events ++ (f a).events, (f a).result⟩

instance : Monad Traced where
  pure a := ofResult (.ok a)
  bind := andThen

instance : MonadLift (Except Fault) Traced where
  monadLift := ofResult

@[simp]
theorem pure_result (a : α) : (pure a : Traced α).result = .ok a := rfl

@[simp]
theorem pure_events (a : α) : (pure a : Traced α).events = [] := rfl

@[simp]
theorem record_result (event : Event) : (record event).result = .ok () := rfl

@[simp]
theorem ofResult_result (result : Except Fault α) : (ofResult result).result = result := rfl

@[simp]
theorem bind_result (x : Traced α) (f : α → Traced β) :
    (x >>= f).result = x.result.bind fun a => (f a).result := by
  show (andThen x f).result = _
  cases h : x.result <;> simp [andThen, h, Except.bind]

theorem bind_events {x : Traced α} {a : α} (h : x.result = .ok a) (f : α → Traced β) :
    (x >>= f).events = x.events ++ (f a).events := by
  show (andThen x f).events = _
  rw [andThen, h]

@[simp]
theorem map_result (f : α → β) (x : Traced α) : (f <$> x).result = x.result.map f := by
  show (andThen x _).result = _
  cases h : x.result <;> simp [andThen, h, Except.map, ofResult]

theorem id_map (x : Traced α) : id <$> x = x := by
  show andThen x (fun a => ofResult (.ok a)) = x
  obtain ⟨events, _ | _⟩ := x <;> simp [andThen, ofResult]

theorem pure_bind (a : α) (f : α → Traced β) : pure a >>= f = f a := rfl

theorem bind_assoc (x : Traced α) (f : α → Traced β) (g : β → Traced γ) :
    x >>= f >>= g = x >>= fun a => f a >>= g := by
  show andThen (andThen x f) g = andThen x fun a => andThen (f a) g
  obtain ⟨events, _ | a⟩ := x
  . rfl
  . simp only [andThen]
    cases (f a).result <;> simp

instance : LawfulMonad Traced :=
  .mk' Traced id_map pure_bind bind_assoc

end Traced

end Bindings
