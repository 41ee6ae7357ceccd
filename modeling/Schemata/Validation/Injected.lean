/-
**Injected values.**

A schema refers by number to values and to errors that are supplied when it is bound. Each of them
is a plain value, or is computed from a value and the metadata at the point of use.
-/

import Schemata.Validation.Meta

namespace Schemata

/-- A supplied value. -/
inductive Injected where
  | plain (value : Json)
  | computed (compute : Json → Meta → Json)

/-- **The value at a point of use.** A plain value does not depend on it. -/
def Injected.resolve : Injected → Json → Meta → Json
  | plain value, _, _ => value
  | computed compute, input, known => compute input known

/-- What a schema is bound to: its injections and its errors. -/
structure Bindings where
  injections : List Injected
  errors : List Injected

namespace Bindings

/-- Nothing is supplied. -/
def empty : Bindings := ⟨[], []⟩

/-- An injection. -/
def injection? (bindings : Bindings) (index : Nat) : Option Injected :=
  bindings.injections[index]?

/-- An error. -/
def error? (bindings : Bindings) (index : Nat) : Option Injected :=
  bindings.errors[index]?

end Bindings

end Schemata
