/-
**Names: of named schemas and of fields.**

The name of a schema stands for a handle, its place among the definitions of the whole forest. The
name of a field stands for a field of one of the objects around a node.

* `Invocation.declare` collects the defined names, an outer one before those inside it, and refuses
  a name that is defined twice;
* `Param.referencedFields` lists the fields that comparisons refer to;
* `Scope.resolve` checks that a field is declared before the one that depends on it. The innermost
  object that declares a name decides.
-/

import Schemata.Compilation.Fault
import Schemata.Language.Forest

namespace Schemata

/-! ### Schemas -/

/-- The name that a definition or a reference starts with. -/
def Param.schemaName (validator : String) : List Param → Except CompileError String
  | param :: _ => match param.token? .identifier with
    | some lexeme => .ok lexeme.value
    | none => .error (.invalidParams validator .noSchemaName)
  | [] => .error (.invalidParams validator .noSchemaName)

mutual

/-- **The names defined in an invocation**, after those that are given. -/
def Invocation.declare (names : List String) : Invocation → Except CompileError (List String)
  | .mk validator params _ =>
    if validator = "define" then do
      let name ← Param.schemaName validator params
      if names.contains name then .error (.duplicateSchema name)
      else Param.declareAll (names ++ [name]) params
    else Param.declareAll names params

/-- The names defined in some parameters. -/
def Param.declareAll (names : List String) : List Param → Except CompileError (List String)
  | [] => .ok names
  | param :: rest => do
    let names ← Param.declare names param
    Param.declareAll names rest

/-- The names defined in a parameter. -/
def Param.declare (names : List String) : Param → Except CompileError (List String)
  | .validator invocation => Invocation.declare names invocation
  | _ => .ok names

end

/-- The handle of a name. -/
def Param.handle (names : List String) (name : String) : Except CompileError Nat :=
  match names.findIdx? (· = name) with
  | some handle => .ok handle
  | none => .error (.undefinedSchema name)

/-! ### Fields -/

mutual

/-- **The fields that comparisons in an invocation refer to.** -/
def Invocation.referencedFields : Invocation → List String
  | .mk _ params _ => Param.referencedFields params

/-- The fields that comparisons in some parameters refer to. -/
def Param.referencedFields : List Param → List String
  | [] => []
  | param :: rest => Param.referencedIn param ++ Param.referencedFields rest

/-- The fields that comparisons in a parameter refer to. -/
def Param.referencedIn : Param → List String
  | .validator invocation => Invocation.referencedFields invocation
  | .comparison ⟨_, .field name⟩ => [name]
  | _ => []

end

/-- The fields of an object, and the place of the one that is being compiled. -/
structure Scope where
  fields : List String
  current : Nat

/-- **Check that a dependency may be read here.** The scopes are given from the innermost
outwards. -/
def Scope.resolve (dependency : String) : List Scope → Except CompileError Unit
  | [] => .error (.unknownDependency dependency)
  | scope :: outer =>
    match scope.fields.findIdx? (· = dependency) with
    | some position =>
      if position < scope.current then .ok ()
      else .error (.forwardDependency ((scope.fields[scope.current]?).getD "") dependency)
    | none => resolve dependency outer

end Schemata
