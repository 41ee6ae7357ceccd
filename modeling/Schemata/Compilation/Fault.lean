/-
**Why a forest has no template.**

`ParamsFault` says what is wrong with the parameters of one node, and `CompileError` what is wrong
with a schema. `message` gives the wording of either.
-/

import Schemata.Language.Lexeme

namespace Schemata

/-- What is wrong with the parameters of a node. -/
inductive ParamsFault where
  | notOnlyValidators
  | noChain
  | notEmpty
  | notOneValue
  | notAValue
  | invalidNumber (text : String)
  | noValues
  | notOnePattern
  | notOneComparison
  | textBound
  | validatorBeforeFields
  | notFields
  | repeatedField (name : String)
  | emptyField (name : String)
  | notAChain
  | noSchemaName
  | taggedSchema
  | taggedSuffix
  | notOneInjection
deriving DecidableEq, Repr

namespace ParamsFault

/-- The wording of a fault. -/
def message : ParamsFault → String
  | notOnlyValidators => "top level may only contain validators"
  | noChain => "missing validator chain"
  | notEmpty => "takes no params"
  | notOneValue => "expects exactly one value"
  | notAValue => "expects a number, constant, quoted text or injection"
  | invalidNumber text => "invalid number '" ++ text ++ "'"
  | noValues => "expects at least one value"
  | notOnePattern => "expects one quoted pattern"
  | notOneComparison => "expects one comparator such as (>=0)"
  | textBound => "bound must be a number, injection or field"
  | validatorBeforeFields => "validator without a field name"
  | notFields => "expects `name : chain` fields"
  | repeatedField name => "field '" ++ name ++ "' is declared twice"
  | emptyField name => "field '" ++ name ++ "' has no validators"
  | notAChain => "expects a validator chain"
  | noSchemaName => "expects a schema name"
  | taggedSchema => "error tags belong inside the schema body"
  | taggedSuffix => "suffixes take no error tag"
  | notOneInjection => "expects an optional injection such as ($0)"

end ParamsFault

/-- Why a schema has no template. -/
inductive CompileError where
  | unparsable (error : ParseError)
  | unknownValidator (name : String)
  | invalidParams (validator : String) (fault : ParamsFault)
  | invalidPattern (text : String)
  | duplicateSchema (name : String)
  | undefinedSchema (name : String)
  | forwardDependency (field dependency : String)
  | unknownDependency (name : String)
  | misplacedSuffix (name : String)
deriving DecidableEq, Repr

/-- **The wording of an error.** -/
def CompileError.message : CompileError → String
  | unparsable error => error.message
  | unknownValidator name => "Unknown validator '" ++ name ++ "'"
  | invalidParams validator fault =>
    "Invalid params for '" ++ validator ++ "': " ++ fault.message
  | invalidPattern text => "Invalid regex '" ++ text ++ "'"
  | duplicateSchema name => "Schema '#" ++ name ++ "' is defined more than once"
  | undefinedSchema name => "Schema '##" ++ name ++ "' is referenced but never defined"
  | forwardDependency field dependency =>
    "Field '" ++ field ++ "' depends on '" ++ dependency ++ "', which is not declared before it"
  | unknownDependency name => "Dependency '" ++ name ++ "' does not name a field in scope"
  | misplacedSuffix name =>
    "Suffix '" ++ name ++ "' may only appear at the end of the schema"

end Schemata
