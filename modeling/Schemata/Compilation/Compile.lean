/-
**Compiling forests into templates.**

A forest is one chain of validators with suffixes behind it. The names of its schemas are declared
first, so a schema may be referred to before its definition and inside itself.

* `Invocation.compile` makes a step of an invocation, and `Param.compileChain` a chain of several;
* `Template.ofForest` compiles a forest, and `Template.ofText` the text of a schema.
-/

import Schemata.Compilation.Naming
import Schemata.Language.Derivation
import Schemata.Pattern.Reader
import Schemata.Template.Step

namespace Schemata

/-! ### Checks -/

/-- Refuse parameters of an invocation. -/
def ParamsFault.refuse {α : Type} (validator : String) (fault : ParamsFault) :
    Except CompileError α :=
  .error (.invalidParams validator fault)

/-- The value of a constant; every word but the truth values stands for null. -/
def Bound.ofConstant (word : String) : Bound :=
  .literal (if word = "true" then .bool true else if word = "false" then .bool false else .null)

/-- **The bound that a parameter stands for.** -/
def Bound.ofParam (validator : String) : Param → Except CompileError Bound
  | .token lexeme =>
    if lexeme.kind = .number then
      match Numeral.real? lexeme.value with
      | some datum => .ok (.literal (.ofDatum datum))
      | none => ParamsFault.refuse validator (.invalidNumber lexeme.value)
    else if lexeme.kind = .constant then .ok (.ofConstant lexeme.value)
    else ParamsFault.refuse validator .notAValue
  | .text text => .ok (.literal (.string text))
  | .injection index => .ok (.injection index)
  | _ => ParamsFault.refuse validator .notAValue

/-- A type check takes no parameters. -/
def Primitive.compile (primitive : Primitive) (params : List Param) (tag : Option ErrorTag) :
    Except CompileError Step :=
  if params.isEmpty then .ok (.primitive primitive tag)
  else ParamsFault.refuse primitive.name .notEmpty

/-- Equality takes one value. -/
def Step.ofEquality (validator : String) (expected : Bool) (params : List Param)
    (tag : Option ErrorTag) : Except CompileError Step :=
  match params with
  | [param] => do
    let bound ← Bound.ofParam validator param
    .ok (.equality expected bound tag)
  | _ => ParamsFault.refuse validator .notOneValue

/-- Membership takes values, which commas may separate. -/
def Step.ofMembership (params : List Param) (tag : Option ErrorTag) : Except CompileError Step := do
  let bounds ← (params.filter fun param => (param.token? .comma).isNone).mapM
    (Bound.ofParam "oneOf")
  if bounds.isEmpty then ParamsFault.refuse "oneOf" .noValues else .ok (.membership bounds tag)

/-- A match takes the text of a pattern. -/
def Step.ofMatching (params : List Param) (tag : Option ErrorTag) : Except CompileError Step :=
  match params with
  | [.text text] => match Pattern.ofText? text with
    | some pattern => .ok (.matching text pattern tag)
    | none => .error (.invalidPattern text)
  | _ => ParamsFault.refuse "regex" .notOnePattern

/-- The bound of a comparison. A length has no texts as bounds. -/
def Bound.ofOperand (scopes : List Scope) (validator : String) (ofLength : Bool) :
    Operand → Except CompileError Bound
  | .number datum => .ok (.literal (.ofDatum datum))
  | .text text =>
    if ofLength then ParamsFault.refuse validator .textBound else .ok (.literal (.string text))
  | .injection index => .ok (.injection index)
  | .field name => do
    Scope.resolve name scopes
    .ok (.field name)

/-- A comparison of a value, or of its length. -/
def Step.ofComparison (scopes : List Scope) (validator : String) (ofLength : Bool)
    (params : List Param) (tag : Option ErrorTag) : Except CompileError Step :=
  match params with
  | [.comparison ⟨relation, operand⟩] => do
    let bound ← Bound.ofOperand scopes validator ofLength operand
    .ok (if ofLength then .lengthComparison relation bound tag else .comparison relation bound tag)
  | _ => ParamsFault.refuse validator .notOneComparison

/-! ### Fields -/

/-- The name of a field that starts at a parameter. -/
def Param.fieldName? : Param → Option String
  | .token lexeme => if lexeme.kind = .comma then none else some lexeme.value
  | .text content => some content
  | _ => none

/-- The fields of an object, from the first to the last, each with the number of its validators;
`found` holds those found before, from the last to the first. -/
def Param.countFields (found : List (String × Nat)) :
    List Param → Except CompileError (List (String × Nat))
  | [] => .ok found.reverse
  | param :: rest =>
    match param with
    | .validator _ => match found with
      | [] => ParamsFault.refuse "object" .validatorBeforeFields
      | (name, count) :: others => countFields ((name, count + 1) :: others) rest
    | .injection _ | .comparison _ => ParamsFault.refuse "object" .notFields
    | .token _ | .text _ => match param.fieldName? with
      | some name => countFields ((name, 0) :: found) rest
      | none => countFields found rest

/-- Check that fields differ and that each has a validator; `seen` holds the names found before. -/
def Param.checkFields (seen : List String) : List (String × Nat) → Except CompileError Unit
  | [] => .ok ()
  | (name, count) :: rest =>
    if seen.contains name then ParamsFault.refuse "object" (.repeatedField name)
    else if count = 0 then ParamsFault.refuse "object" (.emptyField name)
    else checkFields (name :: seen) rest

/-- **The names of the fields that parameters declare.** -/
def Param.declaredFields (params : List Param) : Except CompileError (List String) := do
  let fields ← countFields [] params
  checkFields [] fields
  .ok (fields.map Prod.fst)

/-! ### Invocations -/

/-- The steps before the first field of some parameters, and the fields. -/
abbrev FieldSteps := List Step × List Field

/-- Whether all parameters are invocations. -/
def Param.areInvocations (params : List Param) : Bool :=
  params.all fun param => param.invocation?.isSome

mutual

/-- **The step of an invocation**, given the names of schemas and the objects around it. -/
def Invocation.compile (names : List String) (scopes : List Scope) :
    Invocation → Except CompileError Step
  | .mk validator params tag =>
    match Primitive.ofName? validator with
    | some primitive => primitive.compile params tag
    | none =>
      if validator = "equal" then Step.ofEquality validator true params tag
      else if validator = "notEqual" then Step.ofEquality validator false params tag
      else if validator = "oneOf" then Step.ofMembership params tag
      else if validator = "regex" then Step.ofMatching params tag
      else if validator = "compare" then Step.ofComparison scopes validator false params tag
      else if validator = "length" then Step.ofComparison scopes validator true params tag
      else if validator = "object" then do
        let declared ← Param.declaredFields params
        let (_, fields) ← Param.compileFields names scopes declared
          (Param.referencedFields params) 0 params
        .ok (.object fields tag)
      else if validator = "array" then
        if Param.areInvocations params then do
          let chain ← Param.compileChain names scopes params
          .ok (.array chain tag)
        else ParamsFault.refuse validator .notAChain
      else if validator = "define" then
        if tag.isSome then ParamsFault.refuse validator .taggedSchema
        else Param.compileDefinition names scopes params
      else if validator = "reference" then
        if tag.isSome then ParamsFault.refuse validator .taggedSchema
        else do
          let name ← Param.schemaName validator params
          let handle ← Param.handle names name
          .ok (.call handle)
      else if (Invocation.mk validator params tag).isSuffix then .error (.misplacedSuffix validator)
      else .error (.unknownValidator validator)

/-- The definition of a named schema: its name and then its chain. -/
def Param.compileDefinition (names : List String) (scopes : List Scope) :
    List Param → Except CompileError Step
  | [] => ParamsFault.refuse "define" .noSchemaName
  | param :: rest => do
    let name ← Param.schemaName "define" [param]
    let handle ← Param.handle names name
    if rest.isEmpty || !Param.areInvocations rest then ParamsFault.refuse "define" .notAChain
    else
      let chain ← Param.compileChain names scopes rest
      .ok (.define handle chain)

/-- **The chain of the invocations among some parameters.** -/
def Param.compileChain (names : List String) (scopes : List Scope) :
    List Param → Except CompileError (List Step)
  | [] => .ok []
  | param :: rest => do
    let steps ← Param.compileOne names scopes param
    let others ← Param.compileChain names scopes rest
    .ok (steps ++ others)

/-- The steps of one parameter. -/
def Param.compileOne (names : List String) (scopes : List Scope) :
    Param → Except CompileError (List Step)
  | .validator invocation => do
    let step ← Invocation.compile names scopes invocation
    .ok [step]
  | _ => .ok []

/-- **The fields of an object.** `started` counts the fields that start before the parameters, the
last of which the first steps belong to. -/
def Param.compileFields (names : List String) (scopes : List Scope)
    (declared referenced : List String) (started : Nat) :
    List Param → Except CompileError FieldSteps
  | [] => .ok ([], [])
  | param :: rest =>
    match param.fieldName? with
    | some name => do
      let (steps, fields) ← Param.compileFields names scopes declared referenced (started + 1) rest
      .ok ([], .mk name steps (referenced.contains name) :: fields)
    | none => do
      let first ← Param.compileOne names (⟨declared, started - 1⟩ :: scopes) param
      let (steps, fields) ← Param.compileFields names scopes declared referenced started rest
      .ok (first ++ steps, fields)

end

/-! ### Whole schemas -/

/-- The chain that a handle is defined as. -/
def Template.bodyOf (definitions : List (Nat × List Step)) (handle : Nat) (name : String) :
    Except CompileError (List Step) :=
  match definitions.find? fun definition => definition.1 = handle with
  | some definition => .ok definition.2
  | none => .error (.undefinedSchema name)

/-- The suffix of an invocation. -/
def Invocation.compileSuffix : Invocation → Except CompileError Suffix
  | .mk name params tag =>
    if tag.isSome then ParamsFault.refuse name .taggedSuffix
    else if name = "~error" then
      match params with
      | [] => .ok (.collecting none)
      | [.injection index] => .ok (.collecting (some index))
      | _ => ParamsFault.refuse name .notOneInjection
    else if name = "~meta" then
      if params.isEmpty then .ok .apart else ParamsFault.refuse name .notEmpty
    else .error (.unknownValidator name)

/-- The suffix of a parameter, if it invokes one. -/
def Param.compileSuffix : Param → Except CompileError Suffix
  | .validator invocation => invocation.compileSuffix
  | _ => ParamsFault.refuse "schema" .notOnlyValidators

/-- Whether a parameter invokes a suffix. -/
def Param.isSuffix : Param → Bool
  | .validator invocation => invocation.isSuffix
  | _ => false

/-- Check that only suffixes stand behind the first suffix. -/
def Param.checkSuffixes : List Param → Except CompileError Unit
  | [] => .ok ()
  | .validator first :: rest =>
    if rest.all Param.isSuffix then .ok () else .error (.misplacedSuffix first.name)
  | _ => .ok ()

/-- **The template of a forest.** -/
def Template.ofForest (forest : List Param) : Except CompileError Template := do
  if !Param.areInvocations forest then ParamsFault.refuse "schema" .notOnlyValidators
  let chain := forest.takeWhile fun param => !param.isSuffix
  let trailing := forest.dropWhile fun param => !param.isSuffix
  Param.checkSuffixes trailing
  if chain.isEmpty then ParamsFault.refuse "schema" .noChain
  let names ← Param.declareAll [] forest
  let root ← Param.compileChain names [] chain
  let definitions := Step.definitionsOfAll root
  let bodies ← names.zipIdx.mapM fun (name, handle) => bodyOf definitions handle name
  let suffixes ← trailing.mapM Param.compileSuffix
  .ok ⟨root, bodies, suffixes⟩

/-- **The template of a schema text.** -/
def Template.ofText (text : String) : Except CompileError Template := do
  let forest ← (Grammar.parse text).mapError .unparsable
  ofForest forest

end Schemata
