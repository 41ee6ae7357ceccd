/-
**What the forest of a schema has to satisfy.**

Apart from its form, which the grammar sees to, a forest has to define each schema once and every
one that it refers to, to name the fields of an object differently, to compare lengths with no
texts, to have patterns that can be read, and to depend on earlier fields only.

* `Param.Occurs` says where in a forest an invocation stands, and inside which fields of which
  objects;
* `Param.Admissible` lists the requirements, and `Param.Violates` says which error tells of which
  violation;
* `Param.admissible_iff`: a forest satisfies the requirements if and only if it violates none.
-/

import Mathlib.Data.List.Duplicate
import Schemata.Compilation.Compile

namespace Schemata

/-! ### Names -/

/-- The name that some parameters start with, if they start with one. -/
def Param.schemaName? (params : List Param) : Option String :=
  (params.head?.bind (Param.token? .identifier)).map Lexeme.value

mutual

/-- **The names of the schemas that an invocation defines**, an outer one before those inside it. -/
def Invocation.schemaNames : Invocation → List String
  | .mk validator params _ =>
    (if validator = "define" then (Param.schemaName? params).toList else []) ++
      Param.schemaNames params

/-- The names of the schemas that some parameters define. -/
def Param.schemaNames : List Param → List String
  | [] => []
  | param :: rest => Param.schemaNamesOf param ++ Param.schemaNames rest

/-- The names of the schemas that a parameter defines. -/
def Param.schemaNamesOf : Param → List String
  | .validator invocation => invocation.schemaNames
  | _ => []

end

/-- What is collected from a list of parameters holds what is collected from one of them. -/
theorem Param.subset_of_mem {α : Type} {collected : List Param → List α} (of : Param → List α)
    (cons : ∀ param rest, collected (param :: rest) = of param ++ collected rest)
    {params : List Param}
    {param : Param} (member : param ∈ params) : of param ⊆ collected params := by
  induction params with
  | nil => cases member
  | cons first rest ih =>
      rw [cons]
      rcases List.mem_cons.mp member with rfl | member
      · exact List.subset_append_left _ _
      · exact List.subset_append_of_subset_right _ (ih member)

/-! ### Places -/

/-- The names of the fields of an object. -/
def Param.fieldNames (params : List Param) : List String :=
  params.filterMap Param.fieldName?

/-- **Where in a forest an invocation occurs**: inside these fields of these objects, given from the
innermost one outwards. -/
inductive Param.Occurs (forest : List Param) : List Scope → Invocation → Prop
  | root {invocation : Invocation} (member : .validator invocation ∈ forest) :
      Occurs forest [] invocation
  | field {scopes : List Scope} {tag : Option ErrorTag} {before after : List Param}
      {invocation : Invocation}
      (outer : Occurs forest scopes (.mk "object" (before ++ .validator invocation :: after) tag)) :
      Occurs forest
        (⟨Param.fieldNames (before ++ .validator invocation :: after),
          (Param.fieldNames before).length - 1⟩ :: scopes) invocation
  | inside {scopes : List Scope} {validator : String} {params : List Param} {tag : Option ErrorTag}
      {invocation : Invocation} (outer : Occurs forest scopes (.mk validator params tag))
      (other : validator ≠ "object") (member : .validator invocation ∈ params) :
      Occurs forest scopes invocation

/-- The innermost of some objects that declares a name. -/
def Scope.declaring? (name : String) (scopes : List Scope) : Option Scope :=
  scopes.find? fun scope => name ∈ scope.fields

/-- An object declares a name before the field that is current. -/
def Scope.Offers (scope : Scope) (name : String) : Prop :=
  ∃ position < scope.current, scope.fields[position]? = some name

/-! ### Requirements -/

/-- The validators that compare with an operand. -/
def comparators : List String :=
  ["compare", "length"]

/-- The validators that name a schema. -/
def schemaKeywords : List String :=
  ["define", "reference"]

/-- **The requirements on a forest.** -/
structure Param.Admissible (forest : List Param) : Prop where
  distinctSchemas : (Param.schemaNames forest).Nodup
  definedSchemas : ∀ {scopes params tag name},
    Param.Occurs forest scopes (.mk "reference" params tag) → Param.schemaName? params = some name →
      name ∈ Param.schemaNames forest
  untaggedSchemas : ∀ {scopes validator params tag},
    Param.Occurs forest scopes (.mk validator params tag) → validator ∈ schemaKeywords → tag = none
  distinctFields : ∀ {scopes params tag},
    Param.Occurs forest scopes (.mk "object" params tag) → (Param.fieldNames params).Nodup
  untextedLengths : ∀ {scopes relation operand tag},
    Param.Occurs forest scopes (.mk "length" [.comparison ⟨relation, operand⟩] tag) →
      ∀ text, operand ≠ .text text
  readablePatterns : ∀ {scopes text tag},
    Param.Occurs forest scopes (.mk "regex" [.text text] tag) → (Pattern.ofText? text).isSome
  earlierDependencies : ∀ {scopes validator relation name tag},
    Param.Occurs forest scopes (.mk validator [.comparison ⟨relation, .field name⟩] tag) →
      validator ∈ comparators →
      ∃ scope, Scope.declaring? name scopes = some scope ∧ scope.Offers name

/-- **The violations of the requirements**, each with the error that tells of it. -/
inductive Param.Violates (forest : List Param) : CompileError → Prop
  | duplicateSchema {name : String} (twice : List.Duplicate name (Param.schemaNames forest)) :
      Violates forest (.duplicateSchema name)
  | undefinedSchema {scopes : List Scope} {params : List Param} {tag : Option ErrorTag}
      {name : String} (occurs : Param.Occurs forest scopes (.mk "reference" params tag))
      (refers : Param.schemaName? params = some name)
      (undefined : name ∉ Param.schemaNames forest) :
      Violates forest (.undefinedSchema name)
  | taggedSchema {scopes : List Scope} {validator : String} {params : List Param} {tag : ErrorTag}
      (occurs : Param.Occurs forest scopes (.mk validator params (some tag)))
      (schema : validator ∈ schemaKeywords) :
      Violates forest (.invalidParams validator .taggedSchema)
  | repeatedField {scopes : List Scope} {params : List Param} {tag : Option ErrorTag}
      {name : String} (occurs : Param.Occurs forest scopes (.mk "object" params tag))
      (twice : List.Duplicate name (Param.fieldNames params)) :
      Violates forest (.invalidParams "object" (.repeatedField name))
  | textBound {scopes : List Scope} {relation : Relation} {text : String} {tag : Option ErrorTag}
      (occurs : Param.Occurs forest scopes
        (.mk "length" [.comparison ⟨relation, .text text⟩] tag)) :
      Violates forest (.invalidParams "length" .textBound)
  | invalidPattern {scopes : List Scope} {text : String} {tag : Option ErrorTag}
      (occurs : Param.Occurs forest scopes (.mk "regex" [.text text] tag))
      (unreadable : Pattern.ofText? text = none) : Violates forest (.invalidPattern text)
  | unknownDependency {scopes : List Scope} {validator name : String} {relation : Relation}
      {tag : Option ErrorTag}
      (occurs : Param.Occurs forest scopes
        (.mk validator [.comparison ⟨relation, .field name⟩] tag))
      (compares : validator ∈ comparators) (undeclared : Scope.declaring? name scopes = none) :
      Violates forest (.unknownDependency name)
  | forwardDependency {scopes : List Scope} {scope : Scope} {validator name : String}
      {relation : Relation} {tag : Option ErrorTag}
      (occurs : Param.Occurs forest scopes
        (.mk validator [.comparison ⟨relation, .field name⟩] tag))
      (compares : validator ∈ comparators) (declared : Scope.declaring? name scopes = some scope)
      (late : ¬scope.Offers name) :
      Violates forest (.forwardDependency ((scope.fields[scope.current]?).getD "") name)

namespace Param

variable {forest : List Param}

/-- What an error tells of is really violated. -/
theorem Violates.not_admissible {error : CompileError} (violates : Violates forest error) :
    ¬Admissible forest := by
  intro admissible
  cases violates with
  | duplicateSchema twice =>
      exact List.nodup_iff_forall_not_duplicate.mp admissible.distinctSchemas _ twice
  | undefinedSchema occurs refers undefined =>
      exact undefined (admissible.definedSchemas occurs refers)
  | taggedSchema occurs schema => cases admissible.untaggedSchemas occurs schema
  | repeatedField occurs twice =>
      exact List.nodup_iff_forall_not_duplicate.mp (admissible.distinctFields occurs) _ twice
  | textBound occurs => exact admissible.untextedLengths occurs _ rfl
  | invalidPattern occurs unreadable =>
      have reads := admissible.readablePatterns occurs
      rw [unreadable] at reads
      cases reads
  | unknownDependency occurs compares undeclared =>
      obtain ⟨_, declared, -⟩ := admissible.earlierDependencies occurs compares
      cases undeclared.symm.trans declared
  | forwardDependency occurs compares declared late =>
      obtain ⟨_, found, offers⟩ := admissible.earlierDependencies occurs compares
      cases declared.symm.trans found
      exact late offers

/-- **A forest satisfies the requirements if and only if it violates none.** -/
theorem admissible_iff : Admissible forest ↔ ∀ error, ¬Violates forest error := by
  constructor
  · exact fun admissible error violates => violates.not_admissible admissible
  · intro none
    exact
      { distinctSchemas := List.nodup_iff_forall_not_duplicate.mpr fun _ twice =>
          none _ (.duplicateSchema twice)
        definedSchemas := fun occurs refers => by
          by_contra undefined
          exact none _ (.undefinedSchema occurs refers undefined)
        untaggedSchemas := @fun _ _ _ tag occurs schema => by
          cases tag with
          | none => rfl
          | some tag => exact absurd (.taggedSchema occurs schema) (none _)
        distinctFields := fun occurs => List.nodup_iff_forall_not_duplicate.mpr fun _ twice =>
          none _ (.repeatedField occurs twice)
        untextedLengths := by
          rintro _ _ _ _ occurs text rfl
          exact none _ (.textBound occurs)
        readablePatterns := fun occurs => by
          rw [Option.isSome_iff_ne_none]
          exact fun unreadable => none _ (.invalidPattern occurs unreadable)
        earlierDependencies := @fun scopes _ _ name _ occurs compares => by
          cases declared : Scope.declaring? name scopes with
          | none => exact absurd (.unknownDependency occurs compares declared) (none _)
          | some scope =>
              by_contra late
              exact none _ (.forwardDependency occurs compares declared fun offers =>
                late ⟨scope, rfl, offers⟩) }

end Param

end Schemata
