/-
**Templates: schemas that are ready to be bound.**

A template holds the chain of steps of the whole schema, the chains of its named schemas in the
order of their handles, and the suffixes around it.

* A `Step` is a check, a container with chains for its members, or a call of a named schema;
* a `Bound` is what a value is related to: a constant, an injection, or what a field has published;
* `Step.definitions` lists the named schemas that are defined inside a step.
-/

import Schemata.Check
import Schemata.Language.Forest

namespace Schemata

/-- What a value is related to. -/
inductive Bound where
  | literal (value : Json)
  | injection (index : Nat)
  | field (name : String)

mutual

/-- One step of a chain. A definition holds the chain that it gives to its handle, and calls it
where it stands. -/
inductive Step where
  | primitive (check : Primitive) (tag : Option ErrorTag)
  | equality (expected : Bool) (bound : Bound) (tag : Option ErrorTag)
  | membership (bounds : List Bound) (tag : Option ErrorTag)
  | matching (text : String) (pattern : Pattern) (tag : Option ErrorTag)
  | comparison (relation : Relation) (bound : Bound) (tag : Option ErrorTag)
  | lengthComparison (relation : Relation) (bound : Bound) (tag : Option ErrorTag)
  | object (fields : List Field) (tag : Option ErrorTag)
  | array (chain : List Step) (tag : Option ErrorTag)
  | call (handle : Nat)
  | define (handle : Nat) (chain : List Step)

/-- A field of an object: its name, its chain, and whether its value is published for the fields
after it. -/
inductive Field where
  | mk (name : String) (chain : List Step) (publishes : Bool)

end

/-- The field that a comparison depends on. -/
def Step.dependency? : Step → Option String
  | .comparison _ (.field name) _ | .lengthComparison _ (.field name) _ => some name
  | _ => none

/-- The name of a field. -/
def Field.name : Field → String
  | mk name _ _ => name

/-- The chain of a field. -/
def Field.chain : Field → List Step
  | mk _ chain _ => chain

/-- What is put around a whole schema. -/
inductive Suffix where
  | collecting (processor : Option Nat)
  | apart
deriving DecidableEq, Repr

/-- Whether reports become a part of the answer. -/
def Suffix.collects : Suffix → Bool
  | collecting _ => true
  | apart => false

/-- **A template.** -/
structure Template where
  root : List Step
  bodies : List (List Step)
  suffixes : List Suffix

namespace Template

/-- The number of named schemas. -/
def schemaCount (template : Template) : Nat :=
  template.bodies.length

/-- Whether a suffix makes the reports a part of the answer. -/
def collectsErrors (template : Template) : Bool :=
  template.suffixes.any Suffix.collects

end Template

/-! ### Definitions -/

mutual

/-- **The definitions inside a step**, an outer one before those inside it. -/
def Step.definitions : Step → List (Nat × List Step)
  | .object fields _ => Field.definitionsOfAll fields
  | .array chain _ => Step.definitionsOfAll chain
  | .define handle chain => (handle, chain) :: Step.definitionsOfAll chain
  | _ => []

/-- The definitions inside a chain. -/
def Step.definitionsOfAll : List Step → List (Nat × List Step)
  | [] => []
  | step :: rest => step.definitions ++ Step.definitionsOfAll rest

/-- The definitions inside a field. -/
def Field.definitions : Field → List (Nat × List Step)
  | .mk _ chain _ => Step.definitionsOfAll chain

/-- The definitions inside some fields. -/
def Field.definitionsOfAll : List Field → List (Nat × List Step)
  | [] => []
  | field :: rest => field.definitions ++ Field.definitionsOfAll rest

end

end Schemata
