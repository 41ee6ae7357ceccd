/-
**A validation drops, nulls or coerces what its value holds, and leaves it where it is.**

The steps of a chain hand on what type checks make of scalars, and containers of the answers for
their members. So nothing is in an answer, null apart, that is not made of what the value holds at
the same place, though later steps and the bodies of named schemas start from values that were made
before.

* `Json.Coerces`: type checks, one after the other, bring a value to another one;
* `Json.coercion_keeping`: a part is kept with its shape, and a scalar by coercion;
* `Template.validate_inPlace`: so each part of an answer is what the same place of the value has
  become.
-/

import Mathlib
import Schemata.Compilation.Compile
import Schemata.Proofs.Evaluation.Shape

namespace Schemata

namespace Json

/-- **Type checks, one after the other, bring a value to another one.** -/
def Coerces : Json → Json → Prop :=
  Relation.ReflTransGen fun value result =>
    ∃ primitive : Primitive, primitive.check value = some result

/-- A part of an answer has the shape of the original, and a scalar is what checks have made of
it. -/
def Keeps (original part : Json) : Prop :=
  original.shape = part.shape ∧ (part.shape = .scalar → original.Coerces part)

/-- Scalars are kept through any number of checks, since a scalar comes from scalars only. -/
theorem coercion_keeping : Keeping Keeps where
  refl value := ⟨rfl, fun _ => .refl⟩
  trans := by
    rintro first middle last ⟨firstShape, firstCoerces⟩ ⟨lastShape, lastCoerces⟩
    refine ⟨firstShape.trans lastShape, fun scalar => ?_⟩
    have scalarMiddle : middle.shape = .scalar := lastShape.trans scalar
    exact (firstCoerces scalarMiddle).trans (lastCoerces scalar)
  shape kept := kept.1
  check checks filled := ⟨shape_check checks filled, fun _ => .single ⟨_, checks⟩⟩
  array same := ⟨congrArg Shape.array same, fun scalar => by cases scalar⟩
  object _ _ := ⟨rfl, fun scalar => by cases scalar⟩

end Json

namespace Template

/-- **Validation never invents or moves anything.** Wherever the answer of a schema without suffixes
holds something other than null, the value holds something of the same shape at the same place: an
object for an object, an array of the same length for an array, and for a scalar one that type
checks bring to it. -/
theorem validate_inPlace {template : Template} (plain : template.suffixes = [])
    (bindings : Bindings) {value answer : Json} {known : Meta} {outcome : Outcome (Option Json)}
    (ends : template.validate bindings value known = some outcome)
    (answers : outcome.result = some answer) {place : List Segment} {part : Json}
    (found : answer.at? place = some part) (filled : part ≠ .null) :
    ∃ original, value.at? place = some original ∧ original ≠ .null ∧
      original.shape = part.shape ∧ (part.shape = .scalar → original.Coerces part) := by
  rw [validate_of_plain plain] at ends
  obtain ⟨budget, endsWithin⟩ := Step.validateChain_eq_some_iff.mp ends
  have descent : Json.Descent (Json.NarrowsBy Json.Keeps) := Json.coercion_keeping.narrows_descent
  have narrows : answer.NarrowsBy Json.Keeps value :=
    Step.validateChain_descends descent (Step.invokeWithin_descends descent budget) template.root
      value known outcome answer endsWithin answers
  obtain ⟨original, foundOriginal, sameShape, coerces⟩ := narrows place part found filled
  refine ⟨original, foundOriginal, ?_, sameShape, coerces⟩
  rintro rfl
  exact filled (Json.shape_eq_null sameShape.symm)

/-- The first item becomes a truth value where it is; the other one cannot, so it is null, and the
member that is not declared is dropped. -/
theorem validate_inPlace_items :
    let value : Json := .object
      [("a", .array [.string "1", .object []]), ("b", .string "x"), ("c", .bool true)]
    let place : List Segment := [.key "a", .index 0]
    ∃ template, ofText "@o(a: @a(@b), b: @s)" = .ok template ∧ template.suffixes = [] ∧
      ∃ outcome answer part, template.validate .empty value .empty = some outcome ∧
        outcome.result = some answer ∧ answer.at? place = some part ∧ part ≠ .null ∧
        answer.at? [.key "a", .index 1] = some .null ∧ answer.at? [.key "c"] = none ∧
        ∃ original, value.at? place = some original ∧ original ≠ .null ∧
          original.shape = part.shape ∧ (part.shape = .scalar → original.Coerces part) := by
  intro value place
  let template : Template := ⟨[.object [.mk "a" [.array [.primitive .boolean none] none] false,
    .mk "b" [.primitive .string none] false] none], [], []⟩
  have compiles : ofText "@o(a: @a(@b), b: @s)" = .ok template := by cbv
  let answer : Json := .object [("a", .array [.bool true, .null]), ("b", .string "x")]
  have ends : template.validate .empty value .empty =
      some ⟨some answer, [], ⟨[], [], some "bool", []⟩⟩ := by
    cbv
  have filled : Json.bool true ≠ .null := by
    rintro ⟨⟩
  exact ⟨template, compiles, rfl, _, answer, .bool true, ends, rfl, rfl, filled, rfl, rfl,
    validate_inPlace rfl .empty ends rfl rfl filled⟩

end Template

end Schemata
