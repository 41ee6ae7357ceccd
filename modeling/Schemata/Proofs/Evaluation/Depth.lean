/-
**What a validation answers is not deeper than what it is given.**

Scalars have no depth, and a container is not deeper than one of deeper members. So being at most as
deep is a `Json.Descent`, and the nesting depth never grows along a chain.

* `Run.AnswersUpTo` bounds the depth of what a run answers, and `Validator.Shallow` that of what a
  validator answers by the depth of its value;
* `Step.validate_shallow`: if the handles are shallow, so is a step.
-/

import Schemata.Proofs.Evaluation.Shape

namespace Schemata

/-! ### Depths of values -/

namespace Json

@[simp] theorem depth_null : null.depth = 0 := rfl

/-- Null and scalars have nothing inside. -/
theorem depth_of_isLeaf {value : Json} (leaf : value.shape.IsLeaf) : value.depth = 0 := by
  cases value with
  | array | object => rcases leaf with leaf | leaf <;> cases leaf
  | null | bool | number | string => rfl

/-- What is found among some members is not deeper than they are. -/
theorem depth_find?_le (name : String) (members : Dictionary Json) :
    ((Dictionary.find? name members).getD .null).depth ≤ depthMembers members := by
  induction members with
  | nil => exact Nat.le_refl 0
  | cons member rest ih =>
      obtain ⟨other, held⟩ := member
      rw [Dictionary.find?, depthMembers]
      split
      · exact Nat.le_max_left _ _
      · exact Nat.le_trans ih (Nat.le_max_right _ _)

theorem depth_find?_lt (name : String) (members : Dictionary Json) :
    ((Dictionary.find? name members).getD .null).depth < (object members).depth := by
  have bounded := depth_find?_le name members
  rw [depth]
  omega

theorem depthMembers_le {depth : Nat} {members : Dictionary Json}
    (each : ∀ name value, (name, value) ∈ members → value.depth ≤ depth) :
    depthMembers members ≤ depth := by
  induction members with
  | nil => exact Nat.zero_le _
  | cons member rest ih =>
      obtain ⟨name, value⟩ := member
      rw [depthMembers]
      exact Nat.max_le.mpr ⟨each name value List.mem_cons_self,
        ih fun other value member => each other value (List.mem_cons_of_mem _ member)⟩

theorem depthItems_le_of_forall₂ {answers items : List Json}
    (each : List.Forall₂ (fun answer item => answer.depth ≤ item.depth) answers items) :
    depthItems answers ≤ depthItems items := by
  induction each with
  | nil => exact Nat.le_refl _
  | cons first _ ih =>
      simp only [depthItems]
      omega

theorem depthItems_append (first second : List Json) :
    depthItems (first ++ second) = max (depthItems first) (depthItems second) := by
  induction first with
  | nil => exact (Nat.zero_max _).symm
  | cons item rest ih => simp only [List.cons_append, depthItems, ih, Nat.max_assoc]

theorem depth_item_lt (done later : List Json) (item : Json) :
    item.depth < (array (done ++ item :: later)).depth := by
  simp only [depth, depthItems_append, depthItems]
  omega

end Json

/-- A type check answers its value or a scalar. -/
theorem Primitive.depth_check_le {primitive : Primitive} {value result : Json}
    (checks : primitive.check value = some result) : result.depth ≤ value.depth := by
  rcases check_eq_or_scalar checks with rfl | ⟨-, leaf⟩
  · exact Nat.le_refl _
  · rw [Json.depth_of_isLeaf leaf]
    exact Nat.zero_le _

/-- **Being at most as deep is a descent.** -/
theorem Json.depth_descent : Json.Descent fun answer value => answer.depth ≤ value.depth where
  refl _ := Nat.le_refl _
  trans := Nat.le_trans
  null _ := Nat.zero_le _
  check := Primitive.depth_check_le
  array each := by
    rw [depth, depth]
    exact Nat.add_le_add_left (depthItems_le_of_forall₂ each) 1
  object each := by
    rw [depth, depth]
    exact Nat.add_le_add_left (depthMembers_le fun name answer member =>
      Nat.le_trans (each name answer member) (depth_find?_le name _)) 1

/-! ### Depths of answers -/

/-- Every answer of a run is at most this deep. -/
def Run.AnswersUpTo (depth : Nat) (run : Run (Option Json)) : Prop :=
  ∀ known outcome result, run known = some outcome → outcome.result = some result →
    result.depth ≤ depth

/-- **What a validator answers is not deeper than its value.** -/
def Validator.Shallow (validator : Validator) : Prop :=
  ∀ value, Run.AnswersUpTo value.depth (validator value)

/-- **If the handles are shallow, so is a step.** -/
theorem Step.validate_shallow {bindings : Bindings} {call : Nat → Validator}
    (calls : ∀ handle, (call handle).Shallow) (step : Step) :
    (step.validate bindings call).Shallow :=
  step.validate_descends Json.depth_descent calls

/-- What an invocation answers is not deeper than its value. -/
theorem Step.invokeWithin_shallow {bodies : List (List Step)} {bindings : Bindings} (budget : Nat)
    (handle : Nat) : (invokeWithin bodies bindings budget handle).Shallow :=
  invokeWithin_descends Json.depth_descent budget handle

end Schemata
