/-
**Which values the relations to bounds accept.**

Equalities, memberships and comparisons pass the values that are related to the values of their
bounds:

* `Template.accepts?` is whether the template of a text accepts a value;
* `Template.IsStep.accepts?_equality` and its companions: a check accepts just what it holds of;
* `Template.accepts?_oneOfText`: a membership accepts what one of its equalities accepts, but never
  null;
* `Json.Integer.relatedAs_rounded`: integers are related as they are rounded to binary64 numbers, so
  not as they are if two different ones are rounded to the same.
-/

import Schemata.Proofs.Compilation.Values
import Schemata.Proofs.Numeral.Rounding
import Schemata.Proofs.Validation.Groups

namespace Schemata

variable {bindings : Bindings} {value : Json} {known : Meta} {tag : Option ErrorTag} {text : String}

/-! ### Acceptance -/

/-- **Whether the template of a text accepts a value**, that is, answers it. There is no telling if
the text has no template, or if the validation does not end. -/
def Template.accepts? (text : String) (bindings : Bindings) (value : Json) (known : Meta) :
    Option Bool :=
  match ofText text with
  | .ok template =>
      (template.validate bindings value known).map fun outcome => outcome.result.isSome
  | .error _ => none

/-- A check that is required passes just if it holds. -/
theorem ErrorTag.isSome_require (name : String) (params : List Json) (holds : Bool) :
    (require bindings tag name params holds value known).map
      (fun outcome => outcome.result.isSome) = some holds := by
  cases holds with
  | true => rfl
  | false => cases tag <;> rfl

namespace Template

/-- A template of one step accepts what the step answers. -/
theorem IsStep.accepts?_eq {step : Step} (isStep : IsStep text step) : ∃ call,
    accepts? text bindings value known =
      (step.validate bindings call value known).map fun outcome => outcome.result.isSome := by
  obtain ⟨template, compiles, root, plain⟩ := isStep
  refine ⟨Step.invoke template.bodies bindings, ?_⟩
  rw [accepts?, compiles]
  show (template.validate bindings value known).map _ = _
  rw [validate_of_plain plain, root]
  show (((step.validate bindings _).andThen Validator.accept) value known).map _ = _
  rw [Validator.andThen_accept]

/-- **An equality accepts the values that equal its bound**, or those that do not. -/
theorem IsStep.accepts?_equality {expected : Bool} {bound : Bound}
    (isStep : IsStep text (.equality expected bound tag)) : accepts? text bindings value known =
      some (decide (Check.equals value (bound.resolve bindings value known) = expected)) := by
  obtain ⟨call, accepts⟩ := isStep.accepts?_eq
  rw [accepts, Step.validate, Bound.validateEquality, Run.known_bind_apply]
  exact ErrorTag.isSome_require _ _ _

/-- **A membership accepts the values that equal one of its bounds**, except for null. -/
theorem IsStep.accepts?_membership {bounds : List Bound}
    (isStep : IsStep text (.membership bounds tag)) :
    accepts? text bindings value known =
      some (Check.isOneOf value (bounds.map fun bound => bound.resolve bindings value known)) := by
  obtain ⟨call, accepts⟩ := isStep.accepts?_eq
  rw [accepts, Step.validate, Bound.validateMembership, Run.known_bind_apply]
  exact ErrorTag.isSome_require _ _ _

/-- **A comparison accepts the values that are in its relation to its bound.** -/
theorem IsStep.accepts?_comparison {relation : Relation} {bound : Bound}
    (isStep : IsStep text (.comparison relation bound tag)) : accepts? text bindings value known =
      some (Check.compares relation value (bound.resolve bindings value known)) := by
  obtain ⟨call, accepts⟩ := isStep.accepts?_eq
  rw [accepts, Step.validate, Bound.validateRelation, Run.known_bind_apply]
  exact ErrorTag.isSome_require _ _ _

/-- The texts of the relations to the first injection are one step each. -/
theorem isStep_injection :
    IsStep "equal($0)" (.equality true (.injection 0) none) ∧
      IsStep "notEqual($0)" (.equality false (.injection 0) none) ∧
      IsStep "oneOf($0)" (.membership [.injection 0] none) ∧
      ∀ relation : Relation,
        IsStep ("compare(" ++ relation.symbol ++ "$0)")
          (.comparison relation (.injection 0) none) := by
  refine ⟨?equality, ?inequality, ?membership, fun relation => ?comparison⟩
  case comparison =>
    cases relation <;> exact isStep_of_parse (bind_eq_ok.mpr ⟨_, by cbv, rfl⟩) rfl rfl rfl
  all_goals exact isStep_of_parse (bind_eq_ok.mpr ⟨_, by cbv, rfl⟩) rfl rfl rfl

/-! ### Memberships and equalities -/

/-- A value equals one of some bounds just if one of the equalities with them accepts it. -/
theorem any_equals_iff {texts : List String} {bounds : List Bound}
    (written : List.Forall₂ Bound.WrittenAs texts bounds) :
    (bounds.map fun bound => bound.resolve bindings value known).any (Check.equals value) = true ↔
      ∃ text ∈ texts, accepts? (Grammar.equalText text) bindings value known = some true := by
  induction written with
  | nil => simp
  | cons first _ ih =>
      rw [List.map_cons, List.any_cons, Bool.or_eq_true, ih, List.exists_mem_cons_iff,
        (isStep_equalText first).accepts?_equality, Option.some.injEq, decide_eq_true_eq]

/-- **A membership accepts a value just if the value is not null and one of its equalities accepts
it**, from the same metadata. All of them have templates, and end. -/
theorem accepts?_oneOfText {texts : List String} (nonempty : texts ≠ [])
    (values : ∀ text ∈ texts, Grammar.ValueText text) (bindings : Bindings) (value : Json)
    (known : Meta) :
    (∀ text ∈ texts, ∃ accepted, accepts? (Grammar.equalText text) bindings value known =
      some accepted) ∧
      ∃ accepted, accepts? (Grammar.oneOfText texts) bindings value known = some accepted ∧
        (accepted = true ↔ value ≠ .null ∧
          ∃ text ∈ texts, accepts? (Grammar.equalText text) bindings value known = some true) := by
  obtain ⟨bounds, written⟩ := Grammar.ValueText.exists_bounds values
  refine ⟨fun text member => ?_, _, (isStep_oneOfText nonempty written).accepts?_membership, ?_⟩
  · obtain ⟨bound, written⟩ := (values text member).exists_bound
    exact ⟨_, (isStep_equalText written).accepts?_equality⟩
  · have null : (!value.isNull) = true ↔ value ≠ .null := by
      cases value <;> simp [Json.isNull]
    rw [Check.isOneOf, Bool.and_eq_true, null, any_equals_iff written]

/-- A membership in a number, a text and an injection accepts what one of its equalities accepts. -/
theorem accepts?_oneOfText_of_three : (∀ text ∈ ["1", " 'a'", "$0"], Grammar.ValueText text) ∧
    ∃ accepted, accepts? (Grammar.oneOfText ["1", " 'a'", "$0"]) .empty (.string "a") .empty =
      some accepted ∧ (accepted = true ↔ Json.string "a" ≠ .null ∧ ∃ text ∈ ["1", " 'a'", "$0"],
        accepts? (Grammar.equalText text) .empty (.string "a") .empty = some true) := by
  have values : ∀ text ∈ ["1", " 'a'", "$0"], Grammar.ValueText text := by
    intro text member
    simp only [List.mem_cons, List.not_mem_nil, or_false] at member
    rcases member with rfl | rfl | rfl <;> exact Grammar.valueText_of_derive (by cbv) rfl
  exact ⟨values, (accepts?_oneOfText (by decide) values _ _ _).2⟩

/-- **Null is in no list**, although it equals itself. -/
theorem exists_null_unlisted : Grammar.ValueText "null" ∧
    accepts? (Grammar.equalText "null") .empty .null .empty = some true ∧
    accepts? (Grammar.oneOfText ["null"]) .empty .null .empty = some false := by
  have equality : IsStep (Grammar.equalText "null") (.equality true (.literal .null) none) :=
    isStep_of_parse (bind_eq_ok.mpr ⟨_, by cbv, rfl⟩) rfl rfl rfl
  have membership : IsStep "oneOf(null)" (.membership [.literal .null] none) :=
    isStep_of_parse (bind_eq_ok.mpr ⟨_, by cbv, rfl⟩) rfl rfl rfl
  have spelled : Grammar.oneOfText ["null"] = "oneOf(null)" := by
    rw [Grammar.oneOfText, String.intercalate_singleton]
    rfl
  rw [spelled]
  exact ⟨Grammar.valueText_of_derive (by cbv) rfl, equality.accepts?_equality,
    membership.accepts?_membership⟩

end Template

/-! ### Integers -/

/-- **The relations between integers**, one for each operator. -/
def Relation.between (left right : Int) : Relation → Bool
  | greater => left > right
  | atLeast => left ≥ right
  | less => left < right
  | atMost => left ≤ right
  | equal => left = right
  | different => left ≠ right

/-- A relation holds between two integers by how they compare. -/
theorem Relation.holds_compare (relation : Relation) (left right : Int) :
    relation.holds (Ord.compare left right) = relation.between left right := by
  rcases lt_trichotomy left right with less | rfl | greater
  · rw [compare_lt_iff_lt.mpr less]
    cases relation <;> simp [holds, between, less, less.le, less.ne, less.not_gt]
  · rw [compare_eq_iff_eq.mpr rfl]
    cases relation <;> simp [holds, between]
  · rw [compare_gt_iff_gt.mpr greater]
    cases relation <;> simp [holds, between, greater, greater.le, greater.ne', greater.not_gt]

namespace Json.Integer

open Template

variable {first second : Json.Integer} {left right : Int}

/-- An integer as a JSON value. -/
def toJson (n : Json.Integer) : Json :=
  .number (.integer n)

/-- The first injection is an integer, wherever another one is validated. -/
def Injects (bindings : Bindings) (known : Meta) (first second : Json.Integer) : Prop :=
  (Bound.injection 0).resolve bindings first.toJson known = second.toJson

/-- **Two JSON integers are related as two integers**, in all relations and by all templates that
relate a value to the first injection. -/
structure RelatedAs (first second : Json.Integer) (left right : Int) : Prop where
  equals : Check.equals first.toJson second.toJson = decide (left = right)
  compares :
    ∀ relation, Check.compares relation first.toJson second.toJson = relation.between left right
  equality : ∀ bindings known, Injects bindings known first second →
    accepts? "equal($0)" bindings first.toJson known = some (decide (left = right))
  inequality : ∀ bindings known, Injects bindings known first second →
    accepts? "notEqual($0)" bindings first.toJson known = some (decide (left ≠ right))
  membership : ∀ bindings known, Injects bindings known first second →
    accepts? "oneOf($0)" bindings first.toJson known = some (decide (left = right))
  comparison : ∀ bindings known (relation : Relation), Injects bindings known first second →
    accepts? ("compare(" ++ relation.symbol ++ "$0)") bindings first.toJson known =
      some (relation.between left right)

/-- **JSON integers are related as all integers that compare as the rounded ones.** -/
theorem relatedAs_of_compare (same : Ord.compare (Binary64.roundInt first.value)
    (Binary64.roundInt second.value) =
    Ord.compare left right) : RelatedAs first second left right := by
  have order := (compare?_datum first second).trans (congrArg some same)
  have equals : Check.equals first.toJson second.toJson = decide (left = right) := by
    rw [toJson, toJson, Check.equals, order]
    exact decide_eq_decide.mpr (Option.some_inj.trans compare_eq_iff_eq)
  have compares : ∀ relation,
      Check.compares relation first.toJson second.toJson = relation.between left right := by
    intro relation
    rw [← relation.holds_compare, toJson, toJson, Check.compares, Check.order?, order]
  obtain ⟨equality, inequality, membership, comparison⟩ := isStep_injection
  refine ⟨equals, compares, fun bindings known injects => ?_, fun bindings known injects => ?_,
    fun bindings known injects => ?_, fun bindings known relation injects => ?_⟩
  · rw [equality.accepts?_equality, injects, equals]
    simp
  · rw [inequality.accepts?_equality, injects, equals]
    simp
  · have present : first.toJson.isNull = false := rfl
    rw [membership.accepts?_membership, List.map_singleton, injects, Check.isOneOf, present,
      List.any_cons, equals]
    simp
  · rw [(comparison relation).accepts?_comparison, injects, compares]

/-- **JSON integers are related as they are rounded to binary64 numbers.** So they are related as
they are just if they are equal or are rounded to different numbers, and in particular if one of
them is below `2 ^ 53` in size. -/
theorem relatedAs_rounded (first second : Json.Integer) :
    RelatedAs first second (Binary64.roundInt first.value) (Binary64.roundInt second.value) ∧
      (RelatedAs first second first.value second.value ↔
        first.value = second.value ∨
          Binary64.roundInt first.value ≠ Binary64.roundInt second.value) ∧
      (first.value.natAbs < 2 ^ 53 ∨ second.value.natAbs < 2 ^ 53 →
        RelatedAs first second first.value second.value) := by
  have rounded :
      RelatedAs first second (Binary64.roundInt first.value) (Binary64.roundInt second.value) :=
    relatedAs_of_compare rfl
  refine ⟨rounded, ⟨fun exact => ?_, fun apart => ?_⟩, fun small => ?_⟩
  · have same := exact.equals.symm.trans rounded.equals
    rw [decide_eq_decide] at same
    exact (em _).imp_right (mt same.mpr)
  · exact relatedAs_of_compare (Binary64.compare_roundInt_iff.mpr apart)
  · exact relatedAs_of_compare (Binary64.compare_roundInt (or_assoc.mp (.inl small)))

/-- The largest integer and a small one are related as they are. -/
theorem relatedAs_rounded_largest : ∃ first second : Json.Integer,
    first.value = 2 ^ 64 - 1 ∧ second.value = -1 ∧ RelatedAs first second (2 ^ 64 - 1) (-1) ∧
      accepts? "compare(>$0)" ⟨[.plain second.toJson], []⟩ first.toJson .empty = some true := by
  have exact := (relatedAs_rounded ⟨2 ^ 64 - 1, by decide⟩ ⟨-1, by decide⟩).2.2 (.inr (by decide))
  exact ⟨_, _, rfl, rfl, exact, exact.comparison _ _ .greater rfl⟩

/-- **Different integers can be related as equal ones**: they are rounded to the same number. -/
theorem exists_related_as_equal : ∃ first second : Json.Integer,
    first.value = 2 ^ 53 + 1 ∧ second.value = 2 ^ 53 ∧
      Check.equals first.toJson second.toJson = true ∧
      Check.compares .greater first.toJson second.toJson = false ∧
      accepts? "equal($0)" ⟨[.plain second.toJson], []⟩ first.toJson .empty = some true := by
  have rounded : Binary64.roundInt (2 ^ 53 + 1) = Binary64.roundInt (2 ^ 53) := by decide
  have related : RelatedAs ⟨2 ^ 53 + 1, by decide⟩ ⟨2 ^ 53, by decide⟩ (2 ^ 53) (2 ^ 53) :=
    relatedAs_of_compare ((compare_eq_iff_eq.mpr rounded).trans (compare_eq_iff_eq.mpr rfl).symm)
  exact ⟨_, _, rfl, rfl, related.equals, related.compares .greater, related.equality _ _ rfl⟩

end Json.Integer

end Schemata
