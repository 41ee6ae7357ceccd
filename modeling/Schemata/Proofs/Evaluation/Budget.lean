/-
**Runs with a budget of calls.**

`Step.invokeWithin` invokes a named schema as `Step.invoke` does, but has no outcome once more calls
than its budget would be active inside one another. It recurses on the budget, so it can be opened.

* `invoke_eq_some_iff`: an invocation has an outcome exactly if it has it within some budget;
* `validateChain_eq_some_iff`: the same for a chain whose calls are invocations.

The second follows the chain: each of the finitely many calls that a run makes has a budget, and the
largest of them is enough for all (`Run.limit`).
-/

import Schemata.Template.Evaluation

namespace Schemata

/-- **Invoke a named schema with at most `budget` calls active at once.** -/
def Step.invokeWithin (bodies : List (List Step)) (bindings : Bindings) :
    (budget : Nat) → Nat → Validator
  | 0, _ => fun _ => Run.exhausted
  | budget + 1, handle =>
    match bodies[handle]? with
    | some body => Step.validateChain bindings (Step.invokeWithin bodies bindings budget) body
    | none => fun _ => pure none

/-! ### Limits of runs -/

/-- **A run has no outcomes but those of a family of growing runs.** -/
def Run.limit : Run.Congruence Nat where
  relates run runs := (∀ fewer more, fewer ≤ more → (runs more).Extends (runs fewer)) ∧
    ∀ known outcome, run known = some outcome → ∃ budget, runs budget known = some outcome
  refl _ := ⟨fun _ _ _ _ _ ends => ends, fun _ _ ends => ⟨0, ends⟩⟩
  bind := by
    intro α β first firsts next nexts firstLimit nextLimit
    refine ⟨fun fewer more le => ?_, fun known outcome ends => ?_⟩
    · exact Run.Extends.bind (firstLimit.1 _ _ le) fun result => (nextLimit result).1 _ _ le
    · obtain ⟨done, firstEnds, last, lastEnds, rfl⟩ := Run.bind_eq_some.mp ends
      obtain ⟨atFirst, firstWithin⟩ := firstLimit.2 _ _ firstEnds
      obtain ⟨atNext, nextWithin⟩ := (nextLimit done.result).2 _ _ lastEnds
      refine ⟨max atFirst atNext, Run.bind_eq_some.mpr ⟨done, ?_, last, ?_, rfl⟩⟩
      · exact firstLimit.1 _ _ (Nat.le_max_left _ _) _ _ firstWithin
      · exact (nextLimit done.result).1 _ _ (Nat.le_max_right _ _) _ _ nextWithin
  within := by
    intro α segment run runs runLimit
    refine ⟨fun fewer more le => ?_, fun known outcome ends => ?_⟩
    · exact Run.Extends.within segment (runLimit.1 _ _ le)
    · obtain ⟨done, runEnds, rfl⟩ := Run.within_eq_some.mp ends
      obtain ⟨budget, runWithin⟩ := runLimit.2 _ _ runEnds
      exact ⟨budget, Run.within_eq_some.mpr ⟨done, runWithin, rfl⟩⟩

namespace Step

variable {bodies : List (List Step)} {bindings : Bindings}

/-! ### Larger budgets -/

theorem invokeWithin_succ_extends (budget : Nat) : ∀ (handle : Nat) (value : Json),
    (invokeWithin bodies bindings (budget + 1) handle value).Extends
      (invokeWithin bodies bindings budget handle value) := by
  induction budget with
  | zero =>
      intro handle value known outcome ends
      cases ends
  | succ budget ih =>
      intro handle value
      rw [invokeWithin, invokeWithin]
      cases bodies[handle]? with
      | none => exact Run.Extends.congruence.refl _
      | some body => exact validateChain_extends ih body value

/-- A larger budget changes no outcome. -/
theorem invokeWithin_extends {fewer more : Nat} (le : fewer ≤ more) (handle : Nat) (value : Json) :
    (invokeWithin bodies bindings more handle value).Extends
      (invokeWithin bodies bindings fewer handle value) := by
  induction le with
  | refl => exact Run.Extends.congruence.refl _
  | step _ ih =>
      intro known outcome ends
      exact invokeWithin_succ_extends _ handle value known outcome (ih known outcome ends)

/-- The outcomes within a budget are outcomes. -/
theorem invoke_extends (budget : Nat) : ∀ (handle : Nat) (value : Json),
    Run.Extends (invoke bodies bindings handle value)
      (invokeWithin bodies bindings budget handle value) := by
  induction budget with
  | zero =>
      intro handle value known outcome ends
      cases ends
  | succ budget ih =>
      intro handle value known outcome ends
      rw [invokeWithin] at ends
      rw [invoke]
      cases body : bodies[handle]? with
      | none => rw [body] at ends; exact ends
      | some chain =>
          rw [body] at ends
          exact validateChain_extends ih chain value known outcome ends

/-! ### Some budget is enough -/

/-- A validator that has no outcomes but those within budgets is their limit. -/
theorem limit_of_within {call : Nat → Validator}
    (within : ∀ handle value known outcome, call handle value known = some outcome →
      ∃ budget, invokeWithin bodies bindings budget handle value known = some outcome)
    (handle : Nat) (value : Json) :
    Run.limit.relates (call handle value)
      fun budget => invokeWithin bodies bindings budget handle value :=
  ⟨fun _ _ le => invokeWithin_extends le handle value, within handle value⟩

/-- **An invocation has an outcome exactly if it has it within some budget.** -/
theorem invoke_eq_some_iff {handle : Nat} {value : Json} {known : Meta}
    {outcome : Outcome (Option Json)} :
    invoke bodies bindings handle value known = some outcome ↔
      ∃ budget, invokeWithin bodies bindings budget handle value known = some outcome := by
  refine ⟨?_, fun ⟨budget, ends⟩ => invoke_extends budget handle value known outcome ends⟩
  apply invoke.partial_correctness
  intro call within handle value known outcome ends
  cases body : bodies[handle]? with
  | none =>
      rw [body] at ends
      refine ⟨1, ?_⟩
      rw [invokeWithin, body]
      exact ends
  | some chain =>
      rw [body] at ends
      obtain ⟨budget, chainEnds⟩ :=
        (validateChain_related Run.limit (limit_of_within within) chain value).2 _ _ ends
      refine ⟨budget + 1, ?_⟩
      rw [invokeWithin, body]
      exact chainEnds

/-- **A chain has an outcome exactly if it has it within some budget.** -/
theorem validateChain_eq_some_iff {chain : List Step} {value : Json} {known : Meta}
    {outcome : Outcome (Option Json)} :
    validateChain bindings (invoke bodies bindings) chain value known = some outcome ↔
      ∃ budget, validateChain bindings (invokeWithin bodies bindings budget) chain value known =
        some outcome := by
  constructor
  · exact (validateChain_related Run.limit
      (limit_of_within fun _ _ _ _ => invoke_eq_some_iff.mp) chain value).2 known outcome
  · rintro ⟨budget, ends⟩
    exact validateChain_extends (invoke_extends budget) chain value known outcome ends

end Step

end Schemata
