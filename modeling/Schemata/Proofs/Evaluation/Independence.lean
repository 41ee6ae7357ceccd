/-
**Runs that take nothing from the metadata but the path.**

Under plain bindings a step reads nothing from the metadata but what fields have published. So a
schema without field operands ends alike wherever and whenever it is run: only the paths of its
failures start with the path from which it runs.

* `Run.Moves` says this of a run, and `Step.ReadsField` finds the field operands of a step;
* `Step.validateChain_moves`: if the handles move, so does a chain without field operands;
* `Template.Standalone`: a template of a text, without suffixes and field operands, under plain
  bindings;
* `Template.Standalone.moves`: what such a template does.
-/

import Schemata.Proofs.Evaluation.Closure
import Schemata.Proofs.Evaluation.Failure

namespace Schemata

/-! ### Runs that move -/

/-- A failure inside a place. -/
def Failure.under (path : List Segment) (failure : Failure) : Failure :=
  { failure with path := path ++ failure.path }

/-- **Another outcome is the same but for the path**, which is longer by some steps in front. -/
structure Outcome.MovesTo {α : Type} (path : List Segment) (outcome moved : Outcome α) : Prop where
  result : moved.result = outcome.result
  failures : moved.events.map Report.failureOf =
    (outcome.events.map Report.failureOf).map (Failure.under path)
  place : moved.known.path = path ++ outcome.known.path

/-- **A run moves with its path**: it comes back to the path, and from a path with some steps in
front it ends alike. -/
def Run.Moves {α : Type} (run : Run α) : Prop :=
  ∀ path known other outcome, other.path = path ++ known.path → run known = some outcome →
    outcome.known.path = known.path ∧ ∃ moved, run other = some moved ∧ outcome.MovesTo path moved

namespace Run

variable {α β : Type}

theorem pure_moves (result : α) : Moves (pure result) := by
  intro path known other outcome place ends
  cases ends
  exact ⟨rfl, _, rfl, rfl, rfl, place⟩

theorem Moves.bind {first : Run α} {next : α → Run β} (firstMoves : first.Moves)
    (nextMoves : ∀ result, (next result).Moves) : (first >>= next).Moves := by
  intro path known other outcome place ends
  obtain ⟨done, firstEnds, last, lastEnds, rfl⟩ := bind_eq_some.mp ends
  obtain ⟨stays, firstMoved, firstEnds', same⟩ := firstMoves _ _ _ _ place firstEnds
  obtain ⟨back, lastMoved, lastEnds', alike⟩ := nextMoves done.result _ _ _ _ same.place lastEnds
  rw [← same.result] at lastEnds'
  refine ⟨back.trans stays, _, bind_eq_some.mpr ⟨_, firstEnds', _, lastEnds', rfl⟩, ?_⟩
  refine ⟨alike.result, ?_, alike.place⟩
  simp only [List.map_append, same.failures, alike.failures]

theorem Moves.map {change : α → β} {run : Run α} (runMoves : run.Moves) :
    (change <$> run).Moves := by
  rw [map_eq_pure_bind]
  exact runMoves.bind fun result => pure_moves (change result)

theorem Moves.within {segment : Segment} {run : Run α} (runMoves : run.Moves) :
    (Run.within segment run).Moves := by
  intro path known other outcome place ends
  obtain ⟨done, runEnds, rfl⟩ := within_eq_some.mp ends
  have entered : (other.enter segment).path = path ++ (known.enter segment).path := by
    rw [Meta.enter, Meta.enter, place, List.append_assoc]
  obtain ⟨stays, moved, runEnds', same⟩ := runMoves _ _ _ _ entered runEnds
  have inside : moved.known.path = other.path ++ [segment] := by
    rw [same.place, stays, Meta.enter, ← List.append_assoc, ← place]
  have left : done.known.leave.path = known.path := by
    rw [Meta.leave, stays, Meta.enter, List.dropLast_concat]
  refine ⟨left, _, within_eq_some.mpr ⟨moved, runEnds', rfl⟩, same.result, same.failures, ?_⟩
  rw [left, Meta.leave, inside, List.dropLast_concat, place]

end Run

/-! ### What a step reads -/

/-- What a step relates its value to. -/
def Step.bounds : Step → List Bound
  | .equality _ bound _ | .comparison _ bound _ | .lengthComparison _ bound _ => [bound]
  | .membership bounds _ => bounds
  | _ => []

/-- A step has a field operand. -/
def Step.ReadsField (step : Step) : Prop :=
  ∃ name, .field name ∈ step.bounds

/-- **Bindings that depend on nothing.** -/
structure Bindings.Plain (bindings : Bindings) : Prop where
  injections : ∀ injected ∈ bindings.injections, ∃ value, injected = .plain value
  errors : ∀ error ∈ bindings.errors, ∃ value, error = .plain value

theorem Bindings.empty_plain : Bindings.empty.Plain := ⟨nofun, nofun⟩

namespace Bindings.Plain

variable {bindings : Bindings} (plain : bindings.Plain)
include plain

/-- A bound that is no field has one value for all metadata. -/
theorem resolve_eq {bound : Bound} (literal : ∀ name, bound ≠ .field name) (value : Json)
    (known other : Meta) :
    bound.resolve bindings value known = bound.resolve bindings value other := by
  cases bound with
  | literal => rfl
  | field name => exact absurd rfl (literal name)
  | injection index =>
      simp only [Bound.resolve]
      cases found : bindings.injection? index with
      | none => rfl
      | some injected =>
          obtain ⟨held, rfl⟩ := plain.injections _ (List.mem_of_getElem? found)
          rfl

theorem payload_eq (tag : ErrorTag) (known other : Meta) :
    tag.payload bindings known = tag.payload bindings other := by
  cases tag with
  | literal => rfl
  | positional index =>
      simp only [ErrorTag.payload]
      cases found : bindings.error? index with
      | none => rfl
      | some error =>
          obtain ⟨held, rfl⟩ := plain.errors _ (List.mem_of_getElem? found)
          rfl

/-- A check fails alike at every path. -/
theorem fail_moves (tag : Option ErrorTag) (name : String) (params : List Json) :
    (ErrorTag.fail bindings tag name params).Moves := by
  intro path known other outcome place ends
  cases tag with
  | none =>
      cases ends
      exact ⟨rfl, _, rfl, rfl, rfl, place⟩
  | some tag =>
      cases ends
      refine ⟨rfl, _, rfl, rfl, ?_, place⟩
      have same := plain.payload_eq tag (other.describe name params) (known.describe name params)
      have describes : (other.describe name params).path =
          path ++ (known.describe name params).path := place
      simp only [List.map_cons, List.map_nil, List.nil_append, List.append_nil, Report.failureOf,
        Failure.under, same, describes]
      rfl

end Bindings.Plain

/-- **To move with the path is kept by all that is done with runs.** -/
theorem Run.moves_closed : Run.Closed Run.Moves where
  pure := Run.pure_moves
  exhausted := nofun
  bind := Run.Moves.bind
  within := Run.Moves.within
  publishing := by
    intro name value path known other outcome place ends
    cases ends
    exact ⟨rfl, _, rfl, rfl, rfl, place⟩

/-! ### Chains -/

section Chains

variable {bindings : Bindings} (plain : bindings.Plain) {call : Nat → Validator}
include plain

/-- What fails at a step that reads no field does not depend on the metadata. -/
theorem Step.failure?_eq_of_independent {step : Step} (independent : ¬ step.ReadsField)
    (value : Json) (known other : Meta) :
    step.failure? bindings value known = step.failure? bindings value other := by
  have literal : ∀ bound ∈ step.bounds,
      bound.resolve bindings value known = bound.resolve bindings value other := fun bound member =>
    plain.resolve_eq (fun name same => independent ⟨name, same ▸ member⟩) value known other
  cases step with
  | equality | comparison | lengthComparison => simp only [failure?, literal _ List.mem_cons_self]
  | membership bounds tag =>
      have same : (bounds.map fun bound => bound.resolve bindings value known) =
          bounds.map fun bound => bound.resolve bindings value other := List.map_congr_left literal
      simp only [failure?, same]
  | object | array => cases value <;> rfl
  | primitive | matching | call | define => rfl

/-- A check that reads no field moves. -/
theorem Step.check_moves {step : Step} (independent : ¬ step.ReadsField) (check : step.isCheck)
    (value : Json) : (step.validate bindings call value).Moves := by
  obtain ⟨result, passed⟩ := exists_passed check bindings call value
  intro path known other outcome place ends
  have same := failure?_eq_of_independent plain independent value other known
  cases own : step.failure? bindings value known with
  | none =>
      cases (passed known own).symm.trans ends
      exact ⟨rfl, _, passed other (same.trans own), rfl, rfl, place⟩
  | some failure =>
      rw [validate_of_failure? own] at ends
      rw [validate_of_failure? (same.trans own)]
      exact plain.fail_moves _ _ _ path known other outcome place ends

/-- **A chain without field operands moves, if the handles do.** -/
theorem Step.validateChain_moves (calls : ∀ handle value, (call handle value).Moves)
    (chain : List Step) (independent : Step.ChainEverywhere (fun step => ¬ step.ReadsField) chain)
    (value : Json) :
    (Step.validateChain bindings call chain value).Moves :=
  Run.moves_closed.validateChain plain.fail_moves (fun _ => check_moves plain) calls chain
    independent value

/-- **The invocations of schemas without field operands move.** -/
theorem Step.invokeWithin_moves {bodies : List (List Step)}
    (independent : ∀ (handle : Nat) (body : List Step), bodies[handle]? = some body →
      Step.ChainEverywhere (fun step => ¬ step.ReadsField) body) (budget : Nat) :
    ∀ handle value, (Step.invokeWithin bodies bindings budget handle value).Moves :=
  Run.moves_closed.invokeWithin plain.fail_moves (fun _ _ => check_moves plain) independent budget

end Chains

/-! ### Templates -/

/-- **A schema that stands for itself**: a template of a text, without suffixes and field operands,
under bindings that depend on nothing. -/
structure Template.Standalone (template : Template) (bindings : Bindings) : Prop where
  compiles : ∃ text, Template.ofText text = .ok template
  unsuffixed : template.suffixes = []
  independent : Step.ChainEverywhere (fun step => ¬ step.ReadsField) template.root
  plain : bindings.Plain

/-- **A schema that stands for itself moves with its path.** -/
theorem Template.Standalone.moves {template : Template} {bindings : Bindings}
    (standalone : template.Standalone bindings) (value : Json) :
    (template.validate bindings value).Moves := by
  obtain ⟨⟨text, compiles⟩, unsuffixed, independent, plain⟩ := standalone
  have bodies := fun handle body =>
    @Template.Coherent.body_everywhere _ template (ofText_coherent compiles) independent handle body
  intro path known other outcome place ends
  rw [validate_of_plain unsuffixed] at ends ⊢
  obtain ⟨budget, rootEnds⟩ := Step.validateChain_eq_some_iff.mp ends
  have rootMoves := Step.validateChain_moves plain
    (Step.invokeWithin_moves plain bodies budget) template.root independent value
  obtain ⟨stays, moved, movedEnds, same⟩ := rootMoves _ _ _ _ place rootEnds
  exact ⟨stays, moved, Step.validateChain_eq_some_iff.mpr ⟨budget, movedEnds⟩, same⟩

end Schemata
