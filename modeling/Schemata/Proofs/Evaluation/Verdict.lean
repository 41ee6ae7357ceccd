/-
**The verdict of a schema with suffixes.**

A suffix that collects turns what was reported into a part of the answer, and a second one finds
nothing that is still reported. So the verdict of a schema with suffixes depends on how many of them
collect.

* `Suffix.around` is what a suffix makes of an outcome, and `foldl_combinator_eq_map` puts all of
  them around one;
* `verdict?_eq`: the verdict by the number of suffixes that collect;
* `verdict_with_suffixes_iff`: when it is the verdict of the schema alone.
-/

import Mathlib
import Schemata.Proofs.Compilation.Suffix
import Schemata.Template.Evaluation
import Schemata.Validation.Report

namespace Schemata

/-- **The verdict of a template on a value**: whether its validation has passed. -/
def Template.verdict? (template : Template) (bindings : Bindings) (value : Json) : Option Bool :=
  (Report.of (template.validate bindings) value).map (Report.passed template.collectsErrors)

/-! ### Suffixes around outcomes -/

namespace Suffix

/-- What a suffix makes of an outcome that started from nothing. -/
def around (bindings : Bindings) (outcome : Outcome (Option Json)) : Suffix → Outcome (Option Json)
  | collecting processor =>
    ⟨some (Validator.collected outcome.result
      (outcome.events.map (Validator.processed (processor.bind bindings.injection?)))), [],
      outcome.known⟩
  | apart => { outcome with known := .empty }

/-- **A suffix works on the outcome of what it stands around.** -/
theorem combinator_eq_map (bindings : Bindings) (suffix : Suffix) (inner : Validator)
    (value : Json) :
    suffix.combinator bindings inner value .empty =
      (inner value .empty).map fun outcome => suffix.around bindings outcome := by
  cases suffix with
  | collecting processor => exact Validator.collecting_apply _ inner value .empty
  | apart => exact Validator.apart_apply inner value .empty

/-- Suffixes work on the outcome of what they stand around, one after the other. -/
theorem foldl_combinator_eq_map (bindings : Bindings) (suffixes : List Suffix) (inner : Validator)
    (value : Json) :
    suffixes.foldl (fun inner suffix => suffix.combinator bindings inner) inner value .empty =
      (inner value .empty).map fun outcome => suffixes.foldl (around bindings) outcome := by
  induction suffixes generalizing inner with
  | nil => exact Option.map_id'.symm
  | cons suffix rest ih =>
      rw [List.foldl_cons, ih, combinator_eq_map, Option.map_map]
      rfl

/-! ### Outcomes inside suffixes -/

/-- **What is left of an outcome inside suffixes, `count` of which collect.** The first of them
answers the reports, and the others find none. -/
def Leaves (count : Nat) (inner outer : Outcome (Option Json)) : Prop :=
  match count with
  | 0 => outer.result = inner.result ∧ outer.events = inner.events
  | 1 => outer.events = [] ∧ ∃ errors, (errors = [] ↔ inner.events = []) ∧
    outer.result = some (Validator.collected inner.result errors)
  | _ => outer.events = [] ∧ ∃ result, outer.result = some (Validator.collected result [])

/-- One more suffix. -/
theorem Leaves.around {count : Nat} {inner outer : Outcome (Option Json)}
    (leaves : Leaves count inner outer) (bindings : Bindings) (suffix : Suffix) :
    Leaves (count + suffix.collects.toNat) inner (suffix.around bindings outer) := by
  cases suffix with
  | apart =>
      cases count with
      | zero => exact leaves
      | succ count => cases count <;> exact leaves
  | collecting processor =>
      cases count with
      | zero =>
          obtain ⟨result, events⟩ := leaves
          refine ⟨rfl, _, ?_, by rw [Suffix.around, result]⟩
          rw [List.map_eq_nil_iff, events]
      | succ count =>
          have silent : outer.events = [] := by cases count <;> exact leaves.1
          refine ⟨rfl, outer.result, ?_⟩
          rw [Suffix.around, silent]
          rfl

/-- **Suffixes that are put around an outcome leave it so.** -/
theorem Leaves.foldl (bindings : Bindings) (suffixes : List Suffix) {count : Nat}
    {inner outer : Outcome (Option Json)} (leaves : Leaves count inner outer) :
    Leaves (count + suffixes.countP collects) inner
      (suffixes.foldl (Suffix.around bindings) outer) := by
  induction suffixes generalizing count outer with
  | nil => exact leaves
  | cons suffix rest ih =>
      have later := ih (leaves.around bindings suffix)
      have sum : count + (suffix :: rest).countP collects =
          count + suffix.collects.toNat + rest.countP collects := by
        rw [List.countP_cons]
        cases suffix.collects with
        | false => rfl
        | true => exact (Nat.add_right_comm count 1 _).symm
      rw [sum, List.foldl_cons]
      exact later

/-- Whether a report passes inside suffixes, `count` of which collect. -/
def passes (count : Nat) (report : Report) : Bool :=
  match count with
  | 0 => report.isValid
  | 1 => report.failures.isEmpty
  | _ => true

/-- When a report passes inside suffixes just if it is valid. -/
theorem passes_eq_isValid_iff (count : Nat) (report : Report) :
    passes count report = report.isValid ↔
      count = 0 ∨ report.isValid ∨ count = 1 ∧ report.failures ≠ [] := by
  obtain ⟨value, failures⟩ := report
  match count with
  | 0 => simp [passes]
  | 1 => cases value <;> cases failures <;> simp [passes, Report.isValid]
  | _ + 2 => cases value <;> cases failures <;> simp [passes, Report.isValid]

/-- **Outcomes inside suffixes pass by how many of them collect.** -/
theorem Leaves.passed {count : Nat} {inner outer : Outcome (Option Json)}
    (leaves : Leaves count inner outer) :
    (Report.ofOutcome outer).passed (0 < count) = passes count (Report.ofOutcome inner) := by
  match count, leaves with
  | 0, ⟨result, events⟩ =>
      simp [Report.passed, Report.isValid, Report.ofOutcome, passes, result, events]
  | 1, ⟨silent, errors, same, result⟩ =>
      have null :
          (if errors.isEmpty then Json.null else .array errors).isNull = errors.isEmpty := by
        cases errors <;> rfl
      have empty : errors.isEmpty = inner.events.isEmpty := by
        rw [Bool.eq_iff_iff, List.isEmpty_iff, List.isEmpty_iff]
        exact same
      rw [Report.passed, Report.isValid, Report.ofOutcome, result, silent]
      show (true && (false || (if errors.isEmpty then Json.null else .array errors).isNull)) = _
      rw [null, empty]
      simp [passes, Report.ofOutcome]
  | _ + 2, ⟨silent, other, result⟩ =>
      rw [Report.passed, Report.isValid, Report.ofOutcome, result, silent]
      rfl

end Suffix

namespace Template

/-- **The verdict of a template by the number of its suffixes that collect**, from the report of its
schema alone. -/
theorem verdict?_eq {template : Template} (plain : template.suffixes = []) (suffixes : List Suffix)
    (bindings : Bindings) (value : Json) :
    { template with suffixes := suffixes : Template }.verdict? bindings value =
      (Report.of (template.validate bindings) value).map
        (Suffix.passes (suffixes.countP Suffix.collects)) := by
  have collects : { template with suffixes := suffixes : Template }.collectsErrors =
      decide (0 < suffixes.countP Suffix.collects) := by
    rw [collectsErrors, Bool.eq_iff_iff, List.any_eq_true, decide_eq_true_iff, List.countP_pos_iff]
  rw [verdict?, Report.of, Report.of, validate_of_plain plain, validate_eq_foldl,
    Suffix.foldl_combinator_eq_map, collects, Option.map_map, Option.map_map, Option.map_map]
  congr 1
  funext outcome
  have leaves := Suffix.Leaves.foldl bindings suffixes
    (show Suffix.Leaves 0 outcome outcome from ⟨rfl, rfl⟩)
  rw [Nat.zero_add] at leaves
  exact leaves.passed

/-- A template without suffixes passes what is valid. -/
theorem verdict?_of_plain {template : Template} (plain : template.suffixes = [])
    (bindings : Bindings) (value : Json) : template.verdict? bindings value =
      (Report.of (template.validate bindings) value).map Report.isValid := by
  have none := verdict?_eq plain [] bindings value
  obtain ⟨root, bodies, suffixes⟩ := template
  cases plain
  exact none

/-- **When suffixes leave a verdict as it is.** The suffixes of any kind and number behind a schema
give the verdict of the schema alone unless one of them collects from a validation that fails
without a report, or two of them collect from one that fails at all. -/
theorem verdict_with_suffixes_iff {text : String} {template : Template}
    (compiles : ofText text = .ok template) (plain : template.suffixes = [])
    {suffixes : List Suffix}
    (writable : ∀ suffix ∈ suffixes, suffix.Writable) (bindings : Bindings) (value : Json) :
    ∃ suffixed, ofText (text ++ Suffix.textOfAll suffixes) = .ok suffixed ∧
      (suffixed.verdict? bindings value = template.verdict? bindings value ↔
        ∀ report, Report.of (template.validate bindings) value = some report →
          suffixes.countP Suffix.collects = 0 ∨ report.isValid ∨
            suffixes.countP Suffix.collects = 1 ∧ report.failures ≠ []) := by
  have compiled := ofText_append_suffixes compiles writable
  rw [plain, List.nil_append] at compiled
  refine ⟨_, compiled, ?_⟩
  rw [verdict?_eq plain, verdict?_of_plain plain]
  cases Report.of (template.validate bindings) value with
  | none => exact iff_of_true rfl nofun
  | some report =>
      rw [Option.map_some, Option.map_some, Option.some.injEq, Suffix.passes_eq_isValid_iff]
      constructor
      · rintro same _ ⟨⟩
        exact same
      · exact fun each => each report rfl

/-- A number that must be one, with its failures collected and then processed again. -/
theorem verdict_with_suffixes_of_number : ∃ suffixed,
    ofText "@n ~error ~meta ~error($0)" = .ok suffixed ∧
      (suffixed.verdict? .empty (.string "x") =
          verdict? ⟨[.primitive .number none], [], []⟩ .empty (.string "x") ↔
        ∀ report, Report.of (validate ⟨[.primitive .number none], [], []⟩ .empty) (.string "x") =
            some report →
          (2 : Nat) = 0 ∨ report.isValid ∨ (2 : Nat) = 1 ∧ report.failures ≠ []) :=
  verdict_with_suffixes_iff (show ofText "@n" = .ok ⟨[.primitive .number none], [], []⟩ by cbv) rfl
    (show ∀ suffix ∈ [Suffix.collecting none, .apart, .collecting (some 0)], suffix.Writable by
      simp [Suffix.Writable]) .empty (.string "x")

/-- **Suffixes may change a verdict.** A text that must be a number fails without a report, so
nothing is collected, and the answer that holds nothing passes. -/
theorem exists_suffix_changes_verdict : ∃ template suffixed,
    ofText "@n" = .ok template ∧ template.suffixes = [] ∧
      ofText ("@n" ++ Suffix.textOfAll [.collecting none]) = .ok suffixed ∧
      template.verdict? .empty (.string "x") = some false ∧
      suffixed.verdict? .empty (.string "x") = some true := by
  refine ⟨⟨[.primitive .number none], [], []⟩, ⟨[.primitive .number none], [], [.collecting none]⟩,
    by cbv, rfl, by cbv, by cbv, by cbv⟩

end Template

end Schemata
