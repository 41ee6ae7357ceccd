/-
**What alternatives report.**

`Validator.firstOf` takes the first candidate that answers a value, and drops what it and the
candidates before it have reported. For schemas that stand for themselves this is decided by what
each of them answers alone.

* `Report.first` is the first of some reports with a value, or else all their failures;
* `Validator.firstOf_report`: the report of alternatives is the first of the reports of the
  candidates;
* `Template.firstOf_isValid_iff`: so it is valid exactly if some candidate alone answers a value,
  even one that reports failures (`exists_firstOf_isValid`).
-/

import Mathlib
import Schemata.Proofs.Evaluation.Independence
import Schemata.Proofs.Validation.Groups

namespace Schemata

/-! ### Reports of alternatives -/

/-- **The first of some reports with a value**, alone. If there is none, all failures are reported;
`held` holds those of the reports before. -/
def Report.first (held : List Failure) : List Report → Report
  | [] => ⟨none, held⟩
  | report :: rest => match report.value with
    | some value => ⟨some value, []⟩
    | none => first (held ++ report.failures) rest

/-- The first of some reports is valid if one of them has a value. -/
theorem Report.isValid_first_iff {held : List Failure} {reports : List Report} :
    (first held reports).isValid ↔ ∃ report ∈ reports, report.value.isSome := by
  induction reports generalizing held with
  | nil => simp [first, isValid]
  | cons report rest ih =>
      rw [first]
      cases answers : report.value with
      | some value =>
          refine iff_of_true rfl ⟨report, List.mem_cons_self, ?_⟩
          rw [answers]
          rfl
      | none =>
          rw [ih, List.exists_mem_cons_iff, answers]
          exact (or_iff_right nofun).symm

/-- Candidates that move are tried as if each of them were alone. -/
theorem Validator.tryEach_report {value : Json} {candidates : List Validator}
    {reports : List Report}
    (alone : List.Forall₂ (fun candidate report => Report.of candidate value = some report)
      candidates reports) (moves : ∀ candidate ∈ candidates, (candidate value).Moves) :
    ∀ (held : List Event) {known : Meta}, known.path = [] →
      ∃ outcome, tryEach value held candidates known = some outcome ∧
        Report.ofOutcome outcome = Report.first (held.map Report.failureOf) reports := by
  induction alone with
  | nil =>
      intro held known _
      refine ⟨_, rfl, ?_⟩
      simp [Report.ofOutcome, Report.first]
  | @cons candidate report candidates reports here _ ih =>
      intro held known place
      obtain ⟨outcome, ends, rfl⟩ := Option.map_eq_some_iff.mp here
      obtain ⟨stays, ⟨result, events, after⟩, movedEnds, same⟩ :=
        moves candidate List.mem_cons_self [] .empty known outcome place ends
      have failures := same.failures
      rw [show Failure.under [] = id from rfl, List.map_id] at failures
      have answers : result = outcome.result := same.result
      rw [Report.first, Report.ofOutcome]
      cases passes : outcome.result with
      | some answer =>
          cases answers.trans passes
          have held := Run.hold_eq_some.mpr ⟨_, movedEnds, rfl⟩
          exact ⟨⟨some answer, [], after⟩, Run.bind_eq_some.mpr ⟨_, held, _, rfl, rfl⟩, rfl⟩
      | none =>
          cases answers.trans passes
          obtain ⟨last, lastEnds, first⟩ := ih
            (fun other member => moves other (List.mem_cons_of_mem _ member)) (held ++ events)
            (same.place.trans stays)
          have kept := Run.hold_eq_some.mpr ⟨_, movedEnds, rfl⟩
          refine ⟨last, Run.bind_eq_some.mpr ⟨_, kept, last, lastEnds, rfl⟩, ?_⟩
          rw [first, List.map_append, failures]

/-- **The report of alternatives is the first of the reports of the candidates**, if these move. -/
theorem Validator.firstOf_report {value : Json} {candidates : List Validator}
    {reports : List Report} (nonempty : candidates ≠ [])
    (alone : List.Forall₂ (fun candidate report => Report.of candidate value = some report)
      candidates reports) (moves : ∀ candidate ∈ candidates, (candidate value).Moves) :
    Report.of (firstOf candidates) value = some (Report.first [] reports) := by
  obtain ⟨outcome, ends, report⟩ :=
    tryEach_report alone moves [] (show Meta.empty.path = [] from rfl)
  cases candidates with
  | nil => exact absurd rfl nonempty
  | cons candidate others => exact Option.map_eq_some_iff.mpr ⟨outcome, ends, report⟩

/-! ### Schemas as alternatives -/

namespace Template

/-- **When alternatives of schemas are valid.** Where each of some schemas that stand for themselves
has a report, so have the alternatives of them, and it is valid exactly if one of the schemas alone
answers a value, whatever it reports. -/
theorem firstOf_isValid_iff {pipelines : List (Template × Bindings)} (nonempty : pipelines ≠ [])
    (standalone : ∀ pipeline ∈ pipelines, pipeline.1.Standalone pipeline.2) (value : Json)
    (ends : ∀ pipeline ∈ pipelines,
      (Report.of (pipeline.1.validate pipeline.2) value).isSome) :
    ∃ report,
      Report.of (Validator.firstOf (pipelines.map fun pipeline => pipeline.1.validate pipeline.2))
        value = some report ∧
      (report.isValid ↔ ∃ pipeline ∈ pipelines, ∃ alone,
        Report.of (pipeline.1.validate pipeline.2) value = some alone ∧ alone.value.isSome) := by
  let report := fun pipeline : Template × Bindings =>
    (Report.of (pipeline.1.validate pipeline.2) value).getD ⟨none, []⟩
  have here : ∀ pipeline ∈ pipelines,
      Report.of (pipeline.1.validate pipeline.2) value = some (report pipeline) := by
    intro pipeline member
    obtain ⟨alone, same⟩ := Option.isSome_iff_exists.mp (ends pipeline member)
    simp only [report, same, Option.getD_some]
  have alone : List.Forall₂ (fun candidate report => Report.of candidate value = some report)
      (pipelines.map fun pipeline => pipeline.1.validate pipeline.2) (pipelines.map report) := by
    rw [List.forall₂_map_left_iff, List.forall₂_map_right_iff, List.forall₂_same]
    exact here
  have moves : ∀ candidate ∈ pipelines.map fun pipeline => pipeline.1.validate pipeline.2,
      (candidate value).Moves := by
    intro candidate member
    obtain ⟨pipeline, listed, rfl⟩ := List.mem_map.mp member
    exact (standalone pipeline listed).moves value
  refine ⟨_, Validator.firstOf_report (by simpa using nonempty) alone moves, ?_⟩
  rw [Report.isValid_first_iff]
  constructor
  · rintro ⟨_, member, answers⟩
    obtain ⟨pipeline, listed, rfl⟩ := List.mem_map.mp member
    exact ⟨pipeline, listed, _, here pipeline listed, answers⟩
  · rintro ⟨pipeline, member, alone, same, answers⟩
    cases (here pipeline member).symm.trans same
    exact ⟨_, List.mem_map_of_mem member, answers⟩

/-- A string, or an object with a number in it. -/
theorem firstOf_isValid_string_or_object :
    ∃ string object, ofText "@s!'s'" = .ok string ∧ ofText "@o(a: @n!'x')" = .ok object ∧
      (string.Standalone .empty ∧ object.Standalone .empty) ∧
      ∃ report,
        Report.of (Validator.firstOf [string.validate .empty, object.validate .empty])
          (.object [("a", .string "t")]) = some report ∧
        (report.isValid ↔ ∃ pipeline ∈ [(string, Bindings.empty), (object, Bindings.empty)],
          ∃ alone, Report.of (pipeline.1.validate pipeline.2)
            (.object [("a", .string "t")]) = some alone ∧ alone.value.isSome) := by
  let string : Template := ⟨[.primitive .string (some (.literal "s"))], [], []⟩
  let object : Template :=
    ⟨[.object [.mk "a" [.primitive .number (some (.literal "x"))] false] none], [], []⟩
  have compilesString : ofText "@s!'s'" = .ok string := by cbv
  have compilesObject : ofText "@o(a: @n!'x')" = .ok object := by cbv
  have checks : ∀ {check : Primitive} {tag : Option ErrorTag},
      ¬ (Step.primitive check tag).ReadsField := by
    rintro check tag ⟨name, member⟩
    cases member
  have standaloneString : string.Standalone .empty :=
    ⟨⟨_, compilesString⟩, rfl, ⟨checks, trivial⟩, Bindings.empty_plain⟩
  have standaloneObject : object.Standalone .empty := by
    refine ⟨⟨_, compilesObject⟩, rfl, ⟨⟨?_, ⟨checks, trivial⟩, trivial⟩, trivial⟩,
      Bindings.empty_plain⟩
    rintro ⟨name, member⟩
    cases member
  refine ⟨string, object, compilesString, compilesObject, ⟨standaloneString, standaloneObject⟩, ?_⟩
  refine firstOf_isValid_iff
    (List.cons_ne_nil (string, Bindings.empty) [(object, Bindings.empty)]) ?_ _ ?_
  · rintro _ (_ | ⟨_, _ | ⟨_, ⟨⟩⟩⟩)
    · exact standaloneString
    · exact standaloneObject
  · rintro _ (_ | ⟨_, _ | ⟨_, ⟨⟩⟩⟩)
    · cbv
    · cbv

/-- **Alternatives can be valid though no candidate alone is.** An object answers a value for its
field that has failed, so it is taken, and the failure is dropped. -/
theorem exists_firstOf_isValid :
    ∃ template, ofText "@o(a: @n!'x')" = .ok template ∧ template.Standalone .empty ∧
      ∃ alone whole,
        Report.of (template.validate .empty) (.object [("a", .string "s")]) = some alone ∧
        Report.of (Validator.firstOf [template.validate .empty]) (.object [("a", .string "s")]) =
          some whole ∧
        alone.isValid = false ∧ whole.isValid = true := by
  let template : Template :=
    ⟨[.object [.mk "a" [.primitive .number (some (.literal "x"))] false] none], [], []⟩
  have compiles : ofText "@o(a: @n!'x')" = .ok template := by cbv
  have alone : Report.of (template.validate .empty) (.object [("a", .string "s")]) =
      some ⟨some (.object [("a", .null)]), [⟨.string "x", [.key "a"], some "number"⟩]⟩ := by cbv
  have whole :
      Report.of (Validator.firstOf [template.validate .empty]) (.object [("a", .string "s")]) =
      some ⟨some (.object [("a", .null)]), []⟩ := by cbv
  refine ⟨template, compiles, ⟨⟨_, compiles⟩, rfl, ⟨⟨?_, ⟨?_, trivial⟩, trivial⟩, trivial⟩,
    Bindings.empty_plain⟩, _, _, alone, whole, rfl, rfl⟩
  · rintro ⟨name, member⟩
    cases member
  · rintro ⟨name, member⟩
    cases member

end Template

end Schemata
