/-
**What a container reports is put together from what its chains report.**

The chain of a member is a part of another schema: its handles are larger there, its runs start from
metadata that earlier members have left, and the paths of its failures start with the member. None
of this can be seen, if the chain has no field operand.

* `Run.Moves.within_eq_some`: how a run that moves with its path ends inside a member;
* `Part.validateAll_eq_some` and `Validator.validateItems_eq_some`: how all members are validated;
* `Part.containers_report`: so the reports of an object and of an array are those of the chains, put
  together.
-/

import Mathlib
import Schemata.Proofs.Compilation.Composite
import Schemata.Proofs.Evaluation.Independence

namespace Schemata

/-! ### Dictionaries -/

namespace Dictionary

variable {α : Type}

theorem insert_comm_of_lt {name other : String} (below : compare name other = .lt) (value held : α)
    (dictionary : Dictionary α) :
    insert name value (insert other held dictionary) =
      insert other held (insert name value dictionary) := by
  have above : compare other name = .gt := Std.OrientedCmp.gt_of_lt below
  induction dictionary with
  | nil => simp [insert, below, above]
  | cons entry rest ih =>
      obtain ⟨present, old⟩ := entry
      cases others : compare other present with
      | lt =>
          have first := Std.TransCmp.lt_trans below others
          simp [insert, below, above, others, first]
      | eq =>
          have first := Std.TransCmp.lt_of_lt_of_eq below others
          simp [insert, below, above, others, first]
      | gt =>
          cases first : compare name present <;> simp [insert, above, others, first, ih]

/-- Values of different names may be put in in any order. -/
theorem insert_comm {name other : String} (differ : name ≠ other) (value held : α)
    (dictionary : Dictionary α) :
    insert name value (insert other held dictionary) =
      insert other held (insert name value dictionary) := by
  cases order : compare name other with
  | lt => exact insert_comm_of_lt order value held dictionary
  | eq => exact absurd (Std.LawfulEqCmp.eq_of_compare order) differ
  | gt => exact (insert_comm_of_lt (Std.OrientedCmp.lt_of_gt order) held value dictionary).symm

/-- A value may be put in before or after those of other names. -/
theorem foldr_insert {name : String} {entries : List (String × α)}
    (absent : name ∉ entries.map Prod.fst) (value : α) (dictionary : Dictionary α) :
    entries.foldr (fun entry dictionary => insert entry.1 entry.2 dictionary)
        (insert name value dictionary) =
      insert name value
        (entries.foldr (fun entry dictionary => insert entry.1 entry.2 dictionary) dictionary) := by
  induction entries with
  | nil => rfl
  | cons entry rest ih =>
      obtain ⟨differ, later⟩ := not_or.mp (List.mem_cons.not.mp absent)
      rw [List.foldr_cons, List.foldr_cons, ih later, insert_comm (Ne.symm differ)]

theorem foldl_insert {entries : List (String × α)} (distinct : (entries.map Prod.fst).Nodup) :
    ∀ dictionary : Dictionary α,
    entries.foldl (fun dictionary entry => insert entry.1 entry.2 dictionary) dictionary =
      entries.foldr (fun entry dictionary => insert entry.1 entry.2 dictionary) dictionary := by
  induction entries with
  | nil => exact fun _ => rfl
  | cons entry rest ih =>
      intro dictionary
      obtain ⟨absent, later⟩ := List.nodup_cons.mp distinct
      rw [List.foldl_cons, ih later, foldr_insert absent, List.foldr_cons]

/-- **A dictionary of different names** may be put together from the last entry to the first. -/
theorem ofEntries_eq_foldr {entries : List (String × α)} (distinct : (entries.map Prod.fst).Nodup) :
    ofEntries entries =
      entries.foldr (fun entry dictionary => insert entry.1 entry.2 dictionary) [] :=
  foldl_insert distinct []

end Dictionary

/-! ### Members -/

/-- The failures of a report, inside a member. -/
def Report.inside (report : Report) (segment : Segment) : List Failure :=
  report.failures.map (Failure.under [segment])

/-- What a member becomes: the value of its report, or null. -/
def Report.valueOrNull (report : Report) : Json :=
  report.value.getD .null

/-- **Inside a member a run that moves ends alike**, and its failures are under the member. -/
theorem Run.Moves.within_eq_some {α : Type} {run : Run α} (moves : run.Moves) (segment : Segment)
    {known : Meta} (top : known.path = []) {outcome : Outcome α}
    (ends : run .empty = some outcome) :
    ∃ done, Run.within segment run known = some done ∧ done.result = outcome.result ∧
      done.events.map Report.failureOf =
        (outcome.events.map Report.failureOf).map (Failure.under [segment]) ∧
      done.known.path = [] := by
  have place : (known.enter segment).path = [segment] ++ Meta.empty.path := by
    rw [Meta.enter, top]
    rfl
  obtain ⟨stays, moved, movedEnds, same⟩ := moves _ _ _ _ place ends
  refine ⟨_, Run.within_eq_some.mpr ⟨moved, movedEnds, rfl⟩, same.result, same.failures, ?_⟩
  show moved.known.path.dropLast = []
  rw [same.place, stays]
  rfl

/-- Publishing what a chain answers changes neither its result nor its reports. -/
theorem Validator.publishingIf_eq_some {chain : Validator} {value : Json} {known : Meta}
    {outcome : Outcome (Option Json)} (publishes : Bool) (name : String)
    (ends : chain value known = some outcome) :
    ∃ after, chain.publishingIf publishes name value known =
      some ⟨outcome.result, outcome.events, after⟩ := by
  cases publishes with
  | false => exact ⟨outcome.known, ends⟩
  | true =>
      obtain ⟨result, events, after⟩ := outcome
      cases result with
      | none =>
          refine ⟨after, Run.bind_eq_some.mpr ⟨_, ends, _, rfl, ?_⟩⟩
          rw [List.append_nil]
      | some result =>
          refine ⟨after.publish name result, Run.bind_eq_some.mpr ⟨_, ends, _, rfl, ?_⟩⟩
          exact congrArg (Outcome.mk _ · _) (List.append_nil events).symm

/-- **How the items of an array are validated.** -/
theorem Validator.validateItems_eq_some {item : Validator} (moves : ∀ value, (item value).Moves)
    {report : Json → Report} : ∀ {items : List Json} {position : Nat} {known : Meta},
    known.path = [] → (∀ value ∈ items, Report.of item value = some (report value)) →
    ∃ outcome, item.validateItems position items known = some outcome ∧
      outcome.result = items.map (fun value => (report value).valueOrNull) ∧
      outcome.events.map Report.failureOf =
        (items.zipIdx position).flatMap (fun item => (report item.1).inside (.index item.2)) ∧
      outcome.known.path = [] := by
  intro items
  induction items with
  | nil => exact fun top _ => ⟨_, rfl, rfl, rfl, top⟩
  | cons value rest ih =>
      intro position known top reports
      obtain ⟨here, later⟩ := List.forall_mem_cons.mp reports
      obtain ⟨outcome, ends, same⟩ := Option.map_eq_some_iff.mp here
      obtain ⟨done, doneEnds, result, failures, back⟩ :=
        (moves value).within_eq_some (.index position) top ends
      obtain ⟨last, lastEnds, results, others, lastBack⟩ := @ih (position + 1) done.known back later
      refine ⟨_,
        Run.bind_eq_some.mpr ⟨done, doneEnds, _, Run.map_eq_some.mpr ⟨last, lastEnds, rfl⟩, rfl⟩,
        ?_, ?_, lastBack⟩
      · rw [List.map_cons, ← results, ← same]
        exact congrArg (fun result : Option Json => result.getD .null :: last.result) result
      · rw [List.zipIdx_cons, List.flatMap_cons, ← others, ← same]
        exact List.map_append.trans (congrArg (· ++ _) failures)

/-- A chain of one step that passes ends as the step does. -/
theorem Step.validateChain_singleton {bindings : Bindings} {call : Nat → Validator} {step : Step}
    {value : Json} {known : Meta} {outcome : Outcome (Option Json)}
    (ends : step.validate bindings call value known = some outcome) :
    validateChain bindings call [step] value known = some outcome := by
  obtain ⟨result, events, after⟩ := outcome
  refine Run.bind_eq_some.mpr ⟨_, ends, ⟨result, [], after⟩, ?_, ?_⟩
  · cases result <;> rfl
  · rw [List.append_nil]

/-! ### Parts -/

/-- **The chain of a text is evaluated alike in another schema** that holds its definitions. -/
theorem Template.validateChain_eq {text : String} {template : Template} {bindings : Bindings}
    {bodies : List (List Step)} {before : Nat} (compiles : ofText text = .ok template)
    (unsuffixed : template.suffixes = [])
    (defined : ∀ definition ∈ Step.definitionsOfAll (Step.renumberAll before template.root),
      bodies[definition.1]? = some definition.2) :
    Step.validateChain bindings (Step.invoke bodies bindings)
      (Step.renumberAll before template.root) = template.validate bindings := by
  obtain ⟨chain, of⟩ := exists_ofChain compiles unsuffixed
  have sound := ofText_sound compiles
  have holds : Step.HoldsBodies bodies before template.bodies := by
    intro handle body found
    refine defined (renumberDefinition before (handle, body)) ?_
    rw [Step.definitionsOfAll_renumberAll]
    exact List.mem_map_of_mem (of.bodies found)
  have bodiesSound := fun (handle : Nat) (body : List Step) =>
    @Coherent.body_everywhere _ template (ofText_coherent compiles) sound handle body
  rw [validate_of_plain unsuffixed]
  exact Step.validateChain_invoke holds bodiesSound sound

/-- **The chain of a part stands for itself**: it is the template of its text, without suffixes and
field operands. -/
structure Part.Standalone (part : Part) : Prop where
  compiles : Template.ofText part.text = .ok part.template
  unsuffixed : part.template.suffixes = []
  independent : Step.ChainEverywhere (fun step => ¬ step.ReadsField) part.template.root

namespace Part

variable {part : Part} {parts : List Part} {bindings : Bindings} {bodies : List (List Step)}
  {referenced : List String} {before : Nat}

theorem Standalone.moves (standalone : part.Standalone) (plain : bindings.Plain) (value : Json) :
    (part.template.validate bindings value).Moves :=
  Template.Standalone.moves
    ⟨⟨_, standalone.compiles⟩, standalone.unsuffixed, standalone.independent, plain⟩ value

/-- **How the parts of an object are validated.** -/
theorem validateAll_eq_some (plain : bindings.Plain) {members : Dictionary Json}
    {report : Part → Report} : ∀ {parts : List Part} {before : Nat} {known : Meta},
    known.path = [] → (∀ part ∈ parts, part.Standalone) →
    (∀ part ∈ parts, Report.of (part.template.validate bindings)
      ((Dictionary.find? part.name members).getD .null) = some (report part)) →
    (∀ definition ∈ Field.definitionsOfAll (fields referenced before parts),
      bodies[definition.1]? = some definition.2) →
    ∃ outcome, Field.validateAll bindings (Step.invoke bodies bindings)
        (fields referenced before parts) members known = some outcome ∧
      outcome.result = (parts.map fun part => (part.name, (report part).valueOrNull)).foldr
        (fun entry dictionary => Dictionary.insert entry.1 entry.2 dictionary) [] ∧
      outcome.events.map Report.failureOf =
        parts.flatMap (fun part => (report part).inside (.key part.name)) ∧
      outcome.known.path = [] := by
  intro parts
  induction parts with
  | nil => exact fun top _ _ _ => ⟨_, rfl, rfl, rfl, top⟩
  | cons part rest ih =>
      intro before known top standalone reports defined
      obtain ⟨standaloneHere, standaloneLater⟩ := List.forall_mem_cons.mp standalone
      obtain ⟨here, later⟩ := List.forall_mem_cons.mp reports
      obtain ⟨definedHere, definedLater⟩ := List.forall_mem_append.mp defined
      obtain ⟨outcome, ends, same⟩ := Option.map_eq_some_iff.mp here
      have chain : _ = part.template.validate bindings :=
        Template.validateChain_eq standaloneHere.compiles standaloneHere.unsuffixed definedHere
      obtain ⟨after, published⟩ :=
        Validator.publishingIf_eq_some (referenced.contains part.name) part.name ends
      have moves := Run.moves_closed.publishingIf (referenced.contains part.name) part.name
        (standaloneHere.moves plain) ((Dictionary.find? part.name members).getD .null)
      obtain ⟨done, doneEnds, result, failures, back⟩ :=
        moves.within_eq_some (.key part.name) top published
      obtain ⟨last, lastEnds, results, others, lastBack⟩ :=
        ih back standaloneLater later definedLater
      have first : Field.validate bindings (Step.invoke bodies bindings) (.mk part.name
          (Step.renumberAll before part.template.root) (referenced.contains part.name))
            ((Dictionary.find? part.name members).getD .null) known = some done := by
        simp only [Field.validate, chain]
        exact doneEnds
      refine ⟨_,
        Run.bind_eq_some.mpr ⟨done, first, _, Run.map_eq_some.mpr ⟨last, lastEnds, rfl⟩, rfl⟩,
        ?_, ?_, lastBack⟩
      · rw [List.map_cons, List.foldr_cons, ← results, ← same]
        exact congrArg (fun result : Option Json =>
          Dictionary.insert part.name (result.getD .null) last.result) result
      · rw [List.flatMap_cons, ← others, ← same]
        exact List.map_append.trans (congrArg (· ++ _) failures)

/-- What an object reports that holds some parts. -/
theorem object_report {template : Template} (standalone : ∀ part ∈ parts, part.Standalone)
    (nonempty : parts ≠ []) (distinct : (parts.map name).Nodup) (plain : bindings.Plain)
    (root : template.root = [.object (fields referenced 0 parts) none])
    (unsuffixed : template.suffixes = [])
    (defined : ∀ definition ∈ Field.definitionsOfAll (fields referenced 0 parts),
      template.bodies[definition.1]? = some definition.2)
    {members : Dictionary Json} {report : Part → Report}
    (reports : ∀ part ∈ parts, Report.of (part.template.validate bindings)
      ((Dictionary.find? part.name members).getD .null) = some (report part)) :
    Report.of (template.validate bindings) (.object members) = some
      ⟨some (.object (Dictionary.ofEntries
          (parts.map fun part => (part.name, (report part).valueOrNull)))),
        parts.flatMap fun part => (report part).inside (.key part.name)⟩ := by
  obtain ⟨outcome, ends, result, failures, -⟩ :=
    validateAll_eq_some plain (rfl : Meta.empty.path = []) standalone reports defined
  have whole : Step.validate bindings (Step.invoke template.bodies bindings)
      (.object (fields referenced 0 parts) none) (.object members) .empty =
        some ⟨some (.object outcome.result), outcome.events, outcome.known⟩ := by
    have filled : (fields referenced 0 parts).isEmpty = false := by
      cases parts with
      | nil => exact absurd rfl nonempty
      | cons => rfl
    simp only [Step.validate, filled]
    exact Run.map_eq_some.mpr ⟨outcome, ends, rfl⟩
  have named :
      ((parts.map fun part => (part.name, (report part).valueOrNull)).map Prod.fst).Nodup := by
    rw [List.map_map]
    exact distinct
  rw [Dictionary.ofEntries_eq_foldr named, ← result, ← failures]
  rw [Template.validate_of_plain unsuffixed, root]
  exact Option.map_eq_some_iff.mpr ⟨_, Step.validateChain_singleton whole, rfl⟩

/-- What an array reports that holds the chain of a part. -/
theorem Standalone.array_report {template : Template} (standalone : part.Standalone)
    (plain : bindings.Plain)
    (root : template.root = [.array (Step.renumberAll 0 part.template.root) none])
    (unsuffixed : template.suffixes = [])
    (defined : ∀ definition ∈ Step.definitionsOfAll (Step.renumberAll 0 part.template.root),
      template.bodies[definition.1]? = some definition.2)
    {items : List Json} {report : Json → Report}
    (reports : ∀ item ∈ items, Report.of (part.template.validate bindings) item =
      some (report item)) :
    Report.of (template.validate bindings) (.array items) = some
      ⟨some (.array (items.map fun item => (report item).valueOrNull)),
        items.zipIdx.flatMap fun item => (report item.1).inside (.index item.2)⟩ := by
  obtain ⟨outcome, ends, result, failures, -⟩ :=
    Validator.validateItems_eq_some (standalone.moves plain) (rfl : Meta.empty.path = []) reports
  have whole : Step.validate bindings (Step.invoke template.bodies bindings)
      (.array (Step.renumberAll 0 part.template.root) none) (.array items) .empty =
        some ⟨some (.array outcome.result), outcome.events, outcome.known⟩ := by
    simp only [Step.validate,
      Template.validateChain_eq standalone.compiles standalone.unsuffixed defined]
    exact Run.map_eq_some.mpr ⟨outcome, ends, rfl⟩
  rw [← result, ← failures, Template.validate_of_plain unsuffixed, root]
  exact Option.map_eq_some_iff.mpr ⟨_, Step.validateChain_singleton whole, rfl⟩

/-- **What a container reports is put together from what its chains report.** An object that is
written around some chains answers what they answer for its members, and an array what its chain
answers for the items. -/
theorem containers_report (nonempty : parts ≠ []) (standalone : ∀ part ∈ parts, part.Standalone)
    (distinct : (parts.map name).Nodup)
    (disjoint : (parts.map fun part => Grammar.schemaNames part.text).Pairwise List.Disjoint) :
    (∃ template, Template.ofText (Grammar.objectText (parts.map field)) = .ok template ∧
      ∀ (bindings : Bindings), bindings.Plain →
        ∀ (members : Dictionary Json) (report : Part → Report),
        (∀ part ∈ parts, Report.of (part.template.validate bindings)
          ((Dictionary.find? part.name members).getD .null) = some (report part)) →
        Report.of (template.validate bindings) (.object members) = some
          ⟨some (.object (Dictionary.ofEntries
              (parts.map fun part => (part.name, (report part).valueOrNull)))),
            parts.flatMap fun part => (report part).inside (.key part.name)⟩) ∧
    ∀ part ∈ parts, ∃ template, Template.ofText (Grammar.arrayText part.text) = .ok template ∧
      ∀ (bindings : Bindings), bindings.Plain → ∀ (items : List Json) (report : Json → Report),
        (∀ item ∈ items, Report.of (part.template.validate bindings) item = some (report item)) →
        Report.of (template.validate bindings) (.array items) = some
          ⟨some (.array (items.map fun item => (report item).valueOrNull)),
            items.zipIdx.flatMap fun item => (report item.1).inside (.index item.2)⟩ := by
  have chains := fun part member => Template.exists_ofChain
    (standalone part member).compiles (standalone part member).unsuffixed
  refine ⟨?_, fun part member => ?_⟩
  · obtain ⟨template, referenced, compiles, root, unsuffixed, defined⟩ :=
      ofText_objectText nonempty chains distinct disjoint
    exact ⟨template, compiles, fun bindings plain members report reports =>
      object_report standalone nonempty distinct plain root unsuffixed defined reports⟩
  · obtain ⟨chain, of⟩ := chains part member
    obtain ⟨template, compiles, root, unsuffixed, defined⟩ := of.ofText_arrayText
    exact ⟨template, compiles, fun bindings plain items report reports =>
      (standalone part member).array_report plain root unsuffixed defined reports⟩

/-- The failures of a tree and of a number are put under the members of an object. -/
theorem containers_report_tree_and_number :
    ∃ template, Template.ofText "object('a': #t(@o(l: @a(##t))!'o'), 'b': #u(@n!'n'))" =
      .ok template ∧ Report.of (template.validate .empty)
          (.object [("a", .object [("l", .array [.bool true])]), ("b", .string "x")]) =
        some ⟨some (.object [("a", .object [("l", .array [.null])]), ("b", .null)]),
          [⟨.string "o", [.key "a", .key "l", .index 0], some "object"⟩,
            ⟨.string "n", [.key "b"], some "number"⟩]⟩ := by
  let body : List Step := [.object [.mk "l" [.array [.call 0] none] false] (some (.literal "o"))]
  let tree : Part := ⟨"a", "#t(@o(l: @a(##t))!'o')", ⟨[.define 0 body], [body], []⟩⟩
  let check : List Step := [.primitive .number (some (.literal "n"))]
  let number : Part := ⟨"b", "#u(@n!'n')", ⟨[.define 0 check], [check], []⟩⟩
  have standalone : ∀ part ∈ [tree, number], part.Standalone := by
    refine List.forall_mem_cons.mpr
      ⟨⟨by cbv, rfl, ⟨?_, ⟨?_, ⟨⟨?_, ?_, trivial⟩, trivial⟩, trivial⟩, trivial⟩,
      trivial⟩, List.forall_mem_singleton.mpr ⟨by cbv, rfl, ⟨?_, ?_, trivial⟩, trivial⟩⟩ <;>
      rintro ⟨name, member⟩ <;> cases member
  have disjoint : ([tree, number].map fun part => Grammar.schemaNames part.text).Pairwise
      List.Disjoint := by
    have trees : Grammar.schemaNames tree.text = ["t"] := by cbv
    have numbers : Grammar.schemaNames number.text = ["u"] := by cbv
    rw [List.map_cons, List.map_cons, List.map_nil, trees, numbers]
    exact List.pairwise_pair.mpr (by simp)
  obtain ⟨⟨template, compiles, reports⟩, -⟩ :=
    containers_report (List.cons_ne_nil tree [number]) standalone (by decide) disjoint
  let report (part : Part) : Report :=
    if part.name = "a" then ⟨some (.object [("l", .array [.null])]),
      [⟨.string "o", [.key "l", .index 0], some "object"⟩]⟩
    else ⟨none, [⟨.string "n", [], some "number"⟩]⟩
  have treeEnds : tree.template.validate .empty (.object [("l", .array [.bool true])]) .empty =
      some ⟨some (.object [("l", .array [.null])]),
        [⟨.string "o", ⟨[.key "l", .index 0], [], some "object", []⟩⟩],
        ⟨[], [], some "object", []⟩⟩ :=
    Step.validateChain_eq_some_iff.mpr ⟨2, by cbv⟩
  have numberEnds : number.template.validate .empty (.string "x") .empty =
      some ⟨none, [⟨.string "n", ⟨[], [], some "number", []⟩⟩], ⟨[], [], some "number", []⟩⟩ :=
    Step.validateChain_eq_some_iff.mpr ⟨1, by cbv⟩
  have text : Grammar.objectText ([tree, number].map field) =
      "object('a': #t(@o(l: @a(##t))!'o'), 'b': #u(@n!'n'))" := by cbv
  rw [text] at compiles
  have ends := reports .empty Bindings.empty_plain
    [("a", .object [("l", .array [.bool true])]), ("b", .string "x")] report
    (List.forall_mem_cons.mpr ⟨congrArg (Option.map Report.ofOutcome) treeEnds,
      List.forall_mem_singleton.mpr (congrArg (Option.map Report.ofOutcome) numberEnds)⟩)
  exact ⟨template, compiles, ends.trans (by cbv)⟩

end Part

end Schemata
