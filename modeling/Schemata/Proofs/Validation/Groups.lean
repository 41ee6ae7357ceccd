/-
**How validators behave in groups.**

A group of validators threads one metadata through its members. What `Validator.firstOf` does is
told by two relations on members that run one after another on the same value, each from the
metadata that the one before leaves:

* `Validator.Passes`: some member answers a value, and those before it fail;
* `Validator.AllFail`: all members fail, and these are their reports in order;
* `Validator.firstOf_eq_some_iff`: alternatives pass with the first member that passes, and report
  nothing, or fail with the reports of all members;
* `Validator.groups_append`: members may be put together in groups of groups, for all three kinds of
  group.
-/

import Schemata.Validation.Validator

namespace Schemata

/-! ### Runs -/

/-- A run that reads the metadata first goes on from them. -/
theorem Run.known_bind_apply {α : Type} (next : Meta → Run α) (known : Meta) :
    (Run.known >>= next) known = next known known := by
  change (next known known).bind (fun last => some { last with events := [] ++ last.events }) = _
  cases next known known <;> rfl

/-- A run whose reports are kept back ends as it does otherwise, and reports nothing. -/
theorem Run.hold_eq_some {α : Type} {run : Run α} {known : Meta}
    {outcome : Outcome (α × List Event)} :
    hold run known = some outcome ↔
      ∃ done, run known = some done ∧ outcome = ⟨(done.result, done.events), [], done.known⟩ := by
  change (run known).bind _ = some outcome ↔ _
  simp only [Option.bind_eq_some_iff, Option.some.injEq, @eq_comm _ outcome]

namespace Validator

variable {value : Json} {known middle last : Meta} {candidate : Validator}
  {candidates others first second : List Validator} {answer : Json} {held events : List Event}

/-! ### Members in turn -/

/-- **All of some validators fail in turn**, each from the metadata that the one before leaves, with
these reports in order. -/
inductive AllFail (value : Json) : Meta → List Validator → List Event → Meta → Prop
  | nil (known : Meta) : AllFail value known [] [] known
  | cons {known middle last : Meta} {candidate : Validator} {others : List Validator}
      {events later : List Event} (fails : candidate value known = some ⟨none, events, middle⟩)
      (rest : AllFail value middle others later last) :
      AllFail value known (candidate :: others) (events ++ later) last

/-- **One of some validators answers a value**, from the metadata that those before it leave when
they fail. Those behind it do not matter. -/
inductive Passes (value : Json) : Meta → List Validator → Json → Meta → Prop
  | here {known last : Meta} {candidate : Validator} {answer : Json} {own : List Event}
      (answers : candidate value known = some ⟨some answer, own, last⟩) (others : List Validator) :
      Passes value known (candidate :: others) answer last
  | later {known middle last : Meta} {candidate : Validator} {others : List Validator}
      {answer : Json}
      {events : List Event} (fails : candidate value known = some ⟨none, events, middle⟩)
      (rest : Passes value middle others answer last) :
      Passes value known (candidate :: others) answer last

/-- The validator that answers a value stands behind validators that fail. -/
theorem passes_iff : Passes value known candidates answer last ↔
    ∃ failed candidate others dropped middle own, candidates = failed ++ candidate :: others ∧
      AllFail value known failed dropped middle ∧
      candidate value middle = some ⟨some answer, own, last⟩ := by
  constructor
  · intro passes
    induction passes with
    | here answers others => exact ⟨[], _, others, [], _, _, rfl, .nil _, answers⟩
    | later fails _ ih =>
        obtain ⟨failed, candidate, others, dropped, middle, own, rfl, fail, answers⟩ := ih
        exact ⟨_ :: failed, candidate, others, _, middle, own, rfl, .cons fails fail, answers⟩
  · rintro ⟨failed, candidate, others, dropped, middle, own, rfl, fail, answers⟩
    induction fail with
    | nil => exact .here answers others
    | cons fails _ ih => exact .later fails (ih answers)

/-- Validators fail one list after the other. -/
theorem allFail_append : AllFail value known (first ++ second) events last ↔
    ∃ own middle later, AllFail value known first own middle ∧
      AllFail value middle second later last ∧ events = own ++ later := by
  constructor
  · induction first generalizing known events with
    | nil => exact fun fail => ⟨[], known, events, .nil known, fail, rfl⟩
    | cons candidate first ih =>
        rintro (_ | ⟨fails, rest⟩)
        obtain ⟨own, middle, later, fail, further, rfl⟩ := ih rest
        exact ⟨_, middle, later, .cons fails fail, further, (List.append_assoc _ _ _).symm⟩
  · rintro ⟨own, middle, later, fail, further, rfl⟩
    induction fail with
    | nil => exact further
    | cons fails _ ih =>
        rw [List.append_assoc]
        exact .cons fails (ih further)

/-- One validator of two lists answers a value if one of the first list does, or one of the second
does behind the failures of the first. -/
theorem passes_append : Passes value known (first ++ second) answer last ↔
    Passes value known first answer last ∨
      ∃ events middle, AllFail value known first events middle ∧
        Passes value middle second answer last := by
  constructor
  · induction first generalizing known with
    | nil => exact fun passes => .inr ⟨[], known, .nil known, passes⟩
    | cons candidate first ih =>
        rintro (⟨answers, _⟩ | ⟨fails, rest⟩)
        · exact .inl (.here answers first)
        · rcases ih rest with passes | ⟨events, middle, fail, passes⟩
          · exact .inl (.later fails passes)
          · exact .inr ⟨_, middle, .cons fails fail, passes⟩
  · rintro (passes | ⟨events, middle, fail, passes⟩)
    · induction passes with
      | here answers others => exact .here answers (others ++ second)
      | later fails _ ih => exact .later fails ih
    · induction fail with
      | nil => exact passes
      | cons fails _ ih => exact .later fails (ih passes)

/-! ### Alternatives -/

/-- **One candidate is tried.** Either its answer is the answer, or its reports are kept back with
those of the candidates before it. -/
theorem tryEach_cons_eq_some {outcome : Outcome (Option Json)} :
    tryEach value held (candidate :: others) known = some outcome ↔
      (∃ answer own last, candidate value known = some ⟨some answer, own, last⟩ ∧
        outcome = ⟨some answer, [], last⟩) ∨
      ∃ events middle, candidate value known = some ⟨none, events, middle⟩ ∧
        tryEach value (held ++ events) others middle = some outcome := by
  constructor
  · intro ends
    obtain ⟨_, holds, rest, further, rfl⟩ := Run.bind_eq_some.mp ends
    obtain ⟨⟨_ | answer, events, middle⟩, here, rfl⟩ := Run.hold_eq_some.mp holds
    · exact .inr ⟨events, middle, here, further⟩
    · cases further
      exact .inl ⟨answer, events, middle, here, rfl⟩
  · rintro (⟨answer, own, last, answers, rfl⟩ | ⟨events, middle, fails, rest⟩)
    · exact Run.bind_eq_some.mpr ⟨_, Run.hold_eq_some.mpr ⟨_, answers, rfl⟩, _, rfl, rfl⟩
    · exact Run.bind_eq_some.mpr ⟨_, Run.hold_eq_some.mpr ⟨_, fails, rfl⟩, _, rest, rfl⟩

/-- Candidates answer what the first one answers that passes, and report nothing. -/
theorem tryEach_eq_passed {own : List Event} :
    tryEach value held candidates known = some ⟨some answer, own, last⟩ ↔
      own = [] ∧ Passes value known candidates answer last := by
  induction candidates generalizing held known with
  | nil => exact ⟨nofun, nofun⟩
  | cons candidate others ih =>
      rw [tryEach_cons_eq_some]
      constructor
      · rintro (⟨_, _, _, answers, same⟩ | ⟨_, _, fails, rest⟩)
        · cases same
          exact ⟨rfl, .here answers others⟩
        · obtain ⟨rfl, passes⟩ := ih.mp rest
          exact ⟨rfl, .later fails passes⟩
      · rintro ⟨rfl, ⟨answers, _⟩ | ⟨fails, passes⟩⟩
        · exact .inl ⟨answer, _, last, answers, rfl⟩
        · exact .inr ⟨_, _, fails, ih.mpr ⟨rfl, passes⟩⟩

/-- Candidates that all fail make the reports that were kept back. -/
theorem tryEach_eq_failed :
    tryEach value held candidates known = some ⟨none, events, last⟩ ↔
      ∃ own, AllFail value known candidates own last ∧ events = held ++ own := by
  induction candidates generalizing held known with
  | nil =>
      constructor
      · intro ends
        cases ends
        exact ⟨[], .nil known, rfl⟩
      · rintro ⟨_, ⟨⟩, rfl⟩
        rfl
  | cons candidate others ih =>
      rw [tryEach_cons_eq_some]
      constructor
      · rintro (⟨_, _, _, _, same⟩ | ⟨own, _, fails, rest⟩)
        · cases same
        · obtain ⟨later, fail, rfl⟩ := ih.mp rest
          exact ⟨own ++ later, .cons fails fail, List.append_assoc _ _ _⟩
      · rintro ⟨_, _ | ⟨fails, fail⟩, rfl⟩
        exact .inr ⟨_, _, fails, ih.mpr ⟨_, fail, (List.append_assoc _ _ _).symm⟩⟩

section Nonempty

variable (nonempty : candidates ≠ [])
include nonempty

theorem firstOf_eq_tryEach : firstOf candidates value = tryEach value [] candidates := by
  cases candidates with
  | nil => exact absurd rfl nonempty
  | cons candidate others => rfl

/-- Alternatives pass with the first one that passes. -/
theorem firstOf_eq_passed {own : List Event} :
    firstOf candidates value known = some ⟨some answer, own, last⟩ ↔
      own = [] ∧ Passes value known candidates answer last := by
  rw [firstOf_eq_tryEach nonempty, tryEach_eq_passed]

/-- Alternatives fail if all of them do. -/
theorem firstOf_eq_failed :
    firstOf candidates value known = some ⟨none, events, last⟩ ↔
      AllFail value known candidates events last := by
  rw [firstOf_eq_tryEach nonempty, tryEach_eq_failed]
  simp only [List.nil_append, exists_eq_right']

/-- **What alternatives do.** Let them run one after another on the value, each from the metadata
that the one before leaves. Either all before some candidate fail and it answers a value: then this
is the answer, nothing is reported, and the candidates behind it do not run, so it does not matter
which they are. Or all of them fail: then their reports are made in order, each with the metadata of
its own point. -/
theorem firstOf_eq_some_iff {outcome : Outcome (Option Json)} :
    firstOf candidates value known = some outcome ↔
      (∃ failed candidate others dropped middle answer own last,
        candidates = failed ++ candidate :: others ∧ AllFail value known failed dropped middle ∧
        candidate value middle = some ⟨some answer, own, last⟩ ∧
        outcome = ⟨some answer, [], last⟩) ∨
      ∃ events last, AllFail value known candidates events last ∧
        outcome = ⟨none, events, last⟩ := by
  rcases outcome with ⟨_ | answer, events, last⟩
  · rw [firstOf_eq_failed nonempty]
    constructor
    · exact fun fail => .inr ⟨events, last, fail, rfl⟩
    · rintro (⟨_, _, _, _, _, _, _, _, -, -, -, same⟩ | ⟨_, _, fail, same⟩)
      · cases same
      · cases same
        exact fail
  · rw [firstOf_eq_passed nonempty, passes_iff]
    constructor
    · rintro ⟨rfl, failed, candidate, others, dropped, middle, own, listed, fail, answers⟩
      exact .inl
        ⟨failed, candidate, others, dropped, middle, answer, own, last, listed, fail, answers, rfl⟩
    · rintro (⟨failed, candidate, others, dropped, middle, _, own, _, listed, fail, answers, same⟩ |
        ⟨_, _, _, same⟩)
      · cases same
        exact ⟨rfl, failed, candidate, others, dropped, middle, own, listed, fail, answers⟩
      · cases same

end Nonempty

/-- Two candidates fail, each at a member of its own, where its failure is reported. With one behind
them that passes nothing is reported, and the last one is not run, which would not end. -/
theorem firstOf_two_members :
    let failing := ["a", "b"].map fun name => within (.key name) fun _ =>
      reject (some (.string name))
    let ending := [accept, fun _ => Run.exhausted]
    (failing ≠ [] ∧ firstOf failing .null .empty =
      some ⟨none,
        [⟨.string "a", ⟨[.key "a"], [], none, []⟩⟩, ⟨.string "b", ⟨[.key "b"], [], none, []⟩⟩],
        .empty⟩) ∧
    (failing ++ ending ≠ [] ∧ firstOf (failing ++ ending) .null .empty =
      some ⟨some .null, [], .empty⟩) := by
  intro failing ending
  have fail : AllFail .null .empty failing _ .empty := .cons rfl (.cons rfl (.nil _))
  have filled : failing ≠ [] := List.cons_ne_nil _ _
  have longer : failing ++ ending ≠ [] := List.cons_ne_nil _ _
  exact ⟨⟨filled, (firstOf_eq_some_iff filled).mpr (.inr ⟨_, _, fail, rfl⟩)⟩,
    longer, (firstOf_eq_some_iff longer).mpr
      (.inl ⟨failing, accept, [fun _ => Run.exhausted], _, _, _, _, _, rfl, fail, rfl, rfl⟩)⟩

/-! ### Groups of groups -/

theorem andThen_accept (validator : Validator) : validator.andThen accept = validator := by
  funext value
  refine (bind_congr fun result => ?_).trans (bind_pure (validator value))
  cases result <;> rfl

theorem accept_andThen (validator : Validator) : accept.andThen validator = validator := by
  funext value
  rw [andThen, accept, pure_bind]

/-- Of three validators one after the other, any two may be put together. -/
theorem andThen_assoc (before between after : Validator) :
    (before.andThen between).andThen after = before.andThen (between.andThen after) := by
  funext value
  refine (bind_assoc _ _ _).trans (bind_congr fun result => ?_)
  cases result <;> rfl

/-- Validators that hand their answers on do so list after list. -/
theorem consecutive_append (first second : List Validator) :
    consecutive (first ++ second) = (consecutive first).andThen (consecutive second) := by
  induction first with
  | nil => exact (accept_andThen _).symm
  | cons validator first ih => rw [List.cons_append, consecutive, consecutive, ih, andThen_assoc]

/-- One validator fails as a list. -/
theorem allFail_singleton : AllFail value known [candidate] events last ↔
    candidate value known = some ⟨none, events, last⟩ := by
  constructor
  · rintro (_ | ⟨fails, ⟨⟩⟩)
    rwa [List.append_nil]
  · intro fails
    have alone := AllFail.cons fails (.nil last)
    rwa [List.append_nil] at alone

/-- One validator passes as a list, whatever it reports. -/
theorem passes_singleton : Passes value known [candidate] answer last ↔
    ∃ own, candidate value known = some ⟨some answer, own, last⟩ := by
  constructor
  · rintro (⟨answers, _⟩ | ⟨_, ⟨⟩⟩)
    exact ⟨_, answers⟩
  · rintro ⟨own, answers⟩
    exact .here answers []

/-- Candidates are tried list after list. -/
theorem firstOf_append (filledFirst : first ≠ []) (filledSecond : second ≠ []) :
    firstOf (first ++ second) = firstOf ([firstOf first] ++ [firstOf second]) := by
  funext value known
  refine Option.ext fun ⟨result, events, last⟩ => ?_
  have filled : first ++ second ≠ [] := List.append_ne_nil_of_left_ne_nil filledFirst second
  have paired : [firstOf first] ++ [firstOf second] ≠ [] := List.cons_ne_nil _ _
  cases result with
  | none =>
      rw [firstOf_eq_failed filled, firstOf_eq_failed paired, allFail_append, allFail_append]
      simp only [allFail_singleton, firstOf_eq_failed filledFirst, firstOf_eq_failed filledSecond]
  | some answer =>
      rw [firstOf_eq_passed filled, firstOf_eq_passed paired, passes_append, passes_append]
      simp only [passes_singleton, allFail_singleton, firstOf_eq_failed filledFirst,
        firstOf_eq_passed filledFirst, firstOf_eq_passed filledSecond, exists_eq_left]

/-- Validators run alongside one another list after list. -/
theorem alongside_append (output : Option Json) (first second : List Validator) :
    alongside value output (first ++ second) =
      alongside value output first >>= fun result => alongside value result second := by
  induction first generalizing output with
  | nil => rw [List.nil_append, alongside, pure_bind]
  | cons validator first ih =>
      exact Eq.trans (bind_congr fun result => ih _) (bind_assoc _ _ _).symm

/-- A failure stays, whatever the validators behind it answer. -/
theorem alongside_none (output : Option Json) (validators : List Validator) :
    alongside value none validators = (fun _ => none) <$> alongside value output validators := by
  induction validators generalizing output with
  | nil => rfl
  | cons validator others ih => exact Eq.trans (bind_congr fun result => ih _) (map_bind _ _ _).symm

/-- What some validators answer does not depend on what was answered before, unless that is a
failure. -/
theorem alongside_eq_parallel (output : Option Json) (nonempty : second ≠ []) :
    alongside value output second =
      parallel second value >>= fun result => pure (if output.isSome then result else none) := by
  cases output with
  | none => exact (alongside_none (some value) second).trans (map_eq_pure_bind _ _)
  | some passed =>
      cases second with
      | nil => exact absurd rfl nonempty
      | cons validator others => exact (bind_pure _).symm

/-- Validators on the same value run list after list. -/
theorem parallel_append (filled : second ≠ []) :
    parallel (first ++ second) = parallel [parallel first, parallel second] := by
  funext value
  exact (alongside_append _ _ _).trans
    (bind_congr fun result => alongside_eq_parallel result filled)

/-- **Groups may be nested.** Validators in two lists behave together as the group of the two
groups: they have the same answer, the same reports and the same metadata at the end. Alternatives
must not be empty, since no alternatives accept every value, and of validators on the same value the
last one gives the answer. -/
theorem groups_append (first second : List Validator) :
    consecutive (first ++ second) = consecutive [consecutive first, consecutive second] ∧
      (first ≠ [] → second ≠ [] →
        firstOf (first ++ second) = firstOf [firstOf first, firstOf second]) ∧
      (second ≠ [] → parallel (first ++ second) = parallel [parallel first, parallel second]) := by
  refine ⟨?_, firstOf_append, parallel_append⟩
  rw [consecutive_append, consecutive, consecutive, consecutive, andThen_accept]

/-- Each of two groups reads what is published and then publishes, and fails at both. The second
group reads what the first one has published. -/
theorem groups_append_published :
    let reads : Validator := fun _ => do reject ((← Run.known).published? "n")
    let stores (text : String) : Validator := fun _ => do
      discard (publishing "n" none (.string text))
      reject (some (.string text))
    let first := [reads, stores "a"]
    let second := [reads, stores "b"]
    (first ≠ [] ∧ second ≠ []) ∧
      consecutive (first ++ second) = consecutive [consecutive first, consecutive second] ∧
      firstOf (first ++ second) = firstOf [firstOf first, firstOf second] ∧
      parallel (first ++ second) = parallel [parallel first, parallel second] ∧
      let storing (text : String) : Meta := ⟨[], [("n", .string text)], none, []⟩
      firstOf [firstOf first, firstOf second] .null .empty = some ⟨none,
        [⟨.string "a", storing "a"⟩, ⟨.string "a", storing "a"⟩, ⟨.string "b", storing "b"⟩],
        storing "b"⟩ := by
  intro reads stores first second
  have filled : first ≠ [] ∧ second ≠ [] := ⟨List.cons_ne_nil _ _, List.cons_ne_nil _ _⟩
  obtain ⟨chained, alternatives, alongside⟩ := groups_append first second
  have grouped := alternatives filled.1 filled.2
  refine ⟨filled, chained, grouped, alongside filled.2, ?_⟩
  have fail : AllFail .null .empty (first ++ second) _ _ :=
    .cons rfl (.cons rfl (.cons rfl (.cons rfl (.nil _))))
  rw [← grouped]
  exact (firstOf_eq_failed (List.cons_ne_nil _ _)).mpr fail

end Validator

end Schemata
