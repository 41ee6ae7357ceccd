/-
**Runs: what happens while values are validated.**

A run starts from metadata and ends with a result, the reports made on the way and the metadata as
they are then. It has no outcome if the calls of named schemas that it may make are used up.

* `Run` is a monad, and a lawful one: reports come in the order in which they are made;
* `Run.hold` keeps reports back, and `Run.deliver` makes reports that were kept back;
* `Run.within` runs inside a member of a container, and `Run.apart` with metadata of its own;
* a `Run.Congruence` relates runs that are put together alike; `Run.Extends` is one: it compares
  runs by where they have outcomes.
-/

import Schemata.Validation.Meta

namespace Schemata

/-- A reported payload, with the metadata at that point. -/
structure Event where
  payload : Json
  known : Meta

/-- How a run ends. -/
structure Outcome (α : Type) where
  result : α
  events : List Event
  known : Meta

/-- A run from the metadata at its start. -/
def Run (α : Type) := Meta → Option (Outcome α)

namespace Run

variable {α β : Type}

/-- A run that does nothing but answer. -/
protected def pure (result : α) : Run α := fun known =>
  some ⟨result, [], known⟩

/-- **One run after another.** The second starts from the metadata that the first leaves. -/
protected def bind (first : Run α) (next : α → Run β) : Run β := fun known => do
  let done ← first known
  let last ← next done.result done.known
  some { last with events := done.events ++ last.events }

/-- Change the result of a run. -/
protected def map (change : α → β) (run : Run α) : Run β := fun known => do
  let done ← run known
  some ⟨change done.result, done.events, done.known⟩

instance : Monad Run where
  pure := Run.pure
  bind := Run.bind
  map := Run.map

/-- Two runs are equal if they end alike from all metadata. -/
theorem ext {first second : Run α} (alike : ∀ known, first known = second known) : first = second :=
  funext alike

/-- Sequences of runs may be grouped in any way. -/
instance : LawfulMonad Run := LawfulMonad.mk' Run
  (fun run => ext fun known => by
    change (run known).bind _ = _
    cases run known <;> simp)
  (fun result next => ext fun known => by
    change (next result known).bind _ = _
    cases next result known <;> simp)
  (fun first next last => ext fun known => by
    change ((first known).bind _).bind _ = (first known).bind _
    cases first known with
    | none => rfl
    | some done =>
      change ((next done.result done.known).bind _).bind _ =
        ((next done.result done.known).bind _).bind _
      cases next done.result done.known with
      | none => rfl
      | some later =>
        change ((last later.result later.known).bind _) =
          (((last later.result later.known).bind _).bind _)
        cases last later.result later.known <;> simp)
  (fun _ _ => rfl) (fun _ _ => rfl) (fun _ _ => rfl)
  (fun change run => ext fun known => by
    change (run known).bind _ = (run known).bind _
    cases run known <;> simp [pure, Run.pure])
  (fun _ _ => rfl)

/-- A run without an outcome. -/
def exhausted : Run α := fun _ => none

/-- The metadata at this point. -/
def known : Run Meta := fun known =>
  some ⟨known, [], known⟩

/-- Change the metadata. -/
def update (change : Meta → Meta) : Run Unit := fun known =>
  some ⟨(), [], change known⟩

/-- Report a payload with the metadata at this point. -/
def report (payload : Json) : Run Unit := fun known =>
  some ⟨(), [⟨payload, known⟩], known⟩

/-- Make reports that were kept back. -/
def deliver (events : List Event) : Run Unit := fun known =>
  some ⟨(), events, known⟩

/-- **Keep the reports of a run back**, and answer them beside its result. -/
def hold (run : Run α) : Run (α × List Event) := fun known => do
  let done ← run known
  some ⟨(done.result, done.events), [], done.known⟩

/-- Run inside a member of a container. -/
def within (segment : Segment) (run : Run α) : Run α := fun known => do
  let done ← run (known.enter segment)
  some { done with known := done.known.leave }

/-- Run with metadata of its own, which are dropped afterwards. -/
def apart (run : Run α) : Run α := fun known => do
  let done ← run .empty
  some { done with known }

/-! ### Outcomes -/

section Outcomes

variable {first : Run α} {next : α → Run β} {known : Meta}

theorem pure_apply (result : α) : (pure result : Run α) known = some ⟨result, [], known⟩ := rfl

/-- A sequence has the outcome of its last run, with all reports. -/
theorem bind_eq_some {outcome : Outcome β} :
    (first >>= next) known = some outcome ↔
      ∃ done, first known = some done ∧ ∃ last, next done.result done.known = some last ∧
        outcome = { last with events := done.events ++ last.events } := by
  change (first known).bind (fun done => (next done.result done.known).bind _) = some outcome ↔ _
  simp only [Option.bind_eq_some_iff, Option.some.injEq, @eq_comm _ outcome]

theorem map_eq_some {change : α → β} {outcome : Outcome β} :
    (change <$> first) known = some outcome ↔
      ∃ done, first known = some done ∧
        outcome = ⟨change done.result, done.events, done.known⟩ := by
  change (first known).bind _ = some outcome ↔ _
  simp only [Option.bind_eq_some_iff, Option.some.injEq, @eq_comm _ outcome]

theorem within_eq_some {segment : Segment} {outcome : Outcome α} :
    within segment first known = some outcome ↔
      ∃ done, first (known.enter segment) = some done ∧
        outcome = { done with known := done.known.leave } := by
  change (first (known.enter segment)).bind _ = some outcome ↔ _
  simp only [Option.bind_eq_some_iff, Option.some.injEq, @eq_comm _ outcome]

end Outcomes

/-! ### Congruences -/

/-- **A relation of runs to families of runs that is kept when runs are put together.** -/
structure Congruence (ι : Type) where
  relates : {α : Type} → Run α → (ι → Run α) → Prop
  refl : ∀ {α : Type} (run : Run α), relates run fun _ => run
  bind : ∀ {α β : Type} {first : Run α} {firsts : ι → Run α} {next : α → Run β}
    {nexts : ι → α → Run β}, relates first firsts →
    (∀ result, relates (next result) fun i => nexts i result) →
    relates (first >>= next) fun i => firsts i >>= nexts i
  within : ∀ {α : Type} (segment : Segment) {run : Run α} {runs : ι → Run α}, relates run runs →
    relates (within segment run) fun i => within segment (runs i)

theorem Congruence.map {ι : Type} (congruence : Congruence ι) (change : α → β) {run : Run α}
    {runs : ι → Run α} (related : congruence.relates run runs) :
    congruence.relates (change <$> run) fun i => change <$> runs i := by
  simp only [map_eq_pure_bind]
  exact congruence.bind related fun result => congruence.refl (pure (change result))

/-- **A run that ends as another one does, wherever that one has an outcome.** -/
def Extends (run smaller : Run α) : Prop :=
  ∀ known outcome, smaller known = some outcome → run known = some outcome

theorem Extends.bind {first smaller : Run α} {next nexts : α → Run β}
    (firstExtends : first.Extends smaller)
    (nextExtends : ∀ result, (next result).Extends (nexts result)) :
    (first >>= next).Extends (smaller >>= nexts) := by
  intro known outcome ends
  obtain ⟨done, firstEnds, last, lastEnds, rfl⟩ := bind_eq_some.mp ends
  exact bind_eq_some.mpr
    ⟨done, firstExtends _ _ firstEnds, last, nextExtends _ _ _ lastEnds, rfl⟩

theorem Extends.within (segment : Segment) {run smaller : Run α}
    (runExtends : run.Extends smaller) :
    (Run.within segment run).Extends (Run.within segment smaller) := by
  intro known outcome ends
  obtain ⟨done, runEnds, rfl⟩ := within_eq_some.mp ends
  exact within_eq_some.mpr ⟨done, runExtends _ _ runEnds, rfl⟩

/-- Larger runs are made of larger parts. -/
def Extends.congruence : Congruence Unit where
  relates run smaller := run.Extends (smaller ())
  refl _ := fun _ _ ends => ends
  bind := Extends.bind
  within := fun segment _ _ related => Extends.within segment related

end Run

end Schemata
