/-
**The fields of an object may stand in any order.**

Without field operands a field takes nothing from the metadata but the path, and leaves the path as
it was. So two fields may be evaluated in both orders: their results are the same, and so are their
failures.

* `Run.Simulation.unordered` compares runs at one path, up to the order of their failures;
* `Run.Moves.matches_swap`: two runs that move with their path may be exchanged;
* `Field.validateAll_perm`: so may the fields of an object;
* `Invocation.Compiles.not_readsField`: where nothing refers to a field, no step reads one;
* `Template.ofText_permuted`: permuting the fields of an object changes reports only in the order of
  failures.
-/

import Schemata.Proofs.Evaluation.Composition
import Schemata.Proofs.Language.Writable

namespace Schemata

/-! ### Failures in some order -/

/-- **Runs are compared at one path**, up to the order of their failures. -/
def Run.Simulation.unordered : Run.Simulation where
  known first second := first.path = second.path
  reports first second := (first.map Report.failureOf).Perm (second.map Report.failureOf)
  known_refl _ := rfl
  known_trans := Eq.trans
  enter segment same := congrArg (· ++ [segment]) same
  leave same := congrArg List.dropLast same
  publish _ _ same := same
  reports_nil := .refl _
  reports_append first second := by
    rw [List.map_append, List.map_append]
    exact first.append second
  reports_trans := List.Perm.trans

/-- **Two reports differ in the order of failures only.** -/
structure Report.Rearranges (first second : Report) : Prop where
  value : first.value = second.value
  failures : first.failures.Perm second.failures

namespace Run

variable {α β γ : Type}

/-- Two outcomes that are the same but for what is known beside the path. -/
structure SamePlace (place : List Segment) (first second : Outcome α) : Prop where
  result : first.result = second.result
  failures : first.events.map Report.failureOf = second.events.map Report.failureOf
  here : first.known.path = place
  there : second.known.path = place

/-- A run that moves ends alike from all metadata at one path. -/
theorem Moves.exists_alike {run : Run α} (moves : run.Moves) {known other : Meta}
    {outcome : Outcome α} (same : known.path = other.path) (ends : run known = some outcome) :
    ∃ moved, run other = some moved ∧ SamePlace known.path outcome moved := by
  obtain ⟨stays, moved, endsOther, alike⟩ := moves [] known other outcome same.symm ends
  have failures : moved.events.map Report.failureOf = outcome.events.map Report.failureOf := by
    rw [alike.failures]
    exact List.map_id _
  exact ⟨moved, endsOther, alike.result.symm, failures.symm, stays, alike.place.trans stays⟩

/-- Runs match if one of them ends wherever the other does, and alike. -/
theorem Simulation.matches_of_ends {simulation : Simulation} {run other : Run α}
    (forth : ∀ known known' outcome, simulation.known known known' → run known = some outcome →
      ∃ moved, other known' = some moved ∧ simulation.Similar outcome moved)
    (back : ∀ known known' outcome, simulation.known known known' → other known' = some outcome →
      ∃ moved, run known = some moved) : simulation.Matches run other := by
  intro known known' same
  cases ends : run known with
  | some outcome =>
      obtain ⟨moved, endsOther, similar⟩ := forth known known' outcome same ends
      rw [endsOther]
      exact .some similar
  | none =>
      cases endsOther : other known' with
      | none => exact .none
      | some outcome =>
          obtain ⟨moved, reached⟩ := back known known' outcome same endsOther
          cases ends.symm.trans reached

/-- A run that moves matches itself. -/
theorem Moves.matches_self {run : Run α} (moves : run.Moves) :
    Simulation.unordered.Matches run run := by
  refine Simulation.matches_of_ends (fun known other outcome same ends => ?_)
    fun known other outcome same ends => ?_
  · obtain ⟨moved, endsOther, alike⟩ := moves.exists_alike same ends
    exact ⟨moved, endsOther, alike.result, .of_eq alike.failures, alike.here.trans alike.there.symm⟩
  · obtain ⟨moved, reached, -⟩ := moves.exists_alike (Eq.symm same) ends
    exact ⟨moved, reached⟩

section Swap

variable {first : Run α} {second : Run β} {next : α → β → Run γ}

/-- **Two runs that move end alike in both orders.** -/
theorem Moves.exists_swapped (firstMoves : first.Moves) (secondMoves : second.Moves)
    (nextMoves : ∀ one two, (next one two).Moves) {known other : Meta} {outcome : Outcome γ}
    (same : known.path = other.path)
    (ends : (first >>= fun one => second >>= fun two => next one two) known = some outcome) :
    ∃ moved, (second >>= fun two => first >>= fun one => next one two) other = some moved ∧
      Simulation.unordered.Similar outcome moved := by
  obtain ⟨one, firstEnds, _, inner, rfl⟩ := bind_eq_some.mp ends
  obtain ⟨two, secondEnds, last, lastEnds, rfl⟩ := bind_eq_some.mp inner
  -- both leave the path as it was, so each may start where the other one has ended
  obtain ⟨_, -, firstStays⟩ := firstMoves.exists_alike rfl firstEnds
  obtain ⟨two', secondEnds', secondAlike⟩ :=
    secondMoves.exists_alike (firstStays.here.trans same) secondEnds
  obtain ⟨one', firstEnds', firstAlike⟩ :=
    firstMoves.exists_alike (firstStays.here.symm.trans secondAlike.there.symm) firstEnds
  obtain ⟨last', lastEnds', lastAlike⟩ := (nextMoves one.result two.result).exists_alike
    (secondAlike.here.trans (firstStays.here.trans firstAlike.there.symm)) lastEnds
  rw [firstAlike.result, secondAlike.result] at lastEnds'
  refine ⟨_, bind_eq_some.mpr ⟨two', secondEnds', _,
    bind_eq_some.mpr ⟨one', firstEnds', last', lastEnds', rfl⟩, rfl⟩, lastAlike.result, ?_,
    lastAlike.here.trans lastAlike.there.symm⟩
  show (List.map Report.failureOf (one.events ++ (two.events ++ last.events))).Perm
    (List.map Report.failureOf (two'.events ++ (one'.events ++ last'.events)))
  simp only [List.map_append, firstAlike.failures, secondAlike.failures, lastAlike.failures,
    ← List.append_assoc]
  exact List.perm_append_comm.append_right _

/-- **Two runs that move may be exchanged.** -/
theorem Moves.matches_swap (firstMoves : first.Moves) (secondMoves : second.Moves)
    (nextMoves : ∀ one two, (next one two).Moves) :
    Simulation.unordered.Matches (first >>= fun one => second >>= fun two => next one two)
      (second >>= fun two => first >>= fun one => next one two) := by
  refine Simulation.matches_of_ends (fun _ _ _ => firstMoves.exists_swapped secondMoves nextMoves)
    fun _ _ _ same ends => ?_
  obtain ⟨moved, reached, -⟩ :=
    secondMoves.exists_swapped firstMoves (fun two one => nextMoves one two) (Eq.symm same) ends
  exact ⟨moved, reached⟩

end Swap

end Run

/-! ### Fields in another order -/

section Fields

variable {bindings : Bindings} {call : Nat → Validator}

/-- A field that is evaluated before others. -/
theorem Field.validateAll_cons (field : Field) (rest : List Field) (members : Dictionary Json) :
    Field.validateAll bindings call (field :: rest) members =
      (field.validate bindings call ((Dictionary.find? field.name members).getD .null) >>=
        fun result => Dictionary.insert field.name (result.getD .null) <$>
          Field.validateAll bindings call rest members) := by
  obtain ⟨name, chain, publishes⟩ := field
  rw [Field.validateAll]
  rfl

/-- Fields move if each of them does. -/
theorem Field.validateAll_moves_of_mem {fields : List Field}
    (moves : ∀ field ∈ fields, ∀ value, (field.validate bindings call value).Moves)
    (members : Dictionary Json) :
    (Field.validateAll bindings call fields members).Moves := by
  induction fields with
  | nil => exact Run.pure_moves _
  | cons field rest ih =>
      obtain ⟨here, later⟩ := List.forall_mem_cons.mp moves
      rw [Field.validateAll_cons]
      exact (here _).bind fun _ => (ih later).map

/-- **Fields of different names may be evaluated in any order**, if each of them moves. -/
theorem Field.validateAll_perm {fields others : List Field} (perm : fields.Perm others)
    (distinct : (fields.map Field.name).Nodup)
    (moves : ∀ field ∈ fields, ∀ value, (field.validate bindings call value).Moves)
    (members : Dictionary Json) :
    Run.Simulation.unordered.Matches (Field.validateAll bindings call fields members)
      (Field.validateAll bindings call others members) := by
  induction perm with
  | nil => exact Run.Simulation.matches_pure []
  | cons field _ ih =>
      obtain ⟨here, later⟩ := List.forall_mem_cons.mp moves
      rw [Field.validateAll_cons, Field.validateAll_cons]
      exact (here _).matches_self.bind fun _ => (ih distinct.of_cons later).map
  | swap second first rest =>
      obtain ⟨firstMoves, later⟩ := List.forall_mem_cons.mp moves
      obtain ⟨secondMoves, restMoves⟩ := List.forall_mem_cons.mp later
      have differ : first.name ≠ second.name := fun same =>
        (List.nodup_cons.mp distinct).1 (same ▸ List.mem_cons_self)
      have swapped (one two : Json) (run : Run (Dictionary Json)) :
          Dictionary.insert second.name two <$> Dictionary.insert first.name one <$> run =
            Dictionary.insert first.name one <$> Dictionary.insert second.name two <$> run := by
        rw [← comp_map, ← comp_map]
        exact congrArg (· <$> run) (funext (Dictionary.insert_comm differ.symm two one))
      simp only [Field.validateAll_cons, map_bind, swapped]
      exact Run.Moves.matches_swap (firstMoves _) (secondMoves _) fun _ _ =>
        (Field.validateAll_moves_of_mem restMoves members).map.map
  | trans perm _ ihFirst ihSecond =>
      exact (ihFirst distinct moves).trans (ihSecond ((perm.map Field.name).nodup_iff.mp distinct)
        fun field member => moves field (perm.symm.subset member))

end Fields

/-! ### Steps without field operands -/

/-- A value is no field. -/
theorem Bound.ne_field_of_ofParam {validator : String} {param : Param} {bound : Bound}
    (reads : Bound.ofParam validator param = .ok bound) (name : String) : bound ≠ .field name := by
  rintro rfl
  cases param with
  | token lexeme =>
      unfold Bound.ofParam at reads
      dsimp only at reads
      split at reads
      · split at reads <;> cases reads
      · split at reads
        · unfold Bound.ofConstant at reads
          cases reads
        · cases reads
  | _ => cases reads

/-- **Where an invocation refers to no field, its step reads none.** -/
theorem Invocation.Compiles.not_readsField {names : List String} {scopes : List Scope}
    {invocation : Invocation} {step : Step} (compiled : invocation.Compiles names scopes step)
    (closed : invocation.referencedFields = []) :
    ¬ step.ReadsField := by
  rintro ⟨name, member⟩
  have independent : step.dependency? ≠ some name := by
    intro depends
    have referenced := compiled.dependency_referenced depends
    rw [closed] at referenced
    cases referenced
  cases compiled with
  | object | array | definition | reference => cases member
  | check checks =>
      cases checks with
      | primitive _ compiles =>
          unfold Primitive.compile at compiles
          split at compiles <;> cases compiles
          cases member
      | equality _ compiles =>
          unfold Step.ofEquality at compiles
          split at compiles
          · obtain ⟨bound, reads, same⟩ := bind_eq_ok.mp compiles
            cases same
            exact Bound.ne_field_of_ofParam reads name (List.mem_singleton.mp member).symm
          · cases compiles
      | membership compiles =>
          obtain ⟨bounds, reads, same⟩ := bind_eq_ok.mp compiles
          split at same <;> cases same
          obtain ⟨place, found⟩ := List.getElem?_of_mem member
          obtain ⟨param, -, read⟩ := (mapM_eq_ok reads).2 place _ found
          exact Bound.ne_field_of_ofParam read name rfl
      | matching compiles =>
          unfold Step.ofMatching at compiles
          split at compiles
          · split at compiles <;> cases compiles
            cases member
          · cases compiles
      | comparison _ compiles =>
          unfold Step.ofComparison at compiles
          split at compiles
          · obtain ⟨bound, reads, same⟩ := bind_eq_ok.mp compiles
            split at same <;> cases same <;>
              · cases List.mem_singleton.mp member
                exact independent rfl
          · cases compiles

namespace Param

/-- Inside something that refers to no field nothing does. -/
theorem closed_of_mem {params : List Param} (closed : referencedFields params = [])
    {child : Invocation} (member : .validator child ∈ params) : child.referencedFields = [] := by
  have subset := referencedFields_subset_of_mem member
  rw [closed] at subset
  exact List.subset_nil.mp subset

variable {names declared referenced : List String} {scopes : List Scope} {params : List Param}

/-- **Where fields refer to no field, no step in them reads one.** -/
theorem compileFields_not_readsField (closed : referencedFields params = []) {started : Nat}
    {first : List Step} {fields : List Field}
    (compiles : compileFields names scopes declared referenced started params =
      .ok (first, fields)) :
    Field.AllEverywhere (fun step => ¬ step.ReadsField) fields :=
  (compileFields_everywhere (fun _ _ _ _ closed => closed_of_mem closed)
    (fun _ _ _ closed compiled => compiled.not_readsField closed) params
    (fun _ => closed_of_mem closed) _ _ _ _ _ _ compiles).2

/-- **Where a chain refers to no field, no step in it reads one.** -/
theorem compileChain_not_readsField (closed : referencedFields params = []) {chain : List Step}
    (compiles : compileChain names scopes params = .ok chain) :
    Step.ChainEverywhere (fun step => ¬ step.ReadsField) chain :=
  compileChain_everywhere (fun _ _ _ _ closed => closed_of_mem closed)
    (fun _ _ _ closed compiled => compiled.not_readsField closed) params
    (fun _ => closed_of_mem closed) _ _ compiles

end Param

/-! ### Objects with permuted fields -/

/-- An object. -/
def Invocation.object (params : List Param) (tag : Option ErrorTag) : Invocation :=
  .mk "object" params tag

/-- **The fields of some objects are permuted**, which have different names and read no fields. -/
def Invocation.Variation.permuting (old new : Invocation) : Invocation.Variation where
  exchanges first second := first = old ∧ second = new
  retags := Eq
  orders fields others := fields.Perm others ∧ (fields.map Field.name).Nodup ∧
    Field.AllEverywhere (fun step => ¬ step.ReadsField) fields

open Invocation.Variation (permuting)

theorem Invocation.Variation.permuting_keepsSuffixes {params others : List Param}
    {tag other : Option ErrorTag} :
    (permuting (.object params tag) (.object others other)).KeepsSuffixes := by
  rintro _ _ ⟨rfl, rfl⟩
  simp [Invocation.object, Invocation.isSuffix, Invocation.name]

section Objects

variable {params others : List Param} {tag : Option ErrorTag}
    (permutes : Param.Permutes params others)
  (closed : Param.referencedFields params = [])
include permutes closed

/-- **An object with permuted fields compiles to the permuted fields.** -/
theorem Invocation.exists_compile_permuted {names further : List String} (known : names ⊆ further)
    (fields : Param.AreFields others) {scopes : List Scope} {step : Step}
    (compiles : (object params tag).compile names scopes = .ok step) :
    ∃ changed, (object others tag).compile further scopes = .ok changed ∧
      Step.Like ((permuting (object params tag) (object others tag)).likeness names further) step
        changed := by
  rw [object, compile_object] at compiles
  obtain ⟨declared, declares, inner⟩ := bind_eq_ok.mp compiles
  obtain ⟨⟨first, compiled⟩, steps, same⟩ := bind_eq_ok.mp inner
  cases same
  -- the same fields among the other names, and then in the other order
  have nothing : Variation.Compiles
      ⟨fun _ _ => False, Eq, (permuting (object params tag) (object others tag)).orders⟩
      names further := ⟨known, nofun, nofun⟩
  obtain ⟨⟨_, between⟩, compiledBetween, -, like⟩ :=
    Param.compileFields_varies nothing params params _ _ _ _ _ (.refl (fun _ => rfl) _) steps
  have distinct := Param.nodup_of_declaredFields declares
  obtain ⟨again, declaresOther⟩ :=
    fields.exists_declaredFields (permutes.fieldNames_perm.nodup_iff.mp distinct)
  obtain ⟨permuted, compiledOther, perm⟩ :=
    permutes.exists_compileFields closed compiledBetween scopes again
  rw [closed, ← permutes.referencedFields_eq_nil closed] at compiledOther
  refine ⟨.object permuted tag, ?_, .reordered like ⟨perm, ?_, ?_⟩ rfl⟩
  · rw [object, compile_object]
    exact bind_eq_ok.mpr ⟨again, declaresOther, bind_eq_ok.mpr ⟨_, compiledOther, rfl⟩⟩
  · rw [Param.compileFields_names compiledBetween]
    exact distinct
  · exact Param.compileFields_not_readsField closed compiledBetween

omit closed in
/-- What stands in an object stands in one with the same fields. -/
theorem Param.Permutes.occurs {scopes : List Scope} {invocation : Invocation}
    (occurs : Param.Occurs [.validator (.object params tag)] scopes invocation) :
    invocation = .object params tag ∨
      ∃ scopes, Param.Occurs [.validator (.object others tag)] scopes invocation := by
  have inside {child : Invocation} (member : .validator child ∈ params) :
      ∃ scopes, Param.Occurs [.validator (.object others tag)] scopes child :=
    Param.Occurs.child (.root List.mem_cons_self) (permutes.mem member)
  induction occurs with
  | root member => exact .inl (Param.validator.inj (List.mem_singleton.mp member))
  | field outer ih =>
      obtain same | ⟨_, there⟩ := ih
      · cases same
        exact .inr (inside (List.mem_append_right _ List.mem_cons_self))
      · exact .inr ⟨_, there.field⟩
  | inside outer notObject member ih =>
      obtain same | ⟨_, there⟩ := ih
      · cases same
        exact absurd rfl notObject
      · exact .inr ⟨_, .inside there notObject member⟩

/-- **Chains with a permuted object are counterparts.** -/
theorem Param.counterparts_of_permutes {forest changed chain other : List Param}
    {suffixes : List Suffix}
    (replaces : Param.Replaces (.object params tag) (.object others tag) forest changed)
    (wholeOther : changed = other ++ suffixes.map Suffix.node) (formedOther : Param.Formed other)
    (vary : AllVary (permuting (.object params tag) (.object others tag)) chain other) :
    Counterparts (permuting (.object params tag) (.object others tag)) chain other := by
  obtain ⟨_, there⟩ := replaces.exists_occurs_new fun _ member => ⟨[], .root member⟩
  rw [wholeOther] at there
  replace there := there.of_suffixed
    (@Invocation.Variation.permuting_keepsSuffixes params others tag tag _ _ ⟨rfl, rfl⟩).2
  have names :
      ∀ first second, (permuting (.object params tag) (.object others tag)).exchanges first second →
      first.schemaNames.Perm second.schemaNames := by
    rintro _ _ ⟨rfl, rfl⟩
    exact permutes.schemaNames_perm
  have perm := schemaNames_perm names chain other vary
  refine ⟨vary, fun _ => rfl, ⟨perm.subset, ?_, ?_⟩, perm, ?_⟩
  · rintro _ _ ⟨rfl, rfl⟩
    exact closed.trans (permutes.referencedFields_eq_nil closed).symm
  · rintro _ _ scopes step ⟨rfl, rfl⟩ compiles
    have fields := (formedOther.occurring there).shapes.1 rfl
    exact Invocation.exists_compile_permuted permutes closed perm.subset fields compiles
  · rintro _ _ ⟨_, _, _, ⟨rfl, rfl⟩, inside⟩
    obtain same | ⟨_, inOther⟩ := permutes.occurs inside
    · simp [Invocation.object] at same
    · exact ⟨inside.referencedFields_eq_nil closed, inOther.trans there⟩

omit closed in
/-- **A forest with a permuted object is that of a text**, if the forest is. -/
theorem Param.Permutes.exists_text {text : String} {forest changed : List Param}
    (parses : Grammar.parse text = .ok forest)
    (replaces : Param.Replaces (.object params tag) (.object others tag)
      (Param.unplaced forest) changed) :
    ∃ other further, Grammar.parse other = .ok further ∧ Param.unplaced further = changed := by
  have vary : Param.AllVary (permuting (.object params tag) (.object others tag))
      (Param.unplaced forest) changed :=
    replaces.allVary (fun _ => rfl) ⟨rfl, rfl⟩
  have keeps : (permuting (.object params tag) (.object others tag)).KeepsWritable := by
    refine ⟨?_, fun _ _ => id⟩
    rintro _ _ ⟨rfl, rfl⟩ writable
    obtain ⟨head, tagged⟩ := Invocation.writable_iff.mp writable
    have fields := permutes.writableFields (Invocation.writableHead_object_iff.mp head)
    exact Invocation.writable_iff.mpr ⟨Invocation.writableHead_object_iff.mpr fields, tagged⟩
  exact (vary.writable Invocation.Variation.permuting_keepsSuffixes keeps
    (Param.writableForest_of_parse parses)).exists_text

end Objects

/-! ### Templates with permuted objects -/

/-- Where a text refers to no field, its template reads none. -/
theorem Template.not_readsField_of_parse {text : String} {forest : List Param} {template : Template}
    (parses : Grammar.parse text = .ok forest) (compiles : ofText text = .ok template)
    (closed : Param.referencedFields forest = []) :
    Step.ChainEverywhere (fun step => ¬ step.ReadsField) template.root ∧
      ∀ (handle : Nat) (body : List Step), template.bodies[handle]? = some body →
        Step.ChainEverywhere (fun step => ¬ step.ReadsField) body := by
  obtain ⟨chain, suffixes, rfl, of⟩ := exists_ofSuffixed parses compiles
  rw [Param.referencedFields_append] at closed
  have root := Param.compileChain_not_readsField (List.append_eq_nil_iff.mp closed).1 of.root
  exact ⟨root, fun _ _ => (ofText_coherent compiles).body_everywhere root⟩

section Holds

variable {old new : Invocation} {names others : List String} {bindings : Bindings}

/-- A field that reads no fields moves. -/
theorem Field.validate_moves (plain : bindings.Plain) {call : Nat → Validator}
    (moves : ∀ handle value, (call handle value).Moves) {field : Field}
    (independent : Step.ChainEverywhere (fun step => ¬ step.ReadsField) field.chain)
    (value : Json) :
    (field.validate bindings call value).Moves := by
  obtain ⟨name, chain, publishes⟩ := field
  exact (Run.moves_closed.publishingIf publishes name
    (Step.validateChain_moves plain moves chain independent) value).within

/-- **Like steps match up to the order of failures**, if they read no fields and the handles
move. -/
theorem Step.holds_permuting (plain : bindings.Plain) {call further : Nat → Validator}
    (moves : ∀ handle value, (further handle value).Moves)
    (handlesMatch : ∀ handle other,
      ((permuting old new).likeness names others).handles handle other → ∀ value,
      Run.Simulation.unordered.Matches (call handle value) (further other value)) :
    (((permuting old new).likeness names others).among fun step => ¬ step.ReadsField).Holds
      Run.Simulation.unordered bindings bindings call further := by
  refine ⟨?_, ?_, fun {handle other} => handlesMatch handle other, ?_⟩
  · rintro _ _ ⟨independent, step, tag, _, check, rfl, rfl, rfl⟩ value
    have retagged := Step.isCheck_retag check tag
    rw [Step.validate_of_isCheck retagged bindings call further]
    exact (Step.check_moves plain independent retagged value).matches_self
  · rintro tag _ rfl name params
    exact (plain.fail_moves tag name params).matches_self
  · rintro fields changed ⟨perm, distinct, independent⟩
    refine ⟨perm.isEmpty_eq, Field.validateAll_perm perm distinct fun field member => ?_⟩
    exact Field.validate_moves plain moves (Field.everywhere_of_mem independent member)

end Holds

/-- **The fields of an object may be permuted**, in a schema without field operands and without an
error suffix. The permuted schema has a text, and each of its texts compiles to a template whose
reports, under plain bindings, have the same value and the same failures in some order. -/
theorem Template.ofText_permuted {text : String} {forest changed params others : List Param}
    {tag : Option ErrorTag} {template : Template} (parses : Grammar.parse text = .ok forest)
    (compiles : ofText text = .ok template) (apart : template.collectsErrors = false)
    (closed : Param.referencedFields forest = []) (permutes : Param.Permutes params others)
    (replaces : Param.Replaces (.object params tag) (.object others tag)
      (Param.unplaced forest) changed) :
    (∃ other further, Grammar.parse other = .ok further ∧ Param.unplaced further = changed) ∧
      ∀ other further, Grammar.parse other = .ok further → Param.unplaced further = changed →
        ∃ permuted, ofText other = .ok permuted ∧ ∀ bindings : Bindings, bindings.Plain → ∀ value,
          Option.Rel Report.Rearranges (Report.of (template.validate bindings) value)
            (Report.of (permuted.validate bindings) value) := by
  refine ⟨permutes.exists_text parses replaces, fun other further parsesOther same => ?_⟩
  subst same
  -- neither schema refers to a field
  have closedForest : Param.referencedFields (Param.unplaced forest) = [] :=
    (Param.referencedFields_relocateAll _ forest).trans closed
  have closedObject : Param.referencedFields params = [] := by
    obtain ⟨_, there⟩ := replaces.exists_occurs_old fun _ member => ⟨[], .root member⟩
    exact there.closed closedForest
  have closedOther : Param.referencedFields further = [] := by
    have same : (Invocation.object params tag).referencedFields =
        (Invocation.object others tag).referencedFields :=
      closedObject.trans (permutes.referencedFields_eq_nil closedObject).symm
    have unchanged := replaces.referencedFields_eq same
    rw [closedForest, Param.referencedFields_relocateAll] at unchanged
    exact unchanged.symm
  obtain ⟨permuted, compilesOther, suffixes, -, _, _, alike⟩ :=
    exists_alike parses parsesOther compiles
    Invocation.Variation.permuting_keepsSuffixes (replaces.allVary (fun _ => rfl) ⟨rfl, rfl⟩)
    fun chain other suffixes _ wholeOther _ formedOther vary =>
      Param.counterparts_of_permutes permutes closedObject replaces wholeOther formedOther vary
  obtain ⟨root, bodies⟩ := not_readsField_of_parse parses compiles closed
  obtain ⟨-, bodiesOther⟩ := not_readsField_of_parse parsesOther compilesOther closedOther
  refine ⟨permuted, compilesOther, fun bindings plain value => ?_⟩
  have templatesMatch := @Alike.validate_matches _ _ _ _ _ _
    (fun call => ∀ handle value, (call handle value).Moves) (alike.among root bodies) suffixes apart
    (Step.invokeWithin_moves plain bodiesOther) (fun _ _ => Step.holds_permuting plain) value
  have runs := templatesMatch .empty .empty rfl
  unfold Report.of
  generalize template.validate bindings value .empty = run,
    permuted.validate bindings value .empty = moved at runs
  cases runs with
  | none => exact .none
  | some similar => exact .some ⟨similar.result, similar.reports⟩

/-- A recursive schema that is used before it is defined, and the other way round, with errors in
both fields. -/
theorem Template.ofText_permuted_nodes : ∃ template permuted,
    ofText "@o(a: ##t, b: #t(@a(##t)!'x'))" = .ok template ∧
      ofText "@o(b: #t(@a(##t)!'x'), a: ##t)" = .ok permuted ∧
      ∀ value, Option.Rel Report.Rearranges (Report.of (template.validate .empty) value)
        (Report.of (permuted.validate .empty) value) := by
  let word (name : String) : Lexeme := .ofKind .identifier name 0
  let comma : Param := .token (.ofKind .comma "," 0)
  let reference : Param := .validator (.mk "reference" [.token (word "t")] none)
  let array : Param := .validator (.mk "array" [reference] (some (.literal "x")))
  let definition : Param := .validator (.mk "define" [.token (word "t"), array] none)
  let first : Param × List Param := (.token (word "a"), [reference])
  let second : Param × List Param := (.token (word "b"), [definition])
  let both (first second : Param × List Param) : List Param :=
    first.1 :: (first.2 ++ comma :: (second.1 :: second.2))
  have forests : (Grammar.parse "@o(a: ##t, b: #t(@a(##t)!'x'))").map Param.unplaced =
      .ok [.validator (.object (both first second) none)] := by cbv
  have compiles : ofText "@o(a: ##t, b: #t(@a(##t)!'x'))" = .ok
      ⟨[.object [.mk "a" [.call 0] false,
        .mk "b" [.define 0 [.array [.call 0] (some (.literal "x"))]] false] none],
        [[.array [.call 0] (some (.literal "x"))]], []⟩ :=
    (ofText_of_unplaced forests).trans (by cbv)
  have forestsOther : (Grammar.parse "@o(b: #t(@a(##t)!'x'), a: ##t)").map Param.unplaced =
      .ok [.validator (.object (both second first) none)] := by cbv
  obtain ⟨forest, parses, whole⟩ := LexicalUnit.map_eq_ok.mp forests
  obtain ⟨further, parsesOther, wholeOther⟩ := LexicalUnit.map_eq_ok.mp forestsOther
  have closed : Param.referencedFields forest = [] := by
    rw [← Param.referencedFields_relocateAll fun _ => 0]
    exact (congrArg Param.referencedFields whole).trans rfl
  have isField : Param.IsField first ∧ Param.IsField second :=
    ⟨⟨rfl, List.cons_ne_nil _ _, rfl⟩, rfl, List.cons_ne_nil _ _, rfl⟩
  have permutes : Param.Permutes (both first second) (both second first) :=
    ⟨[first, second], [second, first], .more isField.1 (.last isField.2),
      .more isField.2 (.last isField.1), .swap second first []⟩
  have replaces :
      Param.Replaces (.object (both first second) none) (.object (both second first) none)
      (Param.unplaced forest) [.validator (.object (both second first) none)] := by
    rw [whole]
    exact .here [] []
  obtain ⟨permuted, compilesOther, reports⟩ :=
    (ofText_permuted parses compiles rfl closed permutes replaces).2 _ further
      parsesOther wholeOther
  exact ⟨_, permuted, compiles, compilesOther, reports .empty Bindings.empty_plain⟩

end Schemata
