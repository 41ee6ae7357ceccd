/-
**Chains that differ in some of their invocations.**

Two chains vary if one becomes the other where some invocations are exchanged for others and some
error tags for others. If what is exchanged compiles alike, so do the chains.

* `Invocation.Variation` says what may be exchanged, and `Param.AllVary` lifts it to lists of
  parameters;
* `Param.compileChain_scopes`: without field operands a chain compiles alike in all objects;
* `Param.AllVary.compileChain`: chains that vary become chains that are like one another, with the
  handles that the names of schemas have in each of them;
* `Param.AllVary.occurs`: what occurs in one of them occurs in the other, or in what is exchanged.
-/

import Schemata.Proofs.Compilation.Diagnosis
import Schemata.Proofs.Evaluation.Simulation

namespace Schemata

/-! ### Variations -/

/-- **What may differ** between two chains: invocations, error tags, and the order of compiled
fields. -/
structure Invocation.Variation where
  exchanges : Invocation → Invocation → Prop
  retags : Option ErrorTag → Option ErrorTag → Prop
  orders : List Field → List Field → Prop

mutual

/-- **One invocation varies from another.** Schemas are defined and referred to without other
tags. -/
inductive Invocation.Varies (variation : Invocation.Variation) : Invocation → Invocation → Prop
  | exchanged {first second : Invocation} (exchanges : variation.exchanges first second) :
      Invocation.Varies variation first second
  | kept {validator : String} {params others : List Param} {tag other : Option ErrorTag}
      (inside : Param.AllVary variation params others) (retags : variation.retags tag other)
      (schemas : validator ∈ schemaKeywords → tag = other) :
      Invocation.Varies variation (.mk validator params tag) (.mk validator others other)

/-- Only invocations vary. -/
inductive Param.Varies (variation : Invocation.Variation) : Param → Param → Prop
  | invocation {first second : Invocation} (varies : Invocation.Varies variation first second) :
      Param.Varies variation (.validator first) (.validator second)
  | plain {param : Param} (plain : param.invocation? = none) : Param.Varies variation param param

/-- Each of some parameters varies. -/
inductive Param.AllVary (variation : Invocation.Variation) : List Param → List Param → Prop
  | nil : Param.AllVary variation [] []
  | cons {param other : Param} {params others : List Param}
      (here : Param.Varies variation param other) (later : Param.AllVary variation params others) :
      Param.AllVary variation (param :: params) (other :: others)

end

section Vary

variable {variation : Invocation.Variation}

theorem Param.Varies.fieldName?_eq {param other : Param} (varies : Varies variation param other) :
    param.fieldName? = other.fieldName? := by
  cases varies <;> rfl

theorem Param.Varies.isSome_invocation? {param other : Param}
    (varies : Varies variation param other) :
    param.invocation?.isSome = other.invocation?.isSome := by
  cases varies <;> rfl

theorem Param.Varies.eq_of_plain {param other : Param} (varies : Varies variation param other)
    (plain : param.invocation? = none) : param = other := by
  cases varies with
  | invocation => cases plain
  | plain => rfl

namespace Param.AllVary

variable {params others : List Param}

theorem append {rest further : List Param} (vary : AllVary variation params others)
    (later : AllVary variation rest further) :
    AllVary variation (params ++ rest) (others ++ further) := by
  induction params generalizing others with
  | nil =>
      cases vary
      exact later
  | cons param params ih =>
      cases vary with
      | cons here more => exact .cons here (ih more)

theorem areInvocations_eq (vary : AllVary variation params others) :
    areInvocations params = areInvocations others := by
  unfold areInvocations
  induction params generalizing others with
  | nil =>
      cases vary
      rfl
  | cons param params ih =>
      cases vary with
      | cons here later => rw [List.all_cons, List.all_cons, here.isSome_invocation?, ih later]

theorem eq_nil_iff (vary : AllVary variation params others) : params = [] ↔ others = [] := by
  cases vary <;> simp

theorem fieldNames_eq (vary : AllVary variation params others) :
    fieldNames params = fieldNames others := by
  unfold fieldNames
  induction params generalizing others with
  | nil =>
      cases vary
      rfl
  | cons param params ih =>
      cases vary with
      | cons here later =>
          rw [List.filterMap_cons, List.filterMap_cons, here.fieldName?_eq, ih later]

theorem countFields_eq (vary : AllVary variation params others) : ∀ found,
    countFields found params = countFields found others := by
  induction params generalizing others with
  | nil =>
      cases vary
      exact fun _ => rfl
  | cons param params ih =>
      intro found
      cases vary with
      | cons here later =>
          have behind := ih later
          cases here with
          | invocation _ =>
              cases found with
              | nil => rfl
              | cons field more => exact behind _
          | plain plain =>
              cases param with
              | validator _ => cases plain
              | injection _ | comparison _ => rfl
              | token _ | text _ =>
                  simp only [countFields]
                  split <;> exact behind _

theorem declaredFields_eq (vary : AllVary variation params others) :
    declaredFields params = declaredFields others := by
  rw [declaredFields, declaredFields, vary.countFields_eq]

theorem schemaName_eq (vary : AllVary variation params others) (validator : String) :
    schemaName validator params = schemaName validator others := by
  cases vary with
  | nil => rfl
  | cons here _ => cases here <;> rfl

/-- Parameters without invocations do not vary. -/
theorem eq_of_plain (vary : AllVary variation params others)
    (plain : ∀ param ∈ params, param.invocation? = none) : params = others := by
  induction params generalizing others with
  | nil =>
      cases vary
      rfl
  | cons param params ih =>
      obtain ⟨first, behind⟩ := List.forall_mem_cons.mp plain
      cases vary with
      | cons here later => rw [ih later behind, here.eq_of_plain first]

theorem eq_of_plain_right (vary : AllVary variation params others)
    (plain : ∀ param ∈ others, param.invocation? = none) : params = others := by
  induction params generalizing others with
  | nil =>
      cases vary
      rfl
  | cons param params ih =>
      cases vary with
      | cons here later =>
          obtain ⟨first, behind⟩ := List.forall_mem_cons.mp plain
          cases here with
          | invocation => cases first
          | plain => rw [ih later behind]

/-- What varies from two lists is cut where they are. -/
theorem exists_of_append {rest : List Param} (vary : AllVary variation (params ++ rest) others) :
    ∃ front behind, others = front ++ behind ∧ AllVary variation params front ∧
      AllVary variation rest behind := by
  induction params generalizing others with
  | nil => exact ⟨[], others, rfl, .nil, vary⟩
  | cons param params ih =>
      cases vary with
      | cons here more =>
          obtain ⟨front, behind, rfl, first, second⟩ := ih more
          exact ⟨_ :: front, behind, rfl, .cons here first, second⟩

/-- **An invocation has one that varies from it at the same place.** -/
theorem exists_of_split {before after : List Param} {first : Invocation}
    (vary : AllVary variation (before ++ .validator first :: after) others) :
    ∃ earlier second later, others = earlier ++ Param.validator second :: later ∧
      AllVary variation before earlier ∧ Invocation.Varies variation first second := by
  obtain ⟨earlier, _, rfl, front, behind⟩ := vary.exists_of_append
  cases behind with
  | cons here _ =>
      cases here with
      | invocation varies => exact ⟨earlier, _, _, rfl, front, varies⟩
      | plain plain => cases plain

theorem exists_of_mem {first : Invocation} (vary : AllVary variation params others)
    (member : .validator first ∈ params) :
    ∃ second, .validator second ∈ others ∧ Invocation.Varies variation first second := by
  obtain ⟨before, after, rfl⟩ := List.append_of_mem member
  obtain ⟨earlier, second, later, rfl, -, varies⟩ := vary.exists_of_split
  exact ⟨second, List.mem_append_right _ List.mem_cons_self, varies⟩

/-- What is among the one is varied from something among the other. -/
theorem exists_of_mem_right {other : Param} (vary : AllVary variation params others)
    (member : other ∈ others) :
    ∃ param ∈ params, Varies variation param other := by
  induction others generalizing params with
  | nil => cases member
  | cons next others ih =>
      cases vary with
      | cons here later =>
          rcases List.mem_cons.mp member with rfl | member
          · exact ⟨_, List.mem_cons_self, here⟩
          · obtain ⟨param, listed, varies⟩ := ih later member
            exact ⟨param, List.mem_cons_of_mem _ listed, varies⟩

end Param.AllVary

mutual

/-- Every invocation varies from itself. -/
theorem Invocation.Varies.refl (retags : ∀ tag, variation.retags tag tag) :
    (invocation : Invocation) → Invocation.Varies variation invocation invocation
  | .mk _ params tag => .kept (Param.AllVary.refl retags params) (retags tag) fun _ => rfl

theorem Param.Varies.refl (retags : ∀ tag, variation.retags tag tag) :
    (param : Param) → Param.Varies variation param param
  | .validator invocation => .invocation (Invocation.Varies.refl retags invocation)
  | .token _ | .text _ | .injection _ | .comparison _ => .plain rfl

/-- All parameters vary from themselves. -/
theorem Param.AllVary.refl (retags : ∀ tag, variation.retags tag tag) :
    (params : List Param) → Param.AllVary variation params params
  | [] => .nil
  | param :: rest => .cons (Param.Varies.refl retags param) (Param.AllVary.refl retags rest)

end

end Vary

/-! ### Names of schemas -/

section Names

variable {variation : Invocation.Variation}

theorem Param.AllVary.schemaName?_eq {params others : List Param}
    (vary : AllVary variation params others) :
    schemaName? params = schemaName? others := by
  cases vary with
  | nil => rfl
  | cons here _ => cases here <;> rfl

mutual

theorem Invocation.schemaNames_perm (names : ∀ first second, variation.exchanges first second →
    first.schemaNames.Perm second.schemaNames) : (first : Invocation) → ∀ second,
      Invocation.Varies variation first second → first.schemaNames.Perm second.schemaNames
  | .mk validator params tag => by
      intro second varies
      cases varies with
      | exchanged exchanges => exact names _ _ exchanges
      | @kept _ _ others _ _ inside =>
          rw [Invocation.schemaNames, Invocation.schemaNames, inside.schemaName?_eq]
          exact (Param.schemaNames_perm names params others inside).append_left _

/-- **Chains that vary define the same schemas**, if what is exchanged does. -/
theorem Param.schemaNames_perm (names : ∀ first second, variation.exchanges first second →
    first.schemaNames.Perm second.schemaNames) : (params : List Param) → ∀ others,
      Param.AllVary variation params others →
        (Param.schemaNames params).Perm (Param.schemaNames others)
  | [] => by
      intro others vary
      cases vary
      exact .nil
  | param :: rest => by
      intro others vary
      cases vary with
      | cons here later =>
          exact (Param.schemaNamesOf_perm names param _ here).append
            (Param.schemaNames_perm names rest _ later)

theorem Param.schemaNamesOf_perm (names : ∀ first second, variation.exchanges first second →
    first.schemaNames.Perm second.schemaNames) : (param : Param) → ∀ other,
      Param.Varies variation param other → param.schemaNamesOf.Perm other.schemaNamesOf
  | .validator invocation => by
      intro other varies
      cases varies with
      | invocation varies => exact Invocation.schemaNames_perm names invocation _ varies
      | plain plain => cases plain
  | .token _ | .text _ | .injection _ | .comparison _ => by
      intro other varies
      cases varies
      exact .refl _

end

end Names

/-! ### Without field operands -/

section Closed

variable {names : List String}

theorem Param.referencedFields_append (first second : List Param) :
    referencedFields (first ++ second) = referencedFields first ++ referencedFields second := by
  induction first with
  | nil => rfl
  | cons param rest ih =>
      rw [List.cons_append, referencedFields, referencedFields, ih, List.append_assoc]

/-- A comparison with no field compiles alike in all objects. -/
theorem Step.ofComparison_scopes {params : List Param} (closed : Param.referencedFields params = [])
    (scopes others : List Scope) (validator : String) (ofLength : Bool) (tag : Option ErrorTag) :
    Step.ofComparison scopes validator ofLength params tag =
      Step.ofComparison others validator ofLength params tag := by
  match params with
  | [.comparison ⟨relation, .field name⟩] => cases closed
  | [.comparison ⟨relation, .number _⟩] | [.comparison ⟨relation, .text _⟩]
  | [.comparison ⟨relation, .injection _⟩] => rfl
  | [] | [.validator _] | [.token _] | [.text _] | [.injection _] => rfl
  | first :: _ :: _ => cases first <;> rfl

mutual

/-- **Without field operands an invocation compiles alike in all objects.** -/
theorem Invocation.compile_scopes : (invocation : Invocation) → invocation.referencedFields = [] →
    ∀ scopes others, invocation.compile names scopes = invocation.compile names others
  | .mk validator params tag => by
      intro closed scopes others
      have comparisons := Step.ofComparison_scopes closed scopes others
      have chains := Param.compileChain_scopes params closed scopes others
      have definitions := Param.compileDefinition_scopes params closed scopes others
      have fields :=
        fun declared => Param.compileFields_scopes params closed scopes others declared declared
        (Param.referencedFields params) 0 0
      rw [Invocation.compile, Invocation.compile]
      simp only [comparisons, chains, definitions, fields]

theorem Param.compileDefinition_scopes :
    (params : List Param) → Param.referencedFields params = [] →
    ∀ scopes others, Param.compileDefinition names scopes params =
      Param.compileDefinition names others params
  | [] => fun _ _ _ => rfl
  | param :: rest => by
      intro closed scopes others
      have behind := (List.append_eq_nil_iff.mp closed).2
      rw [Param.compileDefinition, Param.compileDefinition,
        Param.compileChain_scopes rest behind scopes others]

/-- **Without field operands a chain compiles alike in all objects.** -/
theorem Param.compileChain_scopes : (params : List Param) → Param.referencedFields params = [] →
    ∀ scopes others, Param.compileChain names scopes params = Param.compileChain names others params
  | [] => fun _ _ _ => rfl
  | param :: rest => by
      intro closed scopes others
      obtain ⟨here, behind⟩ := List.append_eq_nil_iff.mp closed
      rw [Param.compileChain, Param.compileChain, Param.compileOne_scopes param here scopes others,
        Param.compileChain_scopes rest behind scopes others]

theorem Param.compileOne_scopes : (param : Param) → Param.referencedIn param = [] →
    ∀ scopes others, Param.compileOne names scopes param = Param.compileOne names others param
  | .validator invocation => by
      intro closed scopes others
      rw [Param.compileOne, Param.compileOne,
        Invocation.compile_scopes invocation closed scopes others]
  | .token _ | .text _ | .injection _ | .comparison _ => fun _ _ _ => rfl

theorem Param.compileFields_scopes : (params : List Param) → Param.referencedFields params = [] →
    ∀ scopes others declared further referenced started begun,
      Param.compileFields names scopes declared referenced started params =
        Param.compileFields names others further referenced begun params
  | [] => fun _ _ _ _ _ _ _ _ => rfl
  | param :: rest => by
      intro closed scopes others declared further referenced started begun
      obtain ⟨here, behind⟩ := List.append_eq_nil_iff.mp closed
      rw [Param.compileFields, Param.compileFields]
      split
      · rw [Param.compileFields_scopes rest behind scopes others declared further referenced
          (started + 1) (begun + 1)]
      · rw [Param.compileOne_scopes param here _ (⟨further, begun - 1⟩ :: others),
          Param.compileFields_scopes rest behind scopes others declared further referenced
            started begun]

end

end Closed

/-! ### Checks with other tags -/

/-- A check with another error tag. -/
def Step.retag (tag : Option ErrorTag) : Step → Step
  | .primitive check _ => .primitive check tag
  | .equality expected bound _ => .equality expected bound tag
  | .membership bounds _ => .membership bounds tag
  | .matching text pattern _ => .matching text pattern tag
  | .comparison relation bound _ => .comparison relation bound tag
  | .lengthComparison relation bound _ => .lengthComparison relation bound tag
  | step => step

theorem Step.isCheck_retag {step : Step} (check : step.isCheck) (tag : Option ErrorTag) :
    (step.retag tag).isCheck := by
  cases step <;> first | rfl | cases check

section Checks

variable {scopes : List Scope} {validator : String} {params : List Param} {tag : Option ErrorTag}
  {step : Step}

/-- **A check compiles to the same check with every error tag.** -/
theorem Invocation.Checks.retag (checks : Invocation.Checks scopes (.mk validator params tag) step)
    (other : Option ErrorTag) : step = step.retag tag ∧
      Invocation.Checks scopes (.mk validator params other) (step.retag other) := by
  cases checks with
  | @primitive _ _ _ _ check named compiles =>
      unfold Primitive.compile at compiles
      split at compiles <;> cases compiles
      rename_i empty
      exact ⟨rfl, .primitive named (if_pos empty)⟩
  | equality equates compiles =>
      unfold Step.ofEquality at compiles
      split at compiles
      · obtain ⟨bound, reads, same⟩ := bind_eq_ok.mp compiles
        cases same
        exact ⟨rfl, .equality equates (bind_eq_ok.mpr ⟨bound, reads, rfl⟩)⟩
      · cases compiles
  | membership compiles =>
      obtain ⟨bounds, reads, same⟩ := bind_eq_ok.mp compiles
      split at same <;> cases same
      rename_i nonempty
      exact ⟨rfl, .membership (bind_eq_ok.mpr ⟨bounds, reads, if_neg nonempty⟩)⟩
  | matching compiles =>
      unfold Step.ofMatching at compiles
      split at compiles
      · split at compiles <;> cases compiles
        rename_i reads
        refine ⟨rfl, .matching ?_⟩
        rw [Step.ofMatching, reads]
        rfl
      · cases compiles
  | comparison compares compiles =>
      unfold Step.ofComparison at compiles
      split at compiles
      · rename_i relation operand
        obtain ⟨bound, reads, same⟩ := bind_eq_ok.mp compiles
        have compiled :
            Invocation.Checks scopes (.mk validator [.comparison ⟨relation, operand⟩] other)
            (if validator = "length" then .lengthComparison relation bound other
              else .comparison relation bound other) := by
          refine .comparison compares (bind_eq_ok.mpr ⟨bound, reads, ?_⟩)
          simp only [decide_eq_true_eq]
        by_cases length : validator = "length"
        · rw [if_pos length] at compiled
          rw [if_pos (decide_eq_true length)] at same
          cases same
          exact ⟨rfl, compiled⟩
        · rw [if_neg length] at compiled
          rw [if_neg (by simp [length])] at same
          cases same
          exact ⟨rfl, compiled⟩
      · cases compiles

/-- Each element of a list that succeeds does. -/
theorem exists_of_mapM_eq_ok {ε α β : Type} {make : α → Except ε β} {sources : List α} :
    ∀ {results : List β}, sources.mapM make = .ok results →
      ∀ source ∈ sources, ∃ result, make source = .ok result := by
  induction sources with
  | nil => exact fun _ _ => nofun
  | cons source rest ih =>
      intro results makes
      rw [List.mapM_cons] at makes
      obtain ⟨result, first, inner⟩ := bind_eq_ok.mp makes
      obtain ⟨others, second, -⟩ := bind_eq_ok.mp inner
      exact List.forall_mem_cons.mpr ⟨⟨result, first⟩, ih second⟩

/-- A value is no invocation. -/
theorem Bound.plain_of_ofParam {param : Param} {bound : Bound}
    (reads : Bound.ofParam validator param = .ok bound) : param.invocation? = none := by
  cases param with
  | validator _ => cases reads
  | _ => rfl

/-- The parameters of a check are no invocations. -/
theorem Invocation.Checks.plain
    (checks : Invocation.Checks scopes (.mk validator params tag) step) :
    ∀ param ∈ params, param.invocation? = none := by
  cases checks with
  | primitive _ compiles =>
      unfold Primitive.compile at compiles
      split at compiles <;> cases compiles
      rename_i empty
      rw [List.isEmpty_iff.mp empty]
      exact nofun
  | equality _ compiles =>
      unfold Step.ofEquality at compiles
      split at compiles
      · obtain ⟨bound, reads, -⟩ := bind_eq_ok.mp compiles
        exact List.forall_mem_singleton.mpr (Bound.plain_of_ofParam reads)
      · cases compiles
  | membership compiles =>
      obtain ⟨bounds, reads, -⟩ := bind_eq_ok.mp compiles
      intro param member
      cases param with
      | validator invocation =>
          have kept : .validator invocation ∈ params.filter fun param =>
              (param.token? .comma).isNone :=
            List.mem_filter.mpr ⟨member, rfl⟩
          obtain ⟨bound, reads⟩ := exists_of_mapM_eq_ok reads _ kept
          cases reads
      | _ => rfl
  | matching compiles =>
      unfold Step.ofMatching at compiles
      split at compiles
      · exact List.forall_mem_singleton.mpr rfl
      · cases compiles
  | comparison _ compiles =>
      unfold Step.ofComparison at compiles
      split at compiles
      · exact List.forall_mem_singleton.mpr rfl
      · cases compiles

end Checks

/-! ### Chains that vary compile alike -/

namespace Invocation.Variation

/-- **Which compiled steps stand for one another** in chains that vary. A handle stands for that of
the same name. -/
def likeness (variation : Variation) (names others : List String) : Step.Likeness where
  checks first second := ∃ (step : Step) (tag other : Option ErrorTag), step.isCheck ∧
    variation.retags tag other ∧ first = step.retag tag ∧ second = step.retag other
  tags := variation.retags
  handles handle other :=
    ∃ name, Param.handle names name = .ok handle ∧ Param.handle others name = .ok other
  orders := variation.orders

/-- **What is exchanged compiles alike**, among these names of schemas on both sides. -/
structure Compiles (variation : Variation) (names others : List String) : Prop where
  named : names ⊆ others
  references : ∀ {first second}, variation.exchanges first second →
    first.referencedFields = second.referencedFields
  exchanged : ∀ {first second scopes step}, variation.exchanges first second →
    first.compile names scopes = .ok step → ∃ further, second.compile others scopes = .ok further ∧
      Step.Like (variation.likeness names others) step further

end Invocation.Variation

/-- Every listed name has a handle. -/
theorem Param.exists_handle {names : List String} {name : String} (member : name ∈ names) :
    ∃ handle, Param.handle names name = .ok handle := by
  cases handled : Param.handle names name with
  | ok handle => exact ⟨handle, rfl⟩
  | error error => exact absurd member (Param.handle_eq_error handled).2

section Compiled

variable {variation : Invocation.Variation} {names others : List String}

/-- A handle stands for that of the same name. -/
theorem Invocation.Variation.Compiles.exists_handle (compiles : variation.Compiles names others)
    {name : String} {handle : Nat} (handled : Param.handle names name = .ok handle) :
    ∃ other, Param.handle others name = .ok other ∧
      (variation.likeness names others).handles handle other := by
  have member := List.mem_of_getElem? (Param.getElem?_of_handle handled)
  obtain ⟨other, found⟩ := Param.exists_handle (compiles.named member)
  exact ⟨other, found, name, handled, found⟩

mutual

theorem Invocation.referencedFields_varies (compiles : variation.Compiles names others) :
    (first : Invocation) → ∀ second, Invocation.Varies variation first second →
      first.referencedFields = second.referencedFields
  | .mk _ params _ => by
      intro second varies
      cases varies with
      | exchanged exchanges => exact compiles.references exchanges
      | kept inside _ _ => exact Param.referencedFields_varies compiles params _ inside

/-- **Parameters that vary refer to the same fields.** -/
theorem Param.referencedFields_varies (compiles : variation.Compiles names others) :
    (params : List Param) → ∀ changed, Param.AllVary variation params changed →
      Param.referencedFields params = Param.referencedFields changed
  | [] => by
      intro changed vary
      cases vary
      rfl
  | param :: rest => by
      intro changed vary
      cases vary with
      | cons here later =>
          rw [Param.referencedFields, Param.referencedFields,
            Param.referencedIn_varies compiles param _ here,
            Param.referencedFields_varies compiles rest _ later]

theorem Param.referencedIn_varies (compiles : variation.Compiles names others) :
    (param : Param) → ∀ other, Param.Varies variation param other →
      param.referencedIn = other.referencedIn
  | .validator invocation => by
      intro other varies
      cases varies with
      | invocation varies => exact Invocation.referencedFields_varies compiles invocation _ varies
      | plain plain => cases plain
  | .token _ | .text _ | .injection _ | .comparison _ => by
      intro other varies
      cases varies
      rfl

end

mutual

/-- **An invocation that varies compiles to a like step.** -/
theorem Invocation.compile_varies (compiles : variation.Compiles names others) :
    (first : Invocation) → ∀ second scopes step, Invocation.Varies variation first second →
      first.compile names scopes = .ok step →
      ∃ further, second.compile others scopes = .ok further ∧
        Step.Like (variation.likeness names others) step further
  | .mk validator params tag => by
      have chainVaries := Param.compileChain_varies compiles params
      have fieldsVary := Param.compileFields_varies compiles params
      intro second scopes step varies compiled
      cases varies with
      | exchanged exchanges => exact compiles.exchanged exchanges compiled
      | @kept _ _ changed _ other inside retags schemas =>
      cases Invocation.compiles_of_ok compiled with
      | check checks =>
          cases inside.eq_of_plain checks.plain
          obtain ⟨same, checksOther⟩ := checks.retag other
          exact ⟨_, (Invocation.Compiles.check checksOther).compile,
            .check ⟨step, tag, other, checks.spec.1, retags, same, rfl⟩⟩
      | object declares steps =>
          rw [inside.declaredFields_eq] at declares
          obtain ⟨⟨first, fields⟩, compiledOther, -, like⟩ :=
            fieldsVary _ _ _ _ _ _ inside steps
          rw [Param.referencedFields_varies compiles params _ inside] at compiledOther
          exact ⟨_, (Invocation.Compiles.object declares compiledOther).compile,
            .object like retags⟩
      | array invocations steps =>
          obtain ⟨chain, compiledOther, like⟩ := chainVaries _ _ _ inside steps
          rw [inside.areInvocations_eq] at invocations
          exact ⟨_, (Invocation.Compiles.array invocations compiledOther).compile,
            .array like retags⟩
      | @definition param rest name handle chain named handled nonempty invocations steps =>
          cases schemas (by decide)
          obtain ⟨further, compiledOther, like⟩ :=
            chainVaries _ _ _ inside ((Param.compileChain_of_named named).trans steps)
          cases inside with
          | cons here inside =>
          cases here with
          | invocation => cases named
          | plain =>
              rw [Param.compileChain_of_named named] at compiledOther
              obtain ⟨other, found, related⟩ := compiles.exists_handle handled
              rw [inside.areInvocations_eq] at invocations
              exact ⟨_,
                (Invocation.Compiles.definition named found (mt inside.eq_nil_iff.mpr nonempty)
                invocations compiledOther).compile, .named rfl rfl related⟩
      | reference named handled =>
          cases schemas (by decide)
          rw [inside.schemaName_eq] at named
          obtain ⟨other, found, related⟩ := compiles.exists_handle handled
          exact ⟨_, (Invocation.Compiles.reference named found).compile, .named rfl rfl related⟩

/-- **A chain that varies compiles to a like chain.** -/
theorem Param.compileChain_varies (compiles : variation.Compiles names others) :
    (params : List Param) → ∀ changed scopes chain, Param.AllVary variation params changed →
      Param.compileChain names scopes params = .ok chain →
      ∃ further, Param.compileChain others scopes changed = .ok further ∧
        Step.ChainLike (variation.likeness names others) chain further
  | [] => by
      intro changed scopes chain vary compiled
      cases vary
      cases compiled
      exact ⟨[], rfl, .nil⟩
  | param :: rest => by
      intro changed scopes chain vary compiled
      rw [Param.compileChain] at compiled
      obtain ⟨steps, first, inner⟩ := bind_eq_ok.mp compiled
      obtain ⟨later, second, same⟩ := bind_eq_ok.mp inner
      cases same
      cases vary with
      | cons here behind =>
          obtain ⟨one, compiledOne, like⟩ := Param.compileOne_varies compiles param _ _ _ here first
          obtain ⟨more, compiledMore, likeMore⟩ :=
            Param.compileChain_varies compiles rest _ _ _ behind second
          refine ⟨one ++ more, ?_, like.append likeMore⟩
          rw [Param.compileChain]
          exact bind_eq_ok.mpr ⟨_, compiledOne, bind_eq_ok.mpr ⟨_, compiledMore, rfl⟩⟩

theorem Param.compileOne_varies (compiles : variation.Compiles names others) :
    (param : Param) → ∀ other scopes steps, Param.Varies variation param other →
      Param.compileOne names scopes param = .ok steps →
      ∃ further, Param.compileOne others scopes other = .ok further ∧
        Step.ChainLike (variation.likeness names others) steps further
  | .validator invocation => by
      intro other scopes steps varies compiled
      rw [Param.compileOne] at compiled
      obtain ⟨step, inner, same⟩ := bind_eq_ok.mp compiled
      cases same
      cases varies with
      | plain plain => cases plain
      | invocation varies =>
          obtain ⟨further, compiledOther, like⟩ :=
            Invocation.compile_varies compiles invocation _ _ _ varies inner
          rw [Param.compileOne]
          exact ⟨[further], bind_eq_ok.mpr ⟨_, compiledOther, rfl⟩, .cons like .nil⟩
  | .token _ | .text _ | .injection _ | .comparison _ => by
      intro other scopes steps varies compiled
      cases varies
      cases compiled
      exact ⟨[], rfl, .nil⟩

/-- Fields that vary compile to like fields. -/
theorem Param.compileFields_varies (compiles : variation.Compiles names others) :
    (params : List Param) → ∀ changed scopes declared referenced started steps,
      Param.AllVary variation params changed →
      Param.compileFields names scopes declared referenced started params = .ok steps →
      ∃ further, Param.compileFields others scopes declared referenced started changed =
        .ok further ∧ Step.ChainLike (variation.likeness names others) steps.1 further.1 ∧
        Field.AllLike (variation.likeness names others) steps.2 further.2
  | [] => by
      intro changed scopes declared referenced started steps vary compiled
      cases vary
      cases compiled
      exact ⟨([], []), rfl, .nil, .nil⟩
  | param :: rest => by
      intro changed scopes declared referenced started steps vary compiled
      cases vary with
      | @cons _ other _ more here behind =>
      rw [Param.compileFields] at compiled
      rw [Param.compileFields, ← here.fieldName?_eq]
      split at compiled
      · obtain ⟨⟨later, fields⟩, inner, same⟩ := bind_eq_ok.mp compiled
        cases same
        obtain ⟨⟨laterOther, fieldsOther⟩, compiledMore, likeSteps, likeFields⟩ :=
          Param.compileFields_varies compiles rest _ _ _ _ _ _ behind inner
        exact ⟨_, bind_eq_ok.mpr ⟨_, compiledMore, rfl⟩, .nil, .cons likeSteps likeFields⟩
      · obtain ⟨one, first, inner⟩ := bind_eq_ok.mp compiled
        obtain ⟨⟨later, fields⟩, second, same⟩ := bind_eq_ok.mp inner
        cases same
        obtain ⟨oneOther, compiledOne, likeOne⟩ :=
          Param.compileOne_varies compiles param _ _ _ here first
        obtain ⟨⟨laterOther, fieldsOther⟩, compiledMore, likeSteps, likeFields⟩ :=
          Param.compileFields_varies compiles rest _ _ _ _ _ _ behind second
        exact ⟨_, bind_eq_ok.mpr ⟨_, compiledOne, bind_eq_ok.mpr ⟨_, compiledMore, rfl⟩⟩,
          likeOne.append likeSteps, likeFields⟩

end

end Compiled

/-! ### What occurs in chains that vary -/

section Occurring

variable {variation : Invocation.Variation} {chain other : List Param}

/-- An invocation occurs in something that is exchanged. -/
def Invocation.Variation.Holds (variation : Invocation.Variation)
    (invocation : Invocation) : Prop :=
  ∃ first second scopes, variation.exchanges first second ∧
    Param.Occurs [.validator first] scopes invocation

/-- **What occurs in a chain occurs in one that varies from it**, at the same place, or in what is
exchanged. -/
theorem Param.AllVary.occurs (vary : AllVary variation chain other) {scopes : List Scope}
    {invocation : Invocation} (occurs : Occurs chain scopes invocation) :
    variation.Holds invocation ∨ ∃ params tag,
      Occurs other scopes (.mk invocation.name params tag) ∧
      AllVary variation invocation.params params ∧
      (invocation.name ∈ schemaKeywords → invocation.tag = tag) := by
  have split {scopes : List Scope} {first second : Invocation}
      (varies : Invocation.Varies variation first second) (occurs : Occurs other scopes second) :
      variation.Holds first ∨ ∃ params tag, Occurs other scopes (.mk first.name params tag) ∧
        AllVary variation first.params params ∧
        (first.name ∈ schemaKeywords → first.tag = tag) := by
    cases varies with
    | exchanged exchanges => exact .inl ⟨_, _, [], exchanges, .root List.mem_cons_self⟩
    | kept inside _ schemas => exact .inr ⟨_, _, occurs, inside, schemas⟩
  induction occurs with
  | root member =>
      obtain ⟨second, there, varies⟩ := vary.exists_of_mem member
      exact split varies (.root there)
  | field _ ih =>
      rcases ih with ⟨first, second, inner, exchanges, occurs⟩ | ⟨params, tag, occurs, inside, -⟩
      · exact .inl ⟨first, second, _, exchanges, .field occurs⟩
      · have names := inside.fieldNames_eq
        obtain ⟨earlier, second, later, rfl, before, varies⟩ := inside.exists_of_split
        have place := occurs.field
        rw [← before.fieldNames_eq, ← names] at place
        exact split varies place
  | inside _ notObject member ih =>
      rcases ih with ⟨first, second, inner, exchanges, occurs⟩ | ⟨params, tag, occurs, inside, -⟩
      · exact .inl ⟨first, second, _, exchanges, .inside occurs notObject member⟩
      · obtain ⟨second, there, varies⟩ := inside.exists_of_mem member
        exact split varies (.inside occurs notObject there)

end Occurring

end Schemata
