/-
**The fields of an object, one by one.**

The parameters of an object list its fields. Without field operands a field compiles by itself,
wherever it stands in the list, so the fields of an object may be compiled in any order.

* `Param.Lists` gives that parameters list some fields, with commas between them;
* `Param.Lists.compileFields_eq_ok_iff`: without field operands each field is compiled by itself;
* `Param.Lists.schemaNames_eq` and its companions: what parameters say is said by their fields;
* `Param.Permutes`: the same fields in another order, with the same schemas and names.
-/

import Schemata.Proofs.Compilation.Variation

namespace Schemata

namespace Param

/-! ### Listed fields -/

/-- **A field**: its name and its chain. -/
structure IsField (field : Param × List Param) : Prop where
  named : field.1.fieldName?.isSome
  chain : IsChain field.2

/-- **Parameters list some fields**, with commas between them, and perhaps one behind the last. -/
inductive Lists : List (Param × List Param) → List Param → Prop
  | empty : Lists [] []
  | last {field : Param × List Param} (isField : IsField field) : Lists [field] (field.1 :: field.2)
  | more {field : Param × List Param} {fields : List (Param × List Param)} {params : List Param}
      (isField : IsField field) (later : Lists fields params) :
      Lists (field :: fields) (field.1 :: (field.2 ++ .token (.ofKind .comma "," 0) :: params))

/-- **Two objects have the same fields**, in some order each. -/
def Permutes (params others : List Param) : Prop :=
  ∃ fields permuted, Lists fields params ∧ Lists permuted others ∧ fields.Perm permuted

/-- The name of a field. -/
def nameOf (field : Param × List Param) : String :=
  field.1.fieldName?.getD ""

namespace IsField

variable {field : Param × List Param} (isField : IsField field)
include isField

theorem fieldName?_eq : field.1.fieldName? = some (nameOf field) := by
  obtain ⟨name, named⟩ := Option.isSome_iff_exists.mp isField.named
  rw [nameOf, named]
  rfl

/-- The name of a field is no invocation. -/
theorem plain : field.1.invocation? = none := by
  have named := isField.named
  cases name : field.1 with
  | validator _ =>
      rw [name] at named
      cases named
  | _ => rfl

end IsField

/-- What stands in an object is a comma, or stands in one of the fields. -/
theorem Lists.exists_of_mem {fields : List (Param × List Param)} {params : List Param}
    (lists : Lists fields params) {param : Param} (member : param ∈ params) :
    param = .token (.ofKind .comma "," 0) ∨ ∃ field ∈ fields, param = field.1 ∨
      param ∈ field.2 := by
  induction lists with
  | empty => cases member
  | last => exact .inr ⟨_, List.mem_cons_self, List.mem_cons.mp member⟩
  | more _ _ ih =>
      rcases List.mem_cons.mp member with same | member
      · exact .inr ⟨_, List.mem_cons_self, .inl same⟩
      rcases List.mem_append.mp member with inside | member
      · exact .inr ⟨_, List.mem_cons_self, .inr inside⟩
      rcases List.mem_cons.mp member with same | later
      · exact .inl same
      obtain comma | ⟨field, listed, inside⟩ := ih later
      · exact .inl comma
      · exact .inr ⟨field, List.mem_cons_of_mem _ listed, inside⟩

/-- The fields of an object stand in it. -/
theorem Lists.mem_of_mem {fields : List (Param × List Param)} {params : List Param}
    (lists : Lists fields params) {field : Param × List Param} (member : field ∈ fields) :
    IsField field ∧ field.1 :: field.2 ⊆ params := by
  induction lists with
  | empty => cases member
  | last isField =>
      cases List.mem_singleton.mp member
      exact ⟨isField, List.Subset.refl _⟩
  | more isField _ ih =>
      rcases List.mem_cons.mp member with rfl | later
      · exact ⟨isField, List.cons_subset_cons _ (List.subset_append_left _ _)⟩
      · obtain ⟨isField, inside⟩ := ih later
        refine ⟨isField,
          List.Subset.trans inside (List.Subset.trans ?_ (List.subset_cons_self _ _))⟩
        exact List.Subset.trans (List.subset_cons_self _ _) (List.subset_append_right _ _)

/-- Objects with the same fields have the same invocations. -/
theorem Permutes.mem {params others : List Param} (permutes : Permutes params others)
    {invocation : Invocation} (member : .validator invocation ∈ params) :
    .validator invocation ∈ others := by
  obtain ⟨fields, permuted, lists, listsOther, perm⟩ := permutes
  obtain comma | ⟨field, listed, inside⟩ := lists.exists_of_mem member
  · cases comma
  · exact (listsOther.mem_of_mem (perm.subset listed)).2 (List.mem_cons.mpr inside)

/-! ### What fields say -/

/-- **What parameters say is said by their fields**, if it is said of each parameter and of no
comma. -/
theorem Lists.flatMap_eq {α : Type} (gives : Param → List α)
    (silent : gives (.token (.ofKind .comma "," 0)) = []) {fields : List (Param × List Param)}
    {params : List Param} (lists : Lists fields params) :
    params.flatMap gives = fields.flatMap fun field => (field.1 :: field.2).flatMap gives := by
  induction lists with
  | empty => rfl
  | last => simp
  | more _ _ ih => simp [silent, ih]

theorem referencedFields_eq_flatMap (params : List Param) :
    referencedFields params = params.flatMap referencedIn := by
  induction params with
  | nil => rfl
  | cons param rest ih => rw [referencedFields, List.flatMap_cons, ih]

theorem schemaNames_eq_flatMap (params : List Param) :
    schemaNames params = params.flatMap schemaNamesOf := by
  induction params with
  | nil => rfl
  | cons param rest ih => rw [schemaNames, List.flatMap_cons, ih]

theorem fieldNames_eq_flatMap (params : List Param) :
    fieldNames params = params.flatMap fun param => param.fieldName?.toList := by
  rw [fieldNames, List.filterMap_eq_flatMap_toList]

section Permuted

variable {params others : List Param} (permutes : Permutes params others)
include permutes

/-- **The same fields say the same**, in some order. -/
theorem Permutes.flatMap_perm {α : Type} (gives : Param → List α)
    (silent : gives (.token (.ofKind .comma "," 0)) = []) :
    (params.flatMap gives).Perm (others.flatMap gives) := by
  obtain ⟨fields, permuted, lists, listsOther, perm⟩ := permutes
  rw [lists.flatMap_eq gives silent, listsOther.flatMap_eq gives silent]
  exact perm.flatMap_right _

theorem Permutes.referencedFields_perm :
    (referencedFields params).Perm (referencedFields others) := by
  rw [referencedFields_eq_flatMap, referencedFields_eq_flatMap]
  exact permutes.flatMap_perm referencedIn rfl

theorem Permutes.referencedFields_eq_nil (closed : referencedFields params = []) :
    referencedFields others = [] := by
  have perm := permutes.referencedFields_perm
  rw [closed] at perm
  exact perm.nil_eq.symm

theorem Permutes.schemaNames_perm : (schemaNames params).Perm (schemaNames others) := by
  rw [schemaNames_eq_flatMap, schemaNames_eq_flatMap]
  exact permutes.flatMap_perm schemaNamesOf rfl

theorem Permutes.fieldNames_perm : (fieldNames params).Perm (fieldNames others) := by
  rw [fieldNames_eq_flatMap, fieldNames_eq_flatMap]
  exact permutes.flatMap_perm _ rfl

end Permuted

/-! ### Fields that are compiled by themselves -/

section Compiled

variable {names declared referenced : List String} {scopes : List Scope}

/-- **A field by itself**, outside of all objects. -/
def compileField (names referenced : List String) (field : Param × List Param) :
    Except CompileError Field := do
  let steps ← compileChain names [] field.2
  .ok (.mk (nameOf field) steps (referenced.contains (nameOf field)))

/-- The chain of a field and what stands behind it. -/
theorem compileFields_append_eq_ok {chain rest : List Param}
    (invocations : areInvocations chain = true) {started : Nat} {fields : List Field} :
    ∀ {steps : List Step},
    compileFields names scopes declared referenced started (chain ++ rest) = .ok (steps, fields) ↔
      ∃ own first, compileChain names (⟨declared, started - 1⟩ :: scopes) chain = .ok own ∧
        compileFields names scopes declared referenced started rest = .ok (first, fields) ∧
        steps = own ++ first := by
  induction chain with
  | nil =>
      intro steps
      refine ⟨fun compiled => ⟨[], steps, rfl, compiled, rfl⟩, ?_⟩
      rintro ⟨_, _, empty, compiled, rfl⟩
      cases empty
      exact compiled
  | cons param chain ih =>
      intro steps
      obtain ⟨invocation, rfl⟩ := exists_invocation invocations List.mem_cons_self
      have unnamed : (Param.validator invocation).fieldName? = none := rfl
      rw [List.cons_append, compileFields, unnamed, compileChain]
      constructor
      · intro compiled
        obtain ⟨one, first, inner⟩ := bind_eq_ok.mp compiled
        obtain ⟨⟨more, others⟩, later, same⟩ := bind_eq_ok.mp inner
        cases same
        obtain ⟨own, behind, chainCompiles, restCompiles, rfl⟩ := (ih invocations).mp later
        exact ⟨one ++ own, behind,
          bind_eq_ok.mpr ⟨one, first, bind_eq_ok.mpr ⟨own, chainCompiles, rfl⟩⟩,
          restCompiles, (List.append_assoc _ _ _).symm⟩
      · rintro ⟨_, behind, compiled, restCompiles, rfl⟩
        obtain ⟨one, first, inner⟩ := bind_eq_ok.mp compiled
        obtain ⟨own, chainCompiles, same⟩ := bind_eq_ok.mp inner
        cases same
        rw [List.append_assoc]
        exact bind_eq_ok.mpr ⟨one, first, bind_eq_ok.mpr ⟨(own ++ behind, fields),
          (ih invocations).mpr ⟨own, behind, chainCompiles, restCompiles, rfl⟩, rfl⟩⟩

/-- A list succeeds with the result of its first element before those of the others. -/
theorem mapM_cons_eq_ok {ε α β : Type} {make : α → Except ε β} {source : α} {rest : List α}
    {results : List β} : (source :: rest).mapM make = .ok results ↔
      ∃ one others, make source = .ok one ∧ rest.mapM make = .ok others ∧
        results = one :: others := by
  rw [List.mapM_cons]
  constructor
  · intro makes
    obtain ⟨one, first, inner⟩ := bind_eq_ok.mp makes
    obtain ⟨others, second, same⟩ := bind_eq_ok.mp inner
    cases same
    exact ⟨one, others, first, second, rfl⟩
  · rintro ⟨one, others, first, second, rfl⟩
    exact bind_eq_ok.mpr ⟨one, first, bind_eq_ok.mpr ⟨others, second, rfl⟩⟩

/-- A field before others that are compiled by themselves. -/
theorem compileFields_cons_eq_ok_iff {field : Param × List Param} (isField : IsField field)
    (closed : referencedFields field.2 = []) {fields : List (Param × List Param)}
    {rest : List Param} {started : Nat} (behind : ∀ {steps others},
      compileFields names scopes declared referenced (started + 1) rest = .ok (steps, others) ↔
        steps = [] ∧ fields.mapM (compileField names referenced) = .ok others)
    {first : List Step} {compiled : List Field} :
    compileFields names scopes declared referenced started (field.1 :: (field.2 ++ rest)) =
      .ok (first, compiled) ↔
      first = [] ∧ (field :: fields).mapM (compileField names referenced) = .ok compiled := by
  rw [compileFields, isField.fieldName?_eq, mapM_cons_eq_ok]
  constructor
  · intro compiles
    obtain ⟨⟨steps, others⟩, inner, same⟩ := bind_eq_ok.mp compiles
    cases same
    obtain ⟨own, more, chainCompiles, restCompiles, rfl⟩ :=
      (compileFields_append_eq_ok isField.chain.invocations).mp inner
    obtain ⟨rfl, later⟩ := behind.mp restCompiles
    rw [compileChain_scopes field.2 closed _ []] at chainCompiles
    rw [List.append_nil]
    exact ⟨rfl, _, others, bind_eq_ok.mpr ⟨own, chainCompiles, rfl⟩, later, rfl⟩
  · rintro ⟨rfl, _, others, here, later, rfl⟩
    obtain ⟨own, chainCompiles, same⟩ := bind_eq_ok.mp here
    cases same
    rw [compileChain_scopes field.2 closed _ (⟨declared, started⟩ :: scopes)] at chainCompiles
    exact bind_eq_ok.mpr ⟨(own, others), (compileFields_append_eq_ok isField.chain.invocations).mpr
      ⟨own, [], chainCompiles, behind.mpr ⟨rfl, later⟩, (List.append_nil own).symm⟩, rfl⟩

/-- The comma behind a field leaves nothing. -/
theorem compileFields_comma {started : Nat} {params : List Param} :
    compileFields names scopes declared referenced started
      (.token (.ofKind .comma "," 0) :: params) =
      compileFields names scopes declared referenced started params := by
  have unnamed : (Param.token (.ofKind .comma "," 0)).fieldName? = none := rfl
  rw [compileFields, unnamed]
  show (compileFields names scopes declared referenced started params >>= fun steps =>
      .ok ([] ++ steps.1, steps.2)) = _
  cases compileFields names scopes declared referenced started params <;> rfl

/-- **Without field operands each field is compiled by itself.** -/
theorem Lists.compileFields_eq_ok_iff {fields : List (Param × List Param)} {params : List Param}
    (lists : Lists fields params) (closed : referencedFields params = []) :
    ∀ {started first compiled},
    compileFields names scopes declared referenced started params = .ok (first, compiled) ↔
      first = [] ∧ fields.mapM (compileField names referenced) = .ok compiled := by
  have none {started : Nat} {first : List Step} {compiled : List Field} :
      compileFields names scopes declared referenced started [] = .ok (first, compiled) ↔
        first = [] ∧ [].mapM (compileField names referenced) = .ok compiled := by
    constructor
    · rintro ⟨⟩
      exact ⟨rfl, rfl⟩
    · rintro ⟨rfl, ⟨⟩⟩
      rfl
  induction lists with
  | empty =>
      intro started first compiled
      exact none
  | @last field isField =>
      intro started first compiled
      have closedChain := (List.append_eq_nil_iff.mp closed).2
      have alone :=
        @compileFields_cons_eq_ok_iff names declared referenced scopes field isField closedChain
        [] [] started none first compiled
      rwa [List.append_nil] at alone
  | @more field fields params isField _ ih =>
      intro started first compiled
      have inside := (List.append_eq_nil_iff.mp closed).2
      rw [referencedFields_append] at inside
      obtain ⟨closedChain, closedRest⟩ := List.append_eq_nil_iff.mp inside
      refine @compileFields_cons_eq_ok_iff names declared referenced scopes field isField
        closedChain fields _ started (fun {steps others} => ?_) first compiled
      rw [compileFields_comma, ih closedRest]

/-- A list in another order succeeds with the results in another order. -/
theorem exists_mapM_perm {ε α β : Type} {make : α → Except ε β} {sources others : List α}
    (perm : sources.Perm others) : ∀ {results : List β}, sources.mapM make = .ok results →
      ∃ further, others.mapM make = .ok further ∧ results.Perm further := by
  induction perm with
  | nil => exact fun makes => ⟨_, makes, .refl _⟩
  | cons source _ ih =>
      intro results makes
      obtain ⟨one, rest, first, second, rfl⟩ := mapM_cons_eq_ok.mp makes
      obtain ⟨further, made, perm⟩ := ih second
      exact ⟨one :: further, mapM_cons_eq_ok.mpr ⟨one, further, first, made, rfl⟩, perm.cons one⟩
  | swap source other rest =>
      intro results makes
      obtain ⟨one, _, first, inner, rfl⟩ := mapM_cons_eq_ok.mp makes
      obtain ⟨two, more, second, third, rfl⟩ := mapM_cons_eq_ok.mp inner
      exact ⟨two :: one :: more, mapM_cons_eq_ok.mpr ⟨two, one :: more, second,
        mapM_cons_eq_ok.mpr ⟨one, more, first, third, rfl⟩, rfl⟩, .swap two one more⟩
  | trans _ _ ihFirst ihSecond =>
      intro results makes
      obtain ⟨between, made, perm⟩ := ihFirst makes
      obtain ⟨further, madeOther, permOther⟩ := ihSecond made
      exact ⟨further, madeOther, perm.trans permOther⟩

/-- **Without field operands fields compile in any order.** -/
theorem Permutes.exists_compileFields {params others : List Param}
    (permutes : Permutes params others) (closed : referencedFields params = []) {started : Nat}
    {first : List Step} {compiled : List Field}
    (compiles : compileFields names scopes declared referenced started params =
      .ok (first, compiled))
    (around : List Scope) (further : List String) :
    ∃ permuted, compileFields names around further referenced started others = .ok ([], permuted) ∧
      compiled.Perm permuted := by
  have closedOther := permutes.referencedFields_eq_nil closed
  obtain ⟨fields, permuted, lists, listsOther, perm⟩ := permutes
  obtain ⟨-, makes⟩ := (lists.compileFields_eq_ok_iff closed).mp compiles
  obtain ⟨steps, made, stepsPerm⟩ := exists_mapM_perm perm makes
  exact ⟨steps, (listsOther.compileFields_eq_ok_iff closedOther).mpr ⟨rfl, made⟩, stepsPerm⟩

end Compiled

end Param

end Schemata
