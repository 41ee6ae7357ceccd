/-
**What every forest with a template looks like.**

A forest need not come from a text. If it compiles, it is a chain with suffixes behind it, and every
node that the compiler comes to invokes a validator that it knows, with parameters of the
validator's shape.

* `Invocation.heeded` leaves out the parameters that the compiler passes over: commas between
  fields, and whatever stands behind the name in a reference;
* `Invocation.Fits`: what is left has the form of its validator, and the compiler finds no fault
  with it;
* `Template.ofForest_fits`: a forest with a template is made of such nodes, as far as the compiler
  comes;
* `Template.exists_unheeded`: it does not come into references, and accepts any node there.
-/

import Mathlib
import Schemata.Proofs.Compilation.Listing

namespace Schemata

/-! ### Shapes -/

/-- **The validators that there are**: the type checks, the other checks, the containers, and those
that name a schema. -/
def Invocation.keywords : List String :=
  ["number", "string", "bool", "integer", "date", "empty", "equal", "notEqual", "oneOf", "regex",
    "compare", "length", "object", "array", "define", "reference"]

/-- Parameters without the commas among them. -/
def Param.uncommaed (params : List Param) : List Param :=
  params.filter fun param => (param.token? .comma).isNone

/-- **What the compiler heeds of an invocation.** -/
def Invocation.heeded : Invocation → Invocation
  | .mk validator params tag =>
    if validator = "object" then .mk validator (Param.uncommaed params) tag
    else if validator = "reference" then .mk validator (params.take 1) tag
    else .mk validator params tag

/-- **An invocation is as its validator needs it.** -/
structure Invocation.Fits (invocation : Invocation) : Prop where
  formed : invocation.heeded.Formed
  untaggedSchema : invocation.name ∈ schemaKeywords → invocation.tag = none
  distinctFields : invocation.name = "object" → (Param.fieldNames invocation.params).Nodup
  untextedLength : invocation.name = "length" → ∀ relation text,
    invocation.params ≠ [.comparison ⟨relation, .text text⟩]
  readablePattern : invocation.name = "regex" → ∀ text, invocation.params = [.text text] →
    (Pattern.ofText? text).isSome

/-- **A node that the compiler comes to**: one that stands in no reference. -/
inductive Param.Reaches (forest : List Param) : Invocation → Prop
  | root {invocation : Invocation} (member : .validator invocation ∈ forest) :
      Reaches forest invocation
  | inside {validator : String} {params : List Param} {tag : Option ErrorTag}
      {invocation : Invocation}
      (outer : Reaches forest (.mk validator params tag)) (other : validator ≠ "reference")
      (member : .validator invocation ∈ params) : Reaches forest invocation

namespace Invocation

theorem name_heeded (invocation : Invocation) : invocation.heeded.name = invocation.name := by
  obtain ⟨validator, params, tag⟩ := invocation
  rw [heeded]
  split
  · rfl
  · split <;> rfl

/-- Other parameters than those of objects and references are all heeded. -/
theorem heeded_of_ne {validator : String} {params : List Param} {tag : Option ErrorTag}
    (noObject : validator ≠ "object") (noReference : validator ≠ "reference") :
    heeded (.mk validator params tag) = .mk validator params tag := by
  rw [heeded, if_neg noObject, if_neg noReference]

/-- What has a form is invoked by a keyword. -/
theorem Formed.mem_keywords {invocation : Invocation} (formed : invocation.Formed) :
    invocation.name ∈ keywords := by
  cases formed with
  | @primitive validator primitive tag named =>
      have same : primitive.name = validator := by simpa using List.find?_some named
      subst same
      cases primitive <;> simp [keywords, name, Primitive.name]
  | comparison compares =>
      simp only [comparators, List.mem_cons, List.not_mem_nil, or_false] at compares
      rcases compares with rfl | rfl <;> simp [keywords, name]
  | equality equates => rcases equates with rfl | rfl <;> simp [keywords, name]
  | _ => simp [keywords, name]

theorem Fits.mem_keywords {invocation : Invocation} (fits : invocation.Fits) :
    invocation.name ∈ keywords := by
  rw [← name_heeded]
  exact fits.formed.mem_keywords

end Invocation

/-! ### Fields -/

namespace Param

/-- The fields behind the last one do not change any more. -/
theorem mem_of_countFields {params : List Param} : ∀ {found counts : List (String × Nat)},
    countFields found params = .ok counts → ∀ field ∈ found.tail, field ∈ counts := by
  induction params with
  | nil =>
      intro found counts counted field member
      cases counted
      exact List.mem_reverse.mpr (List.mem_of_mem_tail member)
  | cons param rest ih =>
      intro found counts counted field member
      cases param with
      | validator invocation =>
          cases found with
          | nil => cases counted
          | cons last others =>
              rw [countFields] at counted
              exact ih counted field member
      | injection _ | comparison _ => cases counted
      | token _ | text _ =>
          simp only [countFields] at counted
          split at counted
          · exact ih counted field (List.mem_of_mem_tail member)
          · exact ih counted field member

/-- Fields that are accepted have validators. -/
theorem positive_of_checkFields {seen : List String} {fields : List (String × Nat)}
    (checks : checkFields seen fields = .ok ()) : ∀ field ∈ fields, field.2 ≠ 0 := by
  induction fields generalizing seen with
  | nil => exact nofun
  | cons field rest ih =>
      obtain ⟨name, count⟩ := field
      rw [checkFields] at checks
      split at checks
      · cases checks
      · split at checks
        · cases checks
        · rename_i filled
          exact List.forall_mem_cons.mpr ⟨filled, ih checks⟩

/-- A field starts with something else than a comma. -/
theorem uncommaed_cons_of_name {param : Param} {name : String}
    (named : param.fieldName? = some name) (rest : List Param) :
    uncommaed (param :: rest) = param :: uncommaed rest := by
  refine List.filter_cons_of_pos ?_
  cases param with
  | token lexeme =>
      by_cases comma : lexeme.kind = .comma
      · simp [fieldName?, comma] at named
      · simp [token?, comma]
  | _ => rfl

/-- What starts no field, though it might, is a comma. -/
theorem uncommaed_cons_of_unnamed {lexeme : Lexeme} (unnamed : (token lexeme).fieldName? = none)
    (rest : List Param) : uncommaed (.token lexeme :: rest) = uncommaed rest := by
  refine List.filter_cons_of_neg ?_
  by_cases comma : lexeme.kind = .comma
  · simp [token?, comma]
  · simp [fieldName?, comma] at unnamed

/-- **Counted fields are fields**, if those before are and all of them have validators. The last one
before starts with `start`, and `body` holds its validators so far. -/
theorem AreFields.of_countFields {params : List Param} :
    ∀ {before body : List Param} {start : Param} {name : String} {others counts : List (String ×
      Nat)}, AreFields before →
    start.fieldName? = some name → areInvocations body = true →
    countFields ((name, body.length) :: others) params = .ok counts →
    (∀ field ∈ counts, field.2 ≠ 0) → AreFields (before ++ start :: body ++ uncommaed params) := by
  induction params with
  | nil =>
      intro before body start name others counts earlier named invocations counted positive
      cases counted
      have filled := positive (name, body.length) (List.mem_reverse.mpr List.mem_cons_self)
      rw [uncommaed, List.filter_nil, List.append_nil]
      exact earlier.field (by rw [named]; rfl)
        ⟨List.length_pos_iff.mp (Nat.pos_of_ne_zero filled), invocations⟩
  | cons param rest ih =>
      intro before body start name others counts earlier named invocations counted positive
      -- the field is complete where the next one starts
      have next : ∀ {other : String}, param.fieldName? = some other →
          countFields ((other, 0) :: (name, body.length) :: others) rest = .ok counts →
          AreFields (before ++ start :: body ++ uncommaed (param :: rest)) := by
        intro other starts counted
        have filled :=
          positive _ (mem_of_countFields counted (name, body.length) List.mem_cons_self)
        have complete := earlier.field (by rw [named]; rfl)
          ⟨List.length_pos_iff.mp (Nat.pos_of_ne_zero filled), invocations⟩
        have whole := ih complete starts (show areInvocations [] = true from rfl) counted positive
        rw [uncommaed_cons_of_name starts]
        rwa [List.append_assoc] at whole
      cases param with
      | validator invocation =>
          have longer :
              countFields ((name, (body ++ [Param.validator invocation]).length) :: others) rest =
              .ok counts := by
            rw [List.length_append]
            exact counted
          have chain : areInvocations (body ++ [Param.validator invocation]) = true := by
            rw [areInvocations, List.all_append]
            exact (Bool.and_true _).trans invocations
          have whole := ih earlier named chain longer positive
          rw [← List.cons_append, ← List.append_assoc, List.append_assoc _ [_]] at whole
          exact whole
      | injection _ | comparison _ => cases counted
      | text content => exact next rfl counted
      | token lexeme =>
          simp only [countFields] at counted
          split at counted
          · rename_i starts
            exact next starts counted
          · rename_i unnamed
            rw [uncommaed_cons_of_unnamed unnamed]
            exact ih earlier named invocations counted positive

/-- **What is declared as fields has their form**, apart from commas. -/
theorem AreFields.of_declaredFields {params : List Param} {declared : List String}
    (declares : declaredFields params = .ok declared) : AreFields (uncommaed params) := by
  obtain ⟨counts, counted, inner⟩ := bind_eq_ok.mp declares
  obtain ⟨_, checks, -⟩ := bind_eq_ok.mp inner
  have positive := positive_of_checkFields checks
  clear declares inner checks
  induction params with
  | nil => exact .nil
  | cons param rest ih =>
      have first : ∀ {name : String}, param.fieldName? = some name →
          countFields [(name, 0)] rest = .ok counts → AreFields (uncommaed (param :: rest)) := by
        intro name starts counted
        rw [uncommaed_cons_of_name starts]
        exact AreFields.of_countFields .nil starts (show areInvocations [] = true from rfl)
          counted positive
      cases param with
      | validator invocation => cases counted
      | injection _ | comparison _ => cases counted
      | text content => exact first rfl counted
      | token lexeme =>
          simp only [countFields] at counted
          split at counted
          · rename_i starts
            exact first starts counted
          · rename_i unnamed
            rw [uncommaed_cons_of_unnamed unnamed]
            exact ih counted

end Param

/-! ### Values -/

/-- What is accepted as a value is one. -/
theorem Bound.isValue_of_ofParam {validator : String} {param : Param} {bound : Bound}
    (reads : ofParam validator param = .ok bound) : param.IsValue := by
  cases param with
  | text _ | injection _ => trivial
  | validator _ | comparison _ => cases reads
  | token lexeme =>
      rw [ofParam] at reads
      split at reads
      · rename_i number
        cases reads' : Numeral.real? lexeme.value with
        | none => rw [reads'] at reads; cases reads
        | some datum => exact .inl ⟨number, by rw [reads']; rfl⟩
      · split at reads
        · rename_i constant
          exact .inr constant
        · cases reads

namespace Invocation

variable {names : List String} {scopes : List Scope} {validator : String} {params : List Param}
  {tag : Option ErrorTag} {step : Step}

/-! ### Compiled nodes -/

/-- **A check has the form of its validator.** -/
theorem Checks.formed {invocation : Invocation} (checks : invocation.Checks scopes step) :
    invocation.Formed := by
  cases checks with
  | @primitive validator params tag step primitive named compiles =>
      unfold Primitive.compile at compiles
      split at compiles
      · rename_i empty
        rw [List.isEmpty_iff.mp empty]
        exact .primitive named
      · cases compiles
  | equality equates compiles =>
      unfold Step.ofEquality at compiles
      split at compiles
      · obtain ⟨bound, reads, -⟩ := bind_eq_ok.mp compiles
        exact .equality equates (Bound.isValue_of_ofParam reads)
      · cases compiles
  | @membership params tag step compiles =>
      obtain ⟨bounds, reads, inner⟩ := bind_eq_ok.mp compiles
      have values : ∀ param ∈ Param.uncommaed params, param.IsValue := fun param member => by
        obtain ⟨bound, reads⟩ := exists_of_mapM_eq_ok reads param member
        exact Bound.isValue_of_ofParam reads
      refine .oneOf (fun param member => ?_) ?_
      · by_cases comma : (param.token? .comma).isSome = true
        · exact .inr comma
        · refine .inl (values param (List.mem_filter.mpr ⟨member, ?_⟩))
          simpa using comma
      · have filled : bounds ≠ [] := by
          rintro rfl
          cases inner
        have length := (mapM_eq_ok reads).1
        obtain ⟨param, member⟩ := List.exists_mem_of_length_pos
          (length ▸ List.length_pos_iff.mpr filled)
        exact ⟨param, (List.mem_filter.mp member).1, values param member⟩
  | matching compiles =>
      unfold Step.ofMatching at compiles
      split at compiles
      · exact .regex
      · cases compiles
  | comparison compares compiles =>
      unfold Step.ofComparison at compiles
      split at compiles
      · exact .comparison (by simpa [comparators] using compares)
      · cases compiles

/-- All of a check is heeded. -/
theorem Checks.heeded_eq {invocation : Invocation} (checks : invocation.Checks scopes step) :
    invocation.heeded = invocation := by
  cases checks with
  | primitive named _ => refine heeded_of_ne ?_ ?_ <;> (rintro rfl; cases named)
  | equality equates _ => rcases equates with rfl | rfl <;> rfl
  | comparison compares _ => rcases compares with rfl | rfl <;> rfl
  | membership _ | matching _ => rfl

/-- What names a schema starts with an identifier. -/
theorem exists_token_of_schemaName {schema : String}
    (named : Param.schemaName validator params = .ok schema) :
    ∃ lexeme rest, params = .token lexeme :: rest ∧ lexeme.kind = .identifier := by
  cases params with
  | nil => cases named
  | cons param rest =>
      rw [Param.schemaName] at named
      split at named
      · rename_i lexeme found
        cases param with
        | token other =>
            rw [Param.token?] at found
            split at found
            · rename_i identifier
              exact ⟨other, rest, rfl, identifier⟩
            · cases found
        | _ => cases found
      · cases named

/-- **What the compiler heeds of a node that it accepts has the form of its validator.** -/
theorem Compiles.formed {invocation : Invocation}
    (compiled : invocation.Compiles names scopes step) :
    invocation.heeded.Formed := by
  cases compiled with
  | check checks =>
      rw [checks.heeded_eq]
      exact checks.formed
  | object declares _ =>
      rw [heeded, if_pos rfl]
      exact .object (.of_declaredFields declares)
  | array invocations _ => exact .array invocations
  | definition named _ nonempty invocations _ =>
      obtain ⟨lexeme, _, same, identifier⟩ := exists_token_of_schemaName named
      cases same
      exact .define identifier ⟨nonempty, invocations⟩
  | reference named _ =>
      obtain ⟨lexeme, rest, rfl, identifier⟩ := exists_token_of_schemaName named
      exact .reference identifier

/-- **A node that the compiler accepts is as its validator needs it.** -/
theorem Compiles.fits {invocation : Invocation} (compiled : invocation.Compiles names scopes step) :
    invocation.Fits := by
  have compiles := compiled.compile
  have formed := compiled.formed
  obtain ⟨validator, params, tag⟩ := invocation
  refine ⟨formed, fun schema => tag_eq_none_of_compile schema compiles, ?_, ?_, ?_⟩
  · rintro rfl
    rw [compile_object] at compiles
    obtain ⟨declared, declares, -⟩ := bind_eq_ok.mp compiles
    exact Param.nodup_of_declaredFields declares
  · rintro rfl relation text rfl
    rw [compile_comparison (by decide)] at compiles
    cases compiles
  · rintro rfl text rfl
    rw [compile_regex] at compiles
    simp only [Step.ofMatching] at compiles
    split at compiles
    · rename_i reads
      rw [reads]
      rfl
    · cases compiles

end Invocation

/-! ### Forests -/

namespace Param

variable {chain forest : List Param} {names : List String} {root : List Step}

/-- **All that the compiler comes to in a chain with steps is accepted.** -/
theorem Reaches.compiles (compiled : compileChain names [] chain = .ok root)
    {invocation : Invocation} (reaches : Reaches chain invocation) :
    ∃ scopes step, invocation.Compiles names scopes step := by
  induction reaches with
  | root member =>
      obtain ⟨step, -, compiles⟩ := compiles_of_mem compiled member
      exact ⟨[], step, Invocation.compiles_of_ok compiles⟩
  | @inside validator params tag invocation _ other member ih =>
      obtain ⟨scopes, step, outer⟩ := ih
      cases outer with
      | check checks => cases checks.plain _ member
      | @object _ _ declared _ _ _ steps =>
          obtain ⟨before, after, rfl⟩ := List.append_of_mem member
          obtain ⟨step, compiles, -⟩ := compiles_of_split before rfl steps
          exact ⟨_, step, Invocation.compiles_of_ok compiles⟩
      | array _ steps =>
          obtain ⟨step, -, compiles⟩ := compiles_of_mem steps member
          exact ⟨_, step, Invocation.compiles_of_ok compiles⟩
      | definition named _ _ _ steps =>
          rcases List.mem_cons.mp member with rfl | member
          · cases named
          · obtain ⟨step, -, compiles⟩ := compiles_of_mem steps member
            exact ⟨_, step, Invocation.compiles_of_ok compiles⟩
      | reference => exact absurd rfl other

/-- What compiles to a suffix is its node. -/
theorem eq_node_of_compileSuffix {param : Param} {suffix : Suffix}
    (compiles : param.compileSuffix = .ok suffix) : param = suffix.node := by
  cases param with
  | validator invocation =>
      obtain ⟨name, params, tag⟩ := invocation
      change Invocation.compileSuffix (.mk name params tag) = .ok suffix at compiles
      unfold Invocation.compileSuffix at compiles
      cases tag with
      | some tag => cases compiles
      | none =>
          simp only [Option.isSome_none, Bool.false_eq_true, if_false] at compiles
          split at compiles
          · rename_i collecting
            subst collecting
            split at compiles <;> cases compiles <;> rfl
          · split at compiles
            · rename_i apart
              subst apart
              split at compiles
              · rename_i empty
                cases compiles
                rw [List.isEmpty_iff.mp empty]
                rfl
              · cases compiles
            · cases compiles
  | _ => cases compiles

theorem eq_nodes_of_compileSuffix {params : List Param} : ∀ {suffixes : List Suffix},
    params.mapM compileSuffix = .ok suffixes → params = suffixes.map Suffix.node := by
  induction params with
  | nil =>
      intro suffixes compiles
      cases compiles
      rfl
  | cons param rest ih =>
      intro suffixes compiles
      obtain ⟨suffix, others, first, second, rfl⟩ := mapM_cons_eq_ok.mp compiles
      rw [List.map_cons, ← ih second, ← eq_node_of_compileSuffix first]

end Param

namespace Template

/-- **A forest with a template is a chain with suffixes behind it, and every node of the chain
invokes a validator that there is, as this needs it**, apart from nodes in references. -/
theorem ofForest_fits {forest : List Param} {template : Template}
    (compiles : ofForest forest = .ok template) :
    ∃ chain, Param.IsChain chain ∧ forest = chain ++ template.suffixes.map Suffix.node ∧
      ∀ invocation, Param.Reaches chain invocation →
        invocation.name ∈ Invocation.keywords ∧ invocation.Fits := by
  obtain ⟨names, compiled⟩ := ofForest_eq_ok_iff.mp compiles
  refine ⟨forest.takeWhile fun param => !param.isSuffix, ⟨compiled.nonempty, ?_⟩, ?_, ?_⟩
  · refine List.all_eq_true.mpr fun param member => ?_
    exact List.all_eq_true.mp compiled.invocations param ((List.takeWhile_prefix _).subset member)
  · rw [← Param.eq_nodes_of_compileSuffix compiled.suffixes, List.takeWhile_append_dropWhile]
  · intro invocation reaches
    obtain ⟨scopes, step, accepted⟩ := reaches.compiles compiled.root
    exact ⟨accepted.fits.mem_keywords, accepted.fits⟩

/-- A definition and a reference, with a suffix behind them. -/
theorem ofForest_fits_reference :
    let name : Lexeme := ⟨.identifier, "a", true, 0⟩
    let forest : List Param :=
      [.validator (.mk "define" [.token name, .validator (.mk "number" [] none)]
      none), .validator (.mk "reference" [.token name] none), .validator (.mk "~meta" [] none)]
    ∃ template, ofForest forest = .ok template ∧
      ∃ chain, Param.IsChain chain ∧ forest = chain ++ template.suffixes.map Suffix.node ∧
        ∀ invocation, Param.Reaches chain invocation →
          invocation.name ∈ Invocation.keywords ∧ invocation.Fits := by
  intro name forest
  have compiles : ofForest forest = .ok ⟨[.define 0 [.primitive .number none], .call 0],
      [[.primitive .number none]], [.apart]⟩ := by cbv
  exact ⟨_, compiles, ofForest_fits compiles⟩

/-- **Behind the name in a reference, a node is accepted whatever it invokes.** -/
theorem exists_unheeded :
    ∃ forest template scopes invocation, ofForest forest = .ok template ∧
      Param.Occurs forest scopes invocation ∧ invocation.name ∉ Invocation.keywords ∧
      invocation.isSuffix = false := by
  let name : Lexeme := ⟨.identifier, "a", true, 0⟩
  let hidden : Invocation := .mk "bogus" [] none
  let forest : List Param :=
    [.validator (.mk "define" [.token name, .validator (.mk "number" [] none)]
    none), .validator (.mk "reference" [.token name, .validator hidden] none)]
  have compiles : ofForest forest = .ok ⟨[.define 0 [.primitive .number none], .call 0],
      [[.primitive .number none]], []⟩ := by cbv
  have outer : Param.Occurs forest [] (.mk "reference" [.token name, .validator hidden] none) :=
    .root (List.mem_cons_of_mem _ List.mem_cons_self)
  exact ⟨forest, _, [], hidden, compiles,
    .inside outer (by decide) (List.mem_cons_of_mem _ List.mem_cons_self), by decide, by decide⟩

end Template

end Schemata
