/-
**The form of the nodes of a forest, and what the compiler makes of it.**

The grammar gives every validator the parameters that its compiler expects. Then the compiler can
only find fault with the field names of an object, the operand of a comparison, a pattern, the name
of a schema or an error tag.

* `Invocation.Formed` lists the forms of the validators;
* `Param.AreFields.declaredFields_error` and `Param.nodup_of_declaredFields`: the names of fields
  are refused if and only if one of them is repeated;
* `Scope.resolve_eq`: which dependencies are accepted, and which errors tell of the others;
* `Bound.ofOperand_eq_error`: why an operand is refused.
-/

import Schemata.Proofs.Compilation.Inversion
import Schemata.Proofs.Compilation.Requirements

namespace Schemata

/-- A sequence fails if one of both parts does. -/
theorem bind_eq_error {ε α β : Type} {first : Except ε α} {next : α → Except ε β} {fault : ε} :
    (first >>= next) = .error fault ↔
      first = .error fault ∨ ∃ done, first = .ok done ∧ next done = .error fault := by
  cases first with
  | error other =>
      constructor
      · rintro ⟨⟩
        exact .inl rfl
      · rintro (⟨⟨⟩⟩ | ⟨_, ⟨⟩, _⟩)
        rfl
  | ok done =>
      constructor
      · exact fun fails => .inr ⟨done, rfl, fails⟩
      · rintro (⟨⟨⟩⟩ | ⟨_, ⟨⟩, fails⟩)
        exact fails

/-! ### Forms -/

/-- A parameter is a value: a number that can be read, a constant, a text or an injection. -/
def Param.IsValue : Param → Prop
  | .token lexeme =>
    (lexeme.kind = .number ∧ (Numeral.real? lexeme.value).isSome) ∨ lexeme.kind = .constant
  | .text _ | .injection _ => True
  | _ => False

/-- Parameters are a chain: invocations, and at least one. -/
structure Param.IsChain (params : List Param) : Prop where
  nonempty : params ≠ []
  invocations : Param.areInvocations params = true

/-- **Parameters are fields**: names with chains behind them, and commas between. -/
inductive Param.AreFields : List Param → Prop
  | nil : AreFields []
  | field {params body : List Param} {start : Param} (earlier : AreFields params)
      (starts : start.fieldName?.isSome) (chain : Param.IsChain body) :
      AreFields (params ++ start :: body)
  | comma {params : List Param} {lexeme : Lexeme} (earlier : AreFields params)
      (nonempty : params ≠ []) (comma : lexeme.kind = .comma) :
      AreFields (params ++ [Param.token lexeme])

/-- **The forms of a validator.** -/
inductive Invocation.Formed : Invocation → Prop
  | primitive {validator : String} {primitive : Primitive} {tag : Option ErrorTag}
      (named : Primitive.ofName? validator = some primitive) : Formed (.mk validator [] tag)
  | object {params : List Param} {tag : Option ErrorTag} (fields : Param.AreFields params) :
      Formed (.mk "object" params tag)
  | array {params : List Param} {tag : Option ErrorTag}
      (invocations : Param.areInvocations params = true) : Formed (.mk "array" params tag)
  | comparison {validator : String} {comparison : Comparison} {tag : Option ErrorTag}
      (compares : validator ∈ comparators) : Formed (.mk validator [.comparison comparison] tag)
  | regex {text : String} {tag : Option ErrorTag} : Formed (.mk "regex" [.text text] tag)
  | equality {validator : String} {param : Param} {tag : Option ErrorTag}
      (equates : validator = "equal" ∨ validator = "notEqual") (value : param.IsValue) :
      Formed (.mk validator [param] tag)
  | oneOf {params : List Param} {tag : Option ErrorTag}
      (values : ∀ param ∈ params, param.IsValue ∨ (param.token? .comma).isSome)
      (some : ∃ param ∈ params, param.IsValue) : Formed (.mk "oneOf" params tag)
  | define {lexeme : Lexeme} {body : List Param} {tag : Option ErrorTag}
      (identifier : lexeme.kind = .identifier) (chain : Param.IsChain body) :
      Formed (.mk "define" (.token lexeme :: body) tag)
  | reference {lexeme : Lexeme} {tag : Option ErrorTag} (identifier : lexeme.kind = .identifier) :
      Formed (.mk "reference" [.token lexeme] tag)

theorem Param.exists_invocation {params : List Param} (invocations : areInvocations params = true)
    {param : Param} (member : param ∈ params) : ∃ invocation, param = .validator invocation := by
  have invokes := List.all_eq_true.mp invocations param member
  cases param with
  | validator invocation => exact ⟨invocation, rfl⟩
  | _ => cases invokes

/-- Only objects, arrays and definitions have validators inside. -/
theorem Invocation.Formed.inside {validator : String} {params : List Param} {tag : Option ErrorTag}
    {invocation : Invocation} (formed : Formed (.mk validator params tag))
    (member : .validator invocation ∈ params) (other : validator ≠ "object") :
    (validator = "array" ∧ Param.areInvocations params = true) ∨ validator = "define" := by
  cases formed with
  | primitive => cases member
  | object => exact absurd rfl other
  | array invocations => exact .inl ⟨rfl, invocations⟩
  | comparison | regex | reference => cases List.mem_singleton.mp member
  | equality _ value =>
      cases List.mem_singleton.mp member
      exact value.elim
  | oneOf values =>
      rcases values _ member with value | comma
      · exact value.elim
      · cases comma
  | define => exact .inr rfl

/-- Objects have fields; definitions start with an identifier, and have a chain behind it;
references are an identifier. -/
theorem Invocation.Formed.shapes {validator : String} {params : List Param} {tag : Option ErrorTag}
    (formed : Formed (.mk validator params tag)) :
    (validator = "object" → Param.AreFields params) ∧
    (validator = "define" → ∃ lexeme body, params = .token lexeme :: body ∧
      lexeme.kind = .identifier ∧ Param.IsChain body) ∧
    (validator = "reference" → ∃ lexeme, params = [.token lexeme] ∧ lexeme.kind = .identifier) := by
  cases formed with
  | object fields => exact ⟨fun _ => fields, by simp, by simp⟩
  | define identifier chain => exact ⟨by simp, fun _ => ⟨_, _, rfl, identifier, chain⟩, by simp⟩
  | reference identifier => exact ⟨by simp, by simp, fun _ => ⟨_, rfl, identifier⟩⟩
  | primitive named => refine ⟨?_, ?_, ?_⟩ <;> (rintro rfl; cases named)
  | comparison compares => refine ⟨?_, ?_, ?_⟩ <;> (rintro rfl; simp [comparators] at compares)
  | equality equates => refine ⟨?_, ?_, ?_⟩ <;> (rintro rfl; simp at equates)
  | array | regex | oneOf => simp

/-- No validator is spelled like a suffix. -/
theorem Invocation.Formed.not_isSuffix {invocation : Invocation} (formed : invocation.Formed) :
    invocation.isSuffix = false := by
  cases formed with
  | @primitive validator primitive tag named =>
      have same : primitive.name = validator := by simpa using List.find?_some named
      subst same
      cases primitive <;> simp [isSuffix, name, Primitive.name]
  | comparison compares =>
      simp only [comparators, List.mem_cons, List.not_mem_nil, or_false] at compares
      rcases compares with rfl | rfl <;> simp [isSuffix, name]
  | equality equates => rcases equates with rfl | rfl <;> simp [isSuffix, name]
  | _ => simp [isSuffix, name]

/-! ### The compiler of each validator -/

namespace Invocation

variable {names : List String} {scopes : List Scope} {validator : String} {params : List Param}
  {tag : Option ErrorTag}

theorem compile_primitive {primitive : Primitive}
    (named : Primitive.ofName? validator = some primitive) :
    compile names scopes (.mk validator params tag) = primitive.compile params tag := by
  rw [compile, named]

theorem compile_equality (equates : validator = "equal" ∨ validator = "notEqual") :
    compile names scopes (.mk validator params tag) =
      Step.ofEquality validator (validator = "equal") params tag := by
  rcases equates with rfl | rfl <;> (rw [compile]; rfl)

theorem compile_oneOf :
    compile names scopes (.mk "oneOf" params tag) = Step.ofMembership params tag := by
  rw [compile]
  rfl

theorem compile_regex :
    compile names scopes (.mk "regex" params tag) = Step.ofMatching params tag := by
  rw [compile]
  rfl

theorem compile_comparison (compares : validator ∈ comparators) :
    compile names scopes (.mk validator params tag) =
      Step.ofComparison scopes validator (validator = "length") params tag := by
  simp only [comparators, List.mem_cons, List.not_mem_nil, or_false] at compares
  rcases compares with rfl | rfl <;> (rw [compile]; rfl)

theorem compile_object : compile names scopes (.mk "object" params tag) =
    (Param.declaredFields params >>= fun declared =>
      Param.compileFields names scopes declared (Param.referencedFields params) 0 params >>=
        fun steps => .ok (.object steps.2 tag)) := by
  rw [compile]
  rfl

theorem compile_array (invocations : Param.areInvocations params = true) :
    compile names scopes (.mk "array" params tag) =
      (Param.compileChain names scopes params >>= fun chain => .ok (.array chain tag)) := by
  rw [compile]
  show (if Param.areInvocations params then Param.compileChain names scopes params >>=
    fun chain => Except.ok (Step.array chain tag) else ParamsFault.refuse "array" .notAChain) = _
  rw [if_pos invocations]

theorem compile_tagged {errorTag : ErrorTag} (schema : validator ∈ schemaKeywords) :
    compile names scopes (.mk validator params (some errorTag)) =
      .error (.invalidParams validator .taggedSchema) := by
  simp only [schemaKeywords, List.mem_cons, List.not_mem_nil, or_false] at schema
  rcases schema with rfl | rfl <;> (rw [compile]; rfl)

/-- What names a schema has no error tag, if it compiles. -/
theorem tag_eq_none_of_compile {step : Step} (schema : validator ∈ schemaKeywords)
    (compiles : compile names scopes (.mk validator params tag) = .ok step) : tag = none := by
  cases tag with
  | none => rfl
  | some tag =>
      rw [compile_tagged schema] at compiles
      cases compiles

theorem compile_define {lexeme : Lexeme} {body : List Param}
    (identifier : lexeme.kind = .identifier) (chain : Param.IsChain body) :
    compile names scopes (.mk "define" (.token lexeme :: body) none) =
      (Param.handle names lexeme.value >>= fun handle =>
        Param.compileChain names scopes body >>= fun steps => .ok (.define handle steps)) := by
  have named : Param.schemaName "define" [.token lexeme] = .ok lexeme.value := by
    simp [Param.schemaName, Param.token?, identifier]
  have whole : (body.isEmpty || !Param.areInvocations body) = false := by
    simp [chain.nonempty, chain.invocations]
  have definition : Param.compileDefinition names scopes (.token lexeme :: body) = _ :=
    Param.compileDefinition.eq_2 names scopes (.token lexeme) body
  rw [named, whole] at definition
  rw [compile]
  exact definition

theorem compile_reference {lexeme : Lexeme} (identifier : lexeme.kind = .identifier) :
    compile names scopes (.mk "reference" [.token lexeme] none) =
      (Param.handle names lexeme.value >>= fun handle => .ok (.call handle)) := by
  have named : Param.schemaName "reference" [.token lexeme] = .ok lexeme.value := by
    simp [Param.schemaName, Param.token?, identifier]
  rw [compile]
  show (Param.schemaName "reference" [.token lexeme] >>= fun name =>
    Param.handle names name >>= fun handle => .ok (Step.call handle)) = _
  rw [named]
  rfl

/-- **The compiler makes steps in all these ways.** -/
theorem Compiles.compile {invocation : Invocation} {step : Step}
    (compiled : invocation.Compiles names scopes step) :
    invocation.compile names scopes = .ok step := by
  cases compiled with
  | check checks =>
      cases checks with
      | primitive named compiles => exact (compile_primitive named).trans compiles
      | equality equates compiles => exact (compile_equality equates).trans compiles
      | membership compiles => exact compile_oneOf.trans compiles
      | matching compiles => exact compile_regex.trans compiles
      | comparison compares compiles =>
          exact (compile_comparison (by simpa [comparators] using compares)).trans compiles
  | object declares compiles =>
      rw [compile_object]
      exact bind_eq_ok.mpr ⟨_, declares, bind_eq_ok.mpr ⟨_, compiles, rfl⟩⟩
  | array invocations compiles =>
      rw [compile_array invocations]
      exact bind_eq_ok.mpr ⟨_, compiles, rfl⟩
  | @definition param rest name handle chain named handled nonempty invocations compiles =>
      have definition :
          Param.compileDefinition names scopes (param :: rest) = .ok (.define handle chain) := by
        rw [Param.compileDefinition]
        refine bind_eq_ok.mpr ⟨_, named, bind_eq_ok.mpr ⟨_, handled, ?_⟩⟩
        rw [if_neg (by simp [nonempty, invocations])]
        exact bind_eq_ok.mpr ⟨_, compiles, rfl⟩
      rw [Invocation.compile]
      exact definition
  | @reference params name handle named handled =>
      have reference : (Param.schemaName "reference" params >>= fun name =>
          Param.handle names name >>= fun handle => .ok (Step.call handle)) = .ok (.call handle) :=
        bind_eq_ok.mpr ⟨_, named, bind_eq_ok.mpr ⟨_, handled, rfl⟩⟩
      rw [Invocation.compile]
      exact reference

end Invocation

/-! ### Values -/

/-- A value stands for one bound, whichever validator takes it. -/
theorem Param.IsValue.exists_bound {param : Param} (value : param.IsValue) :
    ∃ bound, ∀ validator, Bound.ofParam validator param = .ok bound := by
  cases param with
  | text text => exact ⟨_, fun _ => rfl⟩
  | injection index => exact ⟨_, fun _ => rfl⟩
  | validator _ | comparison _ => exact value.elim
  | token lexeme =>
      rcases value with ⟨number, reads⟩ | constant
      · obtain ⟨datum, reads⟩ := Option.isSome_iff_exists.mp reads
        refine ⟨.literal (.ofDatum datum), fun validator => ?_⟩
        rw [Bound.ofParam, if_pos number, reads]
      · refine ⟨.ofConstant lexeme.value, fun validator => ?_⟩
        rw [Bound.ofParam, if_neg (by simp [constant]), if_pos constant]

/-- A value is no comma. -/
theorem Param.IsValue.isNone_comma {param : Param} (value : param.IsValue) :
    (param.token? .comma).isNone = true := by
  cases param with
  | token lexeme => rcases value with ⟨kind, -⟩ | kind <;> simp [token?, kind]
  | _ => rfl

/-- A list succeeds if each of its elements does. -/
theorem exists_mapM_eq_ok {ε α β : Type} {make : α → Except ε β} {sources : List α}
    (each : ∀ source ∈ sources, ∃ result, make source = .ok result) :
    ∃ results, sources.mapM make = .ok results := by
  induction sources with
  | nil => exact ⟨[], rfl⟩
  | cons source rest ih =>
      obtain ⟨⟨result, first⟩, later⟩ := List.forall_mem_cons.mp each
      obtain ⟨results, second⟩ := ih later
      refine ⟨result :: results, ?_⟩
      rw [List.mapM_cons, first, second]
      rfl

/-- Equality with a value compiles. -/
theorem Step.exists_ofEquality {param : Param} (value : param.IsValue) (validator : String)
    (expected : Bool) (tag : Option ErrorTag) :
    ∃ step, Step.ofEquality validator expected [param] tag = .ok step := by
  obtain ⟨bound, reads⟩ := value.exists_bound
  refine ⟨.equality expected bound tag, ?_⟩
  show (Bound.ofParam validator param >>= fun bound => .ok (Step.equality expected bound tag)) = _
  rw [reads]
  rfl

/-- Membership in a list of values compiles. -/
theorem Step.exists_ofMembership {params : List Param} (tag : Option ErrorTag)
    (values : ∀ param ∈ params, param.IsValue ∨ (param.token? .comma).isSome)
    (some : ∃ param ∈ params, param.IsValue) : ∃ step, Step.ofMembership params tag = .ok step := by
  obtain ⟨bounds, reads⟩ : ∃ bounds, (params.filter fun param =>
      (param.token? .comma).isNone).mapM (Bound.ofParam "oneOf") = .ok bounds := by
    refine exists_mapM_eq_ok fun param kept => ?_
    obtain ⟨member, plain⟩ := List.mem_filter.mp kept
    rcases values param member with value | comma
    · exact value.exists_bound.imp fun _ reads => reads _
    · simp [Option.isNone_iff_eq_none.mp plain] at comma
  have nonempty : bounds.isEmpty = false := by
    obtain ⟨param, member, value⟩ := some
    have kept : param ∈ params.filter fun param => (param.token? .comma).isNone :=
      List.mem_filter.mpr ⟨member, value.isNone_comma⟩
    replace kept := List.length_pos_of_mem kept
    rw [← (mapM_eq_ok reads).1] at kept
    cases bounds with
    | nil => cases kept
    | cons => rfl
  refine ⟨.membership bounds tag, ?_⟩
  unfold Step.ofMembership
  rw [reads]
  show (if bounds.isEmpty then _ else _) = _
  rw [nonempty]
  rfl

/-! ### Fields -/

namespace Param

theorem countFields_append (first second : List Param) (found : List (String × Nat)) :
    countFields found (first ++ second) =
      (countFields found first >>= fun counts => countFields counts.reverse second) := by
  induction first generalizing found with
  | nil =>
      show countFields found second = countFields found.reverse.reverse second
      rw [List.reverse_reverse]
  | cons param rest ih =>
      cases param with
      | validator invocation =>
          cases found with
          | nil => rfl
          | cons field others => exact ih _
      | injection _ | comparison _ => rfl
      | token _ | text _ =>
          simp only [List.cons_append, countFields]
          split <;> exact ih _

/-- The validators of a field are counted. -/
theorem countFields_invocations {chain : List Param} (invocations : areInvocations chain = true)
    (name : String) (count : Nat) (others : List (String × Nat)) :
    countFields ((name, count) :: others) chain =
      .ok ((name, count + chain.length) :: others).reverse := by
  induction chain generalizing count with
  | nil => rfl
  | cons param rest ih =>
      obtain ⟨invocation, rfl⟩ := exists_invocation invocations List.mem_cons_self
      have others : areInvocations rest = true := invocations
      rw [countFields, ih others, List.length_cons, Nat.add_right_comm, Nat.add_assoc]

/-- **Every field has a name and a validator.** -/
theorem AreFields.exists_countFields {params : List Param} (fields : AreFields params) :
    ∃ counts, countFields [] params = .ok counts ∧ ∀ field ∈ counts, field.2 ≠ 0 := by
  induction fields with
  | nil => exact ⟨[], rfl, nofun⟩
  | @field params body start _ starts chain ih =>
      obtain ⟨counts, counted, positive⟩ := ih
      obtain ⟨name, named⟩ := Option.isSome_iff_exists.mp starts
      have begins : ∀ found, countFields found (start :: body) =
          countFields ((name, 0) :: found) body := by
        intro found
        cases start with
        | token _ | text _ =>
            simp only [countFields]
            rw [named]
        | _ => cases named
      refine ⟨counts ++ [(name, body.length)], ?_, ?_⟩
      · rw [countFields_append, counted]
        show countFields counts.reverse (start :: body) = _
        rw [begins, countFields_invocations chain.invocations, Nat.zero_add]
        simp
      · refine List.forall_mem_append.mpr ⟨positive, List.forall_mem_singleton.mpr ?_⟩
        exact Nat.pos_iff_ne_zero.mp (List.length_pos_iff.mpr chain.nonempty)
  | @comma params lexeme _ _ comma ih =>
      obtain ⟨counts, counted, positive⟩ := ih
      refine ⟨counts, ?_, positive⟩
      rw [countFields_append, counted]
      show countFields counts.reverse [.token lexeme] = _
      simp [countFields, fieldName?, comma]

/-- Fields that are accepted differ from one another and from those before them. -/
theorem nodup_of_checkFields {seen : List String} {fields : List (String × Nat)}
    (checks : checkFields seen fields = .ok ()) :
    (fields.map Prod.fst).Nodup ∧ ∀ name ∈ seen, name ∉ fields.map Prod.fst := by
  induction fields generalizing seen with
  | nil => exact ⟨List.nodup_nil, fun _ _ => List.not_mem_nil⟩
  | cons field rest ih =>
      obtain ⟨name, count⟩ := field
      rw [checkFields] at checks
      split at checks
      · cases checks
      · rename_i fresh
        split at checks
        · cases checks
        · obtain ⟨distinct, apart⟩ := ih checks
          obtain ⟨here, later⟩ := List.forall_mem_cons.mp apart
          refine ⟨List.nodup_cons.mpr ⟨here, distinct⟩, fun other member => ?_⟩
          rw [List.map_cons, List.mem_cons, not_or]
          refine ⟨?_, later other member⟩
          rintro rfl
          exact fresh (List.contains_iff_mem.mpr member)

/-- Fields that have validators are only refused if one is repeated. -/
theorem checkFields_eq_error {seen : List String} {fields : List (String × Nat)}
    {error : CompileError} (positive : ∀ field ∈ fields, field.2 ≠ 0)
    (fails : checkFields seen fields = .error error) :
    ∃ name, error = .invalidParams "object" (.repeatedField name) ∧
      ((name ∈ seen ∧ name ∈ fields.map Prod.fst) ∨ List.Duplicate name (fields.map Prod.fst)) := by
  induction fields generalizing seen with
  | nil => cases fails
  | cons field rest ih =>
      obtain ⟨name, count⟩ := field
      obtain ⟨here, later⟩ := List.forall_mem_cons.mp positive
      rw [checkFields] at fails
      split at fails
      · rename_i repeats
        cases fails
        exact ⟨name, rfl, .inl ⟨List.contains_iff_mem.mp repeats, List.mem_cons_self⟩⟩
      · obtain ⟨other, same, ⟨before, behind⟩ | twice⟩ := ih later fails
        · refine ⟨other, same, ?_⟩
          rcases List.mem_cons.mp before with rfl | before
          · exact .inr (.cons_mem behind)
          · exact .inl ⟨before, List.mem_cons_of_mem _ behind⟩
        · exact ⟨other, same, .inr (twice.duplicate_cons _)⟩

theorem map_fst_of_countFields {params : List Param} {counts : List (String × Nat)}
    (counted : countFields [] params = .ok counts) : counts.map Prod.fst = fieldNames params := by
  simpa [fieldNames] using countFields_eq counted

/-- **Fields that are declared differ.** -/
theorem nodup_of_declaredFields {params : List Param} {declared : List String}
    (declares : declaredFields params = .ok declared) : (fieldNames params).Nodup := by
  obtain ⟨counts, counted, inner⟩ := bind_eq_ok.mp declares
  obtain ⟨_, checks, -⟩ := bind_eq_ok.mp inner
  rw [← map_fst_of_countFields counted]
  exact (nodup_of_checkFields checks).1

/-- **Fields are only refused if one is repeated.** -/
theorem AreFields.declaredFields_error {params : List Param} (fields : AreFields params)
    {error : CompileError} (fails : declaredFields params = .error error) :
    ∃ name, error = .invalidParams "object" (.repeatedField name) ∧
      List.Duplicate name (fieldNames params) := by
  obtain ⟨counts, counted, positive⟩ := fields.exists_countFields
  rcases bind_eq_error.mp fails with fails | ⟨found, counts', fails⟩
  · cases counted.symm.trans fails
  · cases counted.symm.trans counts'
    rcases bind_eq_error.mp fails with fails | ⟨_, -, ⟨⟩⟩
    obtain ⟨name, same, ⟨⟨⟩, -⟩ | twice⟩ := checkFields_eq_error positive fails
    exact ⟨name, same, map_fst_of_countFields counted ▸ twice⟩

/-- Fields start with the name of a field. -/
theorem AreFields.exists_start {params : List Param} (fields : AreFields params) :
    params = [] ∨ ∃ start rest, params = start :: rest ∧ start.fieldName?.isSome := by
  induction fields with
  | nil => exact .inl rfl
  | field _ starts _ ih =>
      rcases ih with rfl | ⟨start, rest, rfl, named⟩
      · exact .inr ⟨_, _, rfl, starts⟩
      · exact .inr ⟨start, _, rfl, named⟩
  | comma _ nonempty _ ih =>
      rcases ih with rfl | ⟨start, rest, rfl, named⟩
      · exact absurd rfl nonempty
      · exact .inr ⟨start, _, rfl, named⟩

/-- No steps stand before the first field. -/
theorem AreFields.no_steps {names : List String} {scopes : List Scope}
    {declared referenced : List String} {params : List Param} {steps : List Step}
    {compiled : List Field} (fields : AreFields params)
    (compiles : compileFields names scopes declared referenced 0 params = .ok (steps, compiled)) :
    steps = [] := by
  rcases fields.exists_start with rfl | ⟨start, rest, rfl, starts⟩
  · cases compiles
    rfl
  · obtain ⟨name, named⟩ := Option.isSome_iff_exists.mp starts
    rw [compileFields, named] at compiles
    obtain ⟨_, -, same⟩ := bind_eq_ok.mp compiles
    cases same
    rfl

end Param

/-! ### Operands -/

namespace Scope

variable {name : String} {scopes : List Scope}

theorem offers_iff {scope : Scope} {position : Nat}
    (found : scope.fields.findIdx? (· = name) = some position) :
    scope.Offers name ↔ position < scope.current := by
  obtain ⟨valid, same, first⟩ := List.findIdx?_eq_some_iff_getElem.mp found
  constructor
  · rintro ⟨other, before, here⟩
    obtain ⟨bound, here⟩ := List.getElem?_eq_some_iff.mp here
    refine Nat.lt_of_not_le fun behind => ?_
    exact first other (Nat.lt_of_lt_of_le before behind) (by simpa using here)
  · intro before
    exact ⟨position, before, List.getElem?_eq_some_iff.mpr ⟨valid, of_decide_eq_true same⟩⟩

/-- **A dependency is resolved by the innermost object that declares it.** -/
theorem resolve_eq (name : String) (scopes : List Scope) :
    (resolve name scopes = .error (.unknownDependency name) ∧ declaring? name scopes = none) ∨
      ∃ scope, declaring? name scopes = some scope ∧
        ((resolve name scopes = .ok () ∧ scope.Offers name) ∨
          (resolve name scopes =
            .error (.forwardDependency ((scope.fields[scope.current]?).getD "") name) ∧
            ¬scope.Offers name)) := by
  induction scopes with
  | nil => exact .inl ⟨rfl, rfl⟩
  | cons scope outer ih =>
      rw [resolve, declaring?, List.find?_cons]
      cases found : scope.fields.findIdx? (· = name) with
      | none =>
          have absent : name ∉ scope.fields := by
            intro member
            have other := List.findIdx?_eq_none_iff.mp found name member
            exact of_decide_eq_false other rfl
          rw [decide_eq_false absent]
          exact ih
      | some position =>
          obtain ⟨valid, same, -⟩ := List.findIdx?_eq_some_iff_getElem.mp found
          have declared : name ∈ scope.fields := List.mem_of_getElem (of_decide_eq_true same)
          rw [decide_eq_true declared]
          refine .inr ⟨scope, rfl, ?_⟩
          dsimp only
          rw [offers_iff found]
          by_cases before : position < scope.current
          · rw [if_pos before]
            exact .inl ⟨rfl, before⟩
          · rw [if_neg before]
            exact .inr ⟨rfl, before⟩

/-- A dependency is accepted only if the innermost object that declares it does so in time. -/
theorem offers_of_resolve {name : String} {scopes : List Scope}
    (resolves : resolve name scopes = .ok ()) :
    ∃ scope, declaring? name scopes = some scope ∧ scope.Offers name := by
  rcases resolve_eq name scopes with ⟨fails, -⟩ | ⟨scope, declared, ⟨-, offers⟩ | ⟨fails, -⟩⟩
  · cases fails.symm.trans resolves
  · exact ⟨scope, declared, offers⟩
  · cases fails.symm.trans resolves

end Scope

/-- **An operand is refused if it is the text that a length is compared with, or a field that may
not be read there.** -/
theorem Bound.ofOperand_eq_error {scopes : List Scope} {validator : String} {ofLength : Bool}
    {operand : Operand} {error : CompileError}
    (fails : Bound.ofOperand scopes validator ofLength operand = .error error) :
    (ofLength = true ∧ (∃ text, operand = .text text) ∧
        error = .invalidParams validator .textBound) ∨
      ∃ name, operand = .field name ∧ Scope.resolve name scopes = .error error := by
  unfold Bound.ofOperand at fails
  split at fails
  · cases fails
  · rename_i text
    split at fails
    · rename_i length
      cases fails
      exact .inl ⟨length, ⟨text, rfl⟩, rfl⟩
    · cases fails
  · cases fails
  · rename_i name
    rcases bind_eq_error.mp fails with fails | ⟨_, -, ⟨⟩⟩
    exact .inr ⟨name, rfl, fails⟩

end Schemata
