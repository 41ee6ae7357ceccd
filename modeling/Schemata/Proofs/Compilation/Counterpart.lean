/-
**The templates of chains that vary.**

* `Param.Formed.relocateAll`: a chain is well formed wherever its lexemes stand;
* `Template.OfSuffixed`: a template is that of a chain with suffixes behind it;
* `Param.AllVary.of_suffixed`: where forests vary, so do their chains, and their suffixes are the
  same;
* `Param.Counterparts.exists_template`: if a chain compiles, so does one that varies from it, to a
  template that is alike.
-/

import Schemata.Proofs.Compilation.Composite
import Schemata.Proofs.Compilation.Layout
import Schemata.Proofs.Compilation.Variation

namespace Schemata

/-! ### Other offsets -/

namespace Param

variable {move : Nat → Nat} {params : List Param}

theorem fieldNames_relocateAll : fieldNames (relocateAll move params) = fieldNames params := by
  rw [relocateAll_eq_map, fieldNames, List.filterMap_map]
  exact congrArg (List.filterMap · params) (funext (fieldName?_relocate move))

theorem IsValue.relocate {param : Param} (value : param.IsValue) :
    (param.relocate move).IsValue := by
  cases param <;> exact value

theorem IsChain.relocateAll (chain : IsChain params) : IsChain (relocateAll move params) where
  nonempty := by
    rw [relocateAll_eq_map]
    exact mt List.map_eq_nil_iff.mp chain.nonempty
  invocations := (areInvocations_relocateAll move params).trans chain.invocations

theorem AreFields.relocateAll (fields : AreFields params) :
    AreFields (relocateAll move params) := by
  rw [relocateAll_eq_map]
  induction fields with
  | nil => exact .nil
  | field _ starts chain ih =>
      have body := @IsChain.relocateAll move _ chain
      rw [relocateAll_eq_map] at body
      rw [List.map_append, List.map_cons]
      exact .field ih (by rwa [fieldName?_relocate]) body
  | comma _ nonempty comma ih =>
      rw [List.map_append]
      exact .comma ih (mt List.map_eq_nil_iff.mp nonempty) comma

end Param

/-- A validator has its form wherever its lexemes stand. -/
theorem Invocation.Formed.relocate {move : Nat → Nat} {invocation : Invocation}
    (formed : invocation.Formed) :
    (invocation.relocate move).Formed := by
  cases formed with
  | primitive named => exact .primitive named
  | object fields => exact .object fields.relocateAll
  | array invocations => exact .array ((Param.areInvocations_relocateAll move _).trans invocations)
  | comparison compares => exact .comparison compares
  | regex => exact .regex
  | equality equates value => exact .equality equates value.relocate
  | oneOf values some =>
      rw [Invocation.relocate, Param.relocateAll_eq_map]
      refine .oneOf (List.forall_mem_map.mpr fun param member => ?_) ?_
      · rcases values param member with value | comma
        · exact .inl value.relocate
        · rw [Grammar.token?_relocate, Option.isSome_map]
          exact .inr comma
      · obtain ⟨param, member, value⟩ := some
        exact ⟨_, List.mem_map_of_mem member, value.relocate⟩
  | define identifier chain => exact .define identifier chain.relocateAll
  | reference identifier => exact .reference identifier

namespace Param

variable {move : Nat → Nat} {chain : List Param}

/-- What occurs in a chain whose lexemes have been moved occurs in the chain. -/
theorem Occurs.of_relocateAll {scopes : List Scope} {invocation : Invocation}
    (occurs : Occurs (relocateAll move chain) scopes invocation) :
    ∃ original, invocation = original.relocate move ∧ Occurs chain scopes original := by
  have inside {params : List Param} {invocation : Invocation}
      (member : .validator invocation ∈ relocateAll move params) :
      ∃ original, invocation = original.relocate move ∧ .validator original ∈ params := by
    rw [relocateAll_eq_map] at member
    obtain ⟨param, there, same⟩ := List.mem_map.mp member
    cases param with
    | validator original => exact ⟨original, (Param.validator.inj same).symm, there⟩
    | _ => cases same
  induction occurs with
  | root member =>
      obtain ⟨original, same, there⟩ := inside member
      exact ⟨original, same, .root there⟩
  | @field scopes tag before after invocation _ ih =>
      obtain ⟨⟨validator, params, _⟩, same, outer⟩ := ih
      rw [Invocation.relocate, Invocation.mk.injEq] at same
      obtain ⟨rfl, split, rfl⟩ := same
      have names := @fieldNames_relocateAll move params
      rw [← split] at names
      rw [relocateAll_eq_map] at split
      obtain ⟨earlier, rest, rfl, front, behind⟩ := List.map_eq_append_iff.mp split.symm
      obtain ⟨param, later, rfl, here, -⟩ := List.map_eq_cons_iff.mp behind
      cases param with
      | validator original =>
          rw [← front, ← relocateAll_eq_map, fieldNames_relocateAll, relocateAll_eq_map,
            front, names]
          exact ⟨original, (Param.validator.inj here).symm, outer.field⟩
      | _ => cases here
  | inside _ other member ih =>
      obtain ⟨⟨validator, params, _⟩, same, outer⟩ := ih
      rw [Invocation.relocate, Invocation.mk.injEq] at same
      obtain ⟨rfl, rfl, rfl⟩ := same
      obtain ⟨original, same, there⟩ := inside member
      exact ⟨original, same, .inside outer other there⟩

/-- **A chain is well formed wherever its lexemes stand.** -/
theorem Formed.relocateAll (formed : Formed chain) : Formed (relocateAll move chain) where
  toIsChain := formed.toIsChain.relocateAll
  occurring := by
    intro scopes invocation occurs
    obtain ⟨original, rfl, there⟩ := occurs.of_relocateAll
    exact (formed.occurring there).relocate

end Param

/-- **A forest apart from offsets**: every lexeme stands at one place. -/
abbrev Param.unplaced (forest : List Param) : List Param :=
  relocateAll (fun _ => 0) forest

/-- A text compiles as its forest does apart from offsets. -/
theorem Template.ofText_of_unplaced {text : String} {plain : List Param}
    (whole : (Grammar.parse text).map Param.unplaced = .ok plain) :
    ofText text = ofForest plain := by
  obtain ⟨forest, parses, rfl⟩ := LexicalUnit.map_eq_ok.mp whole
  exact (ofText_eq parses).trans (ofForest_relocate _ forest).symm

/-! ### Chains with suffixes -/

/-- **A template is that of a chain with suffixes behind it.** -/
structure Template.OfSuffixed (chain : List Param) (suffixes : List Suffix) (template : Template) :
    Prop where
  formed : Param.Formed chain
  distinct : (Param.schemaNames chain).Nodup
  root : Param.compileChain (Param.schemaNames chain) [] chain = .ok template.root
  suffixes : template.suffixes = suffixes
  count : template.schemaCount = (Param.schemaNames chain).length
  bodies : ∀ definition ∈ Step.definitionsOfAll template.root,
    template.bodies[definition.1]? = some definition.2

namespace Param.Formed

variable {chain : List Param} {suffixes : List Suffix} (formed : Formed chain)
include formed

/-- A template that a chain compiles to with suffixes behind it. -/
theorem ofSuffixed {template : Template}
    (compiles : Template.ofForest (chain ++ suffixes.map Suffix.node) = .ok template) :
    Template.OfSuffixed chain suffixes template := by
  obtain ⟨_, made⟩ := Template.ofForest_eq_ok_iff.mp compiles
  rw [formed.ofForest_eq] at compiles
  obtain ⟨names, declares, inner⟩ := bind_eq_ok.mp compiles
  obtain ⟨root, compiled, inner⟩ := bind_eq_ok.mp inner
  obtain ⟨bodies, found, same⟩ := bind_eq_ok.mp inner
  cases same
  have listed : names = schemaNames chain := declareAll_eq chain [] names declares
  subst listed
  refine ⟨formed, (declareAll_grows chain _ _ declares).distinct List.nodup_nil, compiled, rfl, ?_,
    fun _ member => made.body_of_definition member⟩
  rw [Template.schemaCount, (mapM_eq_ok found).1, List.length_zipIdx]

/-- **A chain whose steps compile has a template**, with any suffixes behind it. -/
theorem exists_ofSuffixed (distinct : (schemaNames chain).Nodup) {root : List Step}
    (compiled : compileChain (schemaNames chain) [] chain = .ok root) (suffixes : List Suffix) :
    ∃ template, Template.ofForest (chain ++ suffixes.map Suffix.node) = .ok template ∧
      template.root = root := by
  obtain ⟨bodies, found⟩ := formed.exists_bodies distinct compiled
  refine ⟨⟨root, bodies, suffixes⟩, ?_, rfl⟩
  rw [formed.ofForest_eq]
  exact bind_eq_ok.mpr ⟨_, formed.declareAll_eq_ok distinct, bind_eq_ok.mpr ⟨_, compiled,
    bind_eq_ok.mpr ⟨_, found, rfl⟩⟩⟩

end Param.Formed

namespace Template.OfSuffixed

variable {chain : List Param} {suffixes : List Suffix} {template : Template}

/-- A template is that of a chain wherever the lexemes of the chain stand. -/
theorem relocateAll (of : OfSuffixed chain suffixes template) (move : Nat → Nat) :
    OfSuffixed (Param.relocateAll move chain) suffixes template where
  formed := of.formed.relocateAll
  distinct := by
    rw [Param.schemaNames_relocateAll]
    exact of.distinct
  root := by
    rw [Param.schemaNames_relocateAll, Param.compileChain_relocate]
    exact of.root
  suffixes := of.suffixes
  count := by
    rw [Param.schemaNames_relocateAll]
    exact of.count
  bodies := of.bodies

/-- **The body of a name is the chain of its definition**, compiled where the definition stands. -/
theorem exists_body (of : OfSuffixed chain suffixes template) {scopes : List Scope}
    {params : List Param} {tag : Option ErrorTag} {name : String}
    (occurs : Param.Occurs chain scopes (.mk "define" params tag))
    (named : Param.schemaName? params = some name) :
    ∃ lexeme body handle steps, params = .token lexeme :: body ∧
      Param.handle (Param.schemaNames chain) name = .ok handle ∧
      Param.compileChain (Param.schemaNames chain) scopes body = .ok steps ∧
      template.bodies[handle]? = some steps := by
  obtain ⟨lexeme, body, rfl, identifier, isChain⟩ := (of.formed.occurring occurs).shapes.2.1 rfl
  obtain ⟨step, compiles, within⟩ := occurs.compiles of.formed of.root
  cases Invocation.tag_eq_none_of_compile (by decide) compiles
  rw [Invocation.compile_define identifier isChain] at compiles
  obtain ⟨handle, handled, others⟩ := bind_eq_ok.mp compiles
  obtain ⟨steps, compiled, same⟩ := bind_eq_ok.mp others
  cases same
  cases (Param.schemaName?_token identifier).symm.trans named
  exact ⟨lexeme, body, handle, steps, rfl, handled, compiled,
    of.bodies _ (within List.mem_cons_self)⟩

end Template.OfSuffixed

/-- **A text that compiles is a chain with suffixes behind it**, and this is its template. -/
theorem Template.exists_ofSuffixed {text : String} {forest : List Param} {template : Template}
    (parses : Grammar.parse text = .ok forest) (compiles : ofText text = .ok template) :
    ∃ chain suffixes, forest = chain ++ List.map Suffix.node suffixes ∧
      OfSuffixed chain suffixes template := by
  rw [ofText_eq parses] at compiles
  obtain ⟨chain, suffixes, rfl, formed⟩ := Grammar.forest_of_parse parses
  exact ⟨chain, suffixes, rfl, formed.ofSuffixed compiles⟩

/-! ### Suffixes of forests that vary -/

theorem Suffix.node_injective {first second : Suffix} (same : first.node = second.node) :
    first = second := by
  have compiled := congrArg Param.compileSuffix same
  rw [compileSuffix_node, compileSuffix_node] at compiled
  exact Except.ok.inj compiled

theorem Suffix.plain_params (suffix : Suffix) :
    ∀ param ∈ suffix.params, param.invocation? = none := by
  rcases suffix with (_ | _) | _ <;> simp [Suffix.params, Param.invocation?]

theorem Suffix.relocate_node (move : Nat → Nat) (suffix : Suffix) :
    suffix.node.relocate move = suffix.node := by
  rcases suffix with (_ | _) | _ <;> rfl

/-- The chain of a forest stands elsewhere if the forest does. -/
theorem Param.relocateAll_suffixed (move : Nat → Nat) (chain : List Param)
    (suffixes : List Suffix) :
    relocateAll move (chain ++ suffixes.map Suffix.node) =
      relocateAll move chain ++ suffixes.map Suffix.node := by
  simp only [relocateAll_eq_map, List.map_append, List.map_map, Function.comp_def,
    Suffix.relocate_node]

section Suffixed

variable {variation : Invocation.Variation}

/-- What is exchanged is a suffix on both sides or on none. -/
def Invocation.Variation.KeepsSuffixes (variation : Invocation.Variation) : Prop :=
  ∀ {first second}, variation.exchanges first second →
    first.isSuffix = false ∧ second.isSuffix = false

namespace Param

theorem Varies.isSuffix_eq (keeps : variation.KeepsSuffixes) {param other : Param}
    (varies : Varies variation param other) : param.isSuffix = other.isSuffix := by
  cases varies with
  | plain => rfl
  | invocation varies =>
      cases varies with
      | exchanged exchanges =>
          obtain ⟨first, second⟩ := keeps exchanges
          exact first.trans second.symm
      | kept => rfl

/-- Suffixes do not vary. -/
theorem Varies.node_eq (keeps : variation.KeepsSuffixes) {suffix other : Suffix}
    (varies : Varies variation suffix.node other.node) : suffix = other := by
  refine Suffix.node_injective ?_
  generalize second : other.node = param at varies
  cases varies with
  | plain => rfl
  | invocation varies =>
      cases varies with
      | exchanged exchanges =>
          have suffixed := suffix.isSuffix_node
          cases suffixed.symm.trans (keeps exchanges).1
      | kept inside _ _ =>
          cases inside.eq_of_plain suffix.plain_params
          have untagged := (Invocation.mk.inj (Param.validator.inj second)).2.2
          rw [← untagged]
          rfl

theorem AllVary.nodes_eq (keeps : variation.KeepsSuffixes) {suffixes further : List Suffix}
    (vary : AllVary variation (suffixes.map Suffix.node) (further.map Suffix.node)) :
    suffixes = further := by
  induction suffixes generalizing further with
  | nil =>
      cases further with
      | nil => rfl
      | cons => cases vary
  | cons suffix rest ih =>
      cases further with
      | nil => cases vary
      | cons other more =>
          cases vary with
          | cons here later => rw [here.node_eq keeps, ih later]

/-- **Where forests vary, so do their chains, and their suffixes are the same.** -/
theorem AllVary.of_suffixed (keeps : variation.KeepsSuffixes) {chain other : List Param}
    {suffixes further : List Suffix} (unsuffixed : ∀ param ∈ chain, param.isSuffix = false)
    (unsuffixedOther : ∀ param ∈ other, param.isSuffix = false)
    (vary : AllVary variation (chain ++ suffixes.map Suffix.node)
      (other ++ further.map Suffix.node)) :
    AllVary variation chain other ∧ suffixes = further := by
  induction chain generalizing other with
  | nil =>
      cases other with
      | nil => exact ⟨.nil, vary.nodes_eq keeps⟩
      | cons param rest =>
          cases suffixes with
          | nil => cases vary
          | cons suffix more =>
              cases vary with
              | cons here _ =>
                  have plain := unsuffixedOther param List.mem_cons_self
                  rw [← here.isSuffix_eq keeps, suffix.isSuffix_node] at plain
                  cases plain
  | cons param rest ih =>
      obtain ⟨plain, behind⟩ := List.forall_mem_cons.mp unsuffixed
      cases other with
      | nil =>
          cases further with
          | nil => cases vary
          | cons suffix more =>
              cases vary with
              | cons here _ =>
                  rw [here.isSuffix_eq keeps, suffix.isSuffix_node] at plain
                  cases plain
      | cons second more =>
          cases vary with
          | cons here later =>
              obtain ⟨inside, same⟩ := ih behind (List.forall_mem_cons.mp unsuffixedOther).2 later
              exact ⟨.cons here inside, same⟩

end Param

/-! ### Counterparts -/

/-- **A chain that varies from another one defines the same schemas.** A definition inside what is
exchanged stands elsewhere, and has no field operands. -/
structure Param.Counterparts (variation : Invocation.Variation) (chain other : List Param) :
    Prop where
  vary : AllVary variation chain other
  retags : ∀ tag, variation.retags tag tag
  compiles : variation.Compiles (schemaNames chain) (schemaNames other)
  names : (schemaNames chain).Perm (schemaNames other)
  moved : ∀ {params tag}, variation.Holds (.mk "define" params tag) → referencedFields params = [] ∧
    ∃ scopes, Occurs other scopes (.mk "define" params tag)

namespace Param.Counterparts

variable {chain other : List Param} {suffixes : List Suffix} {template : Template}

/-- **The definition of a name stands in both chains**, and compiles to like chains. -/
theorem exists_bodies (counterparts : Counterparts variation chain other) {further : Template}
    (of : Template.OfSuffixed chain suffixes template)
    (ofOther : Template.OfSuffixed other suffixes further) {handle otherHandle : Nat}
    (related : (variation.likeness (schemaNames chain) (schemaNames other)).handles handle
      otherHandle) :
    ∃ body changed, template.bodies[handle]? = some body ∧
      further.bodies[otherHandle]? = some changed ∧
      Step.ChainLike (variation.likeness (schemaNames chain) (schemaNames other)) body changed := by
  obtain ⟨name, handled, handledOther⟩ := related
  obtain ⟨scopes, params, tag, occurs, named⟩ :=
    defines_of_mem (List.mem_of_getElem? (getElem?_of_handle handled))
  obtain ⟨lexeme, body, _, steps, rfl, same, compiled, found⟩ := of.exists_body occurs named
  cases handled.symm.trans same
  -- the definition of the same name in the other chain
  have there :
      ∃ outer changed tag, Occurs other outer (.mk "define" (.token lexeme :: changed) tag) ∧
      ∃ more, compileChain (schemaNames other) outer changed = .ok more ∧
        Step.ChainLike (variation.likeness (schemaNames chain) (schemaNames other)) steps more := by
    rcases counterparts.vary.occurs occurs with held | ⟨params, tag, place, inside, -⟩
    · obtain ⟨closed, outer, place⟩ := counterparts.moved held
      obtain ⟨more, compiledOther, like⟩ := compileChain_varies counterparts.compiles body body _ _
        (.refl counterparts.retags body) compiled
      rw [compileChain_scopes body closed scopes outer] at compiledOther
      exact ⟨outer, body, tag, place, more, compiledOther, like⟩
    · cases inside with
      | cons here inside =>
          cases here with
          | plain =>
              exact ⟨scopes, _, tag, place,
                compileChain_varies counterparts.compiles body _ _ _ inside compiled⟩
  obtain ⟨outer, changed, tag, place, more, compiledOther, like⟩ := there
  obtain ⟨_, _, _, _, same, sameHandle, compiledAgain, foundOther⟩ :=
    ofOther.exists_body place named
  cases same
  cases handledOther.symm.trans sameHandle
  cases compiledOther.symm.trans compiledAgain
  exact ⟨steps, more, found, foundOther, like⟩

/-- **If a chain compiles, so does one that varies from it**, to a template that is alike. -/
theorem exists_template (counterparts : Counterparts variation chain other)
    (of : Template.OfSuffixed chain suffixes template) (formedOther : Formed other) :
    ∃ further, Template.ofForest (other ++ suffixes.map Suffix.node) = .ok further ∧
      Template.OfSuffixed other suffixes further ∧
      Template.Alike (variation.likeness (schemaNames chain) (schemaNames other)) template
        further := by
  obtain ⟨root, compiled, like⟩ :=
    compileChain_varies counterparts.compiles chain other _ _ counterparts.vary of.root
  obtain ⟨further, made, rfl⟩ :=
    formedOther.exists_ofSuffixed (counterparts.names.nodup_iff.mp of.distinct) compiled suffixes
  have ofOther := formedOther.ofSuffixed made
  exact ⟨further, made, ofOther, like, fun _ _ => counterparts.exists_bodies of ofOther⟩

end Param.Counterparts

/-- **If a text compiles, so does one whose forest varies from its forest**, to a template that is
alike. -/
theorem Template.exists_alike {first second : String} {forest changed : List Param}
    {template : Template} (parses : Grammar.parse first = .ok forest)
    (parsesOther : Grammar.parse second = .ok changed)
    (compiles : ofText first = .ok template) (keeps : variation.KeepsSuffixes)
    (vary : Param.AllVary variation (Param.unplaced forest) (Param.unplaced changed))
    (counterparts : ∀ chain other suffixes,
      Param.unplaced forest = chain ++ List.map Suffix.node suffixes →
      Param.unplaced changed = other ++ List.map Suffix.node suffixes →
      OfSuffixed chain suffixes template → Param.Formed other →
      Param.AllVary variation chain other → Param.Counterparts variation chain other) :
    ∃ further, ofText second = .ok further ∧ further.suffixes = template.suffixes ∧
      further.schemaCount = template.schemaCount ∧
      ∃ names others, Alike (variation.likeness names others) template further := by
  obtain ⟨chain, suffixes, rfl, of⟩ := exists_ofSuffixed parses compiles
  obtain ⟨other, furtherSuffixes, rfl, formed⟩ := Grammar.forest_of_parse parsesOther
  replace of := of.relocateAll fun _ => 0
  replace formed := @Param.Formed.relocateAll (fun _ => 0) _ formed
  have whole := Param.relocateAll_suffixed (fun _ => 0) chain suffixes
  have wholeOther := Param.relocateAll_suffixed (fun _ => 0) other furtherSuffixes
  unfold Param.unplaced at vary counterparts
  rw [whole, wholeOther] at vary
  obtain ⟨chainsVary, rfl⟩ := vary.of_suffixed keeps (fun _ => of.formed.isSuffix_eq_false)
    fun _ => formed.isSuffix_eq_false
  have counterpart := counterparts _ _ _ whole wholeOther of formed chainsVary
  obtain ⟨further, made, ofOther, alike⟩ := counterpart.exists_template of formed
  refine ⟨further, ?_, ofOther.suffixes.trans of.suffixes.symm, ?_, _, _, alike⟩
  · rw [ofText_eq parsesOther, ← ofForest_relocate fun _ => 0, wholeOther]
    exact made
  · rw [ofOther.count, of.count, counterpart.names.length_eq]

end Suffixed

end Schemata
