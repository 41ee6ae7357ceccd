/-
**The forests of texts are well formed.**

Every invocation in the forest of a text comes from an entry of the grammar, whose keyword decides
which rule has built its parameters.

* `Builds.of_chain`, `Builds.of_field` and `Builds.of_value`: what the parts of parameters add to a
  frame;
* `Headed.formed`: a keyword with the parameters that its rule builds is well formed;
* `Invocation.Built.inside`: the invocations inside one that an entry has built come from entries
  too;
* `Grammar.forest_of_parse`: the forest of a text is a well-formed chain with suffixes behind it.
-/

import Schemata.Proofs.Compilation.Names
import Schemata.Proofs.Language.Classification
import Schemata.Proofs.Language.Membership

namespace Schemata

theorem Param.IsChain.append {first second : List Param} (chain : IsChain first)
    (invocations : areInvocations second = true) : IsChain (first ++ second) where
  nonempty := List.append_ne_nil_of_left_ne_nil chain.nonempty _
  invocations := by
    have here := chain.invocations
    unfold areInvocations at *
    rw [List.all_append, here, invocations]
    rfl

namespace Grammar

/-! ### Parts of parameters -/

section Parts

variable {items : List Item} {frame result : Frame} {taken : List Lexeme}

/-- What every turn of a repetition preserves of the nodes behind a frame holds of them at its
end. -/
theorem Builds.of_many {body : List Item} {good : Lexeme → Prop} (holds : List Param → Prop)
    {nodes : List Param} (builds : Builds (.many body :: items) (frame ++ nodes) taken result)
    (proper : ∀ lexeme ∈ taken, good lexeme) (start : holds nodes)
    (step : ∀ {nodes : List Param} {taken : List Lexeme} {middle : Frame},
      (∀ lexeme ∈ taken, good lexeme) → holds nodes → Builds body (frame ++ nodes) taken middle →
        ∃ others, holds others ∧ middle = frame ++ others) :
    ∃ others rest, holds others ∧ (∀ lexeme ∈ rest, good lexeme) ∧
      Builds items (frame ++ others) rest result := by
  generalize same : Item.many body :: items = whole at builds
  generalize behind : frame ++ nodes = before at builds
  induction builds generalizing nodes with
  | stop later =>
      cases same
      exact ⟨nodes, _, start, proper, behind ▸ later⟩
  | again inside later _ ih =>
      cases same
      subst behind
      obtain ⟨here, further⟩ := List.forall_mem_append.mp proper
      obtain ⟨others, kept, same⟩ := step here start inside
      exact ih further kept rfl same.symm
  | _ => cases same

/-- An optional sequence is there or not. -/
theorem Builds.of_optional {body : List Item}
    (builds : Builds (.optional body :: items) frame taken result)
    (proper : ∀ lexeme ∈ taken, lexeme.Proper) :
    ∃ first middle rest, (∀ lexeme ∈ first, lexeme.Proper) ∧ (∀ lexeme ∈ rest, lexeme.Proper) ∧
      (Builds body frame first middle ∨ middle = frame) ∧ Builds items middle rest result := by
  cases builds with
  | choice member inside later =>
      obtain ⟨here, further⟩ := List.forall_mem_append.mp proper
      simp only [List.mem_cons, List.not_mem_nil, or_false] at member
      rcases member with rfl | rfl
      · exact ⟨_, _, _, here, further, .inl inside, later⟩
      · cases inside
        exact ⟨[], _, _, nofun, further, .inr rfl, later⟩

/-- An entry adds an invocation. -/
theorem Builds.of_entry (builds : Builds (.rule .entry :: items) frame taken result)
    (proper : ∀ lexeme ∈ taken, lexeme.Proper) :
    ∃ invocation rest, (∀ lexeme ∈ rest, lexeme.Proper) ∧
      Builds items (frame ++ [Param.validator invocation]) rest result := by
  obtain ⟨first, nodes, middle, rest, rfl, -, -, reduces, later⟩ := builds.constructed rfl
  obtain ⟨invocation, -, rfl⟩ := Option.map_eq_some_iff.mp reduces
  exact ⟨invocation, rest, (List.forall_mem_append.mp proper).2, later⟩

/-- **A chain adds invocations**, at least one. -/
theorem Builds.chain (builds : Builds (RuleName.definition .chain).items frame taken result)
    (proper : ∀ lexeme ∈ taken, lexeme.Proper) :
    ∃ chain, Param.IsChain chain ∧ result = frame ++ chain := by
  obtain ⟨invocation, others, properOthers, more⟩ := builds.of_entry proper
  obtain ⟨chain, _, isChain, -, _ | _⟩ := more.of_many Param.IsChain properOthers
    ⟨List.cons_ne_nil _ _, rfl⟩ fun {nodes} {taken} {middle} proper chain builds => by
      have adds : ∀ {taken : List Lexeme}, (∀ lexeme ∈ taken, lexeme.Proper) →
          Builds [.rule .entry] (frame ++ nodes) taken middle →
            ∃ others, Param.IsChain others ∧ middle = frame ++ others := by
        intro taken proper builds
        obtain ⟨invocation, _, -, _ | _⟩ := builds.of_entry proper
        exact ⟨nodes ++ [Param.validator invocation], chain.append rfl, List.append_assoc _ _ _⟩
      obtain _ | _ | _ | _ | ⟨member, inside, _ | _⟩ := builds
      rw [List.append_nil] at proper
      simp only [List.mem_cons, List.not_mem_nil, or_false] at member
      rcases member with rfl | rfl
      · obtain ⟨colon, rest, rfl, -, entry⟩ := inside.silent proper rfl
        exact adds (List.forall_mem_cons.mp proper).2 entry
      · exact adds proper inside
  exact ⟨chain, isChain, rfl⟩

theorem Builds.of_chain (builds : Builds (.rule .chain :: items) frame taken result)
    (proper : ∀ lexeme ∈ taken, lexeme.Proper) :
    ∃ chain rest, Param.IsChain chain ∧ (∀ lexeme ∈ rest, lexeme.Proper) ∧
      Builds items (frame ++ chain) rest result := by
  obtain ⟨first, middle, rest, rfl, inside, -, later⟩ := builds.plain rfl
  obtain ⟨properFirst, properRest⟩ := List.forall_mem_append.mp proper
  obtain ⟨chain, isChain, rfl⟩ := inside.chain properFirst
  exact ⟨chain, rest, isChain, properRest, later⟩

/-- The name of a field is one. -/
theorem Single.fieldName {alternative : List Item} {node : Param}
    (single : Single alternative taken node) (names : alternative ∈ fieldNames) :
    node.fieldName?.isSome := by
  cases single with
  | text => rfl
  | injection => simp [fieldNames] at names
  | token lexeme =>
      have other : lexeme.kind ≠ .comma := by
        intro comma
        simp [fieldNames, nameKeywords, comma] at names
      simp [Param.fieldName?, other]

/-- **A field adds its name and its chain.** -/
theorem Builds.of_field (builds : Builds (.rule .field :: items) frame taken result)
    (proper : ∀ lexeme ∈ taken, lexeme.Proper) :
    ∃ start chain rest, start.fieldName?.isSome ∧ Param.IsChain chain ∧
      (∀ lexeme ∈ rest, lexeme.Proper) ∧ Builds items (frame ++ start :: chain) rest result := by
  obtain ⟨first, middle, rest, rfl, inside, -, later⟩ := builds.plain rfl
  obtain ⟨properFirst, properRest⟩ := List.forall_mem_append.mp proper
  obtain ⟨alternative, member, start, _, others, rfl, single, more⟩ :=
    inside.of_singles rfl properFirst
  obtain ⟨colon, between, _, properColon, properChain, either, more⟩ :=
    more.of_optional (List.forall_mem_append.mp properFirst).2
  have same : between = frame ++ [start] := by
    rcases either with here | none
    · obtain ⟨_, _, -, -, _ | _⟩ := here.silent properColon rfl
      rfl
    · exact none
  subst same
  obtain ⟨chain, _, isChain, -, _ | _⟩ := more.of_chain properChain
  refine ⟨start, chain, rest, single.fieldName member, isChain, properRest, ?_⟩
  rwa [List.append_assoc] at later

/-- A value is one. -/
theorem Single.isValue {alternative : List Item} {node : Param}
    (single : Single alternative taken node) (value : alternative ∈ RuleName.alternatives .value)
    (proper : ∀ lexeme ∈ taken, lexeme.Proper) : node.IsValue := by
  cases single with
  | text | injection => trivial
  | token lexeme =>
      have either : lexeme.kind = .number ∨ lexeme.kind = .constant := by
        simpa [RuleName.alternatives, RuleName.definition] using value
      rcases either with number | constant
      · exact .inl ⟨number, (proper lexeme List.mem_cons_self).number number⟩
      · exact .inr constant

/-- **A value adds itself.** -/
theorem Builds.of_value (builds : Builds (.rule .value :: items) frame taken result)
    (proper : ∀ lexeme ∈ taken, lexeme.Proper) :
    ∃ (node : Param) (rest : List Lexeme), node.IsValue ∧ (∀ lexeme ∈ rest, lexeme.Proper) ∧
      Builds items (frame ++ [node]) rest result := by
  obtain ⟨first, middle, rest, rfl, inside, -, later⟩ := builds.plain rfl
  obtain ⟨properFirst, properRest⟩ := List.forall_mem_append.mp proper
  obtain ⟨alternative, member, node, _, _, rfl, single, _ | _⟩ := inside.of_singles rfl properFirst
  have value := single.isValue member (List.forall_mem_append.mp properFirst).1
  exact ⟨node, rest, value, properRest, later⟩

end Parts

/-! ### Rules of parameters -/

section Params

variable {params : List Param} {taken : List Lexeme}

/-- **The parameters of an object are fields.** -/
theorem Builds.areFields (builds : Builds (RuleName.definition .objectParams).items [] taken params)
    (proper : ∀ lexeme ∈ taken, lexeme.Proper) : Param.AreFields params := by
  obtain ⟨paren, rest, rfl, -, builds⟩ := builds.silent proper rfl
  replace proper := (List.forall_mem_cons.mp proper).2
  obtain ⟨first, middle, _, properFirst, properRest, either, last⟩ := builds.of_optional proper
  obtain ⟨_, _, -, -, _ | _⟩ := last.silent properRest rfl
  rcases either with inside | rfl
  · obtain ⟨start, chain, _, starts, isChain, properMany, many⟩ := inside.of_field properFirst
    obtain ⟨nodes, _, ⟨fields, nonempty⟩, properComma, comma⟩ := many.of_many
      (fun nodes => Param.AreFields nodes ∧ nodes ≠ []) properMany
      ⟨.field .nil starts isChain, List.cons_ne_nil _ _⟩
      fun {nodes} {taken} {middle} proper fields builds => by
        obtain ⟨comma, _, rfl, isComma, field⟩ := builds.carried proper rfl
        obtain ⟨start, chain, _, starts, isChain, -, _ | _⟩ :=
          field.of_field (List.forall_mem_cons.mp proper).2
        exact ⟨nodes ++ [Param.token comma] ++ start :: chain,
          ⟨.field (.comma fields.1 fields.2 isComma) starts isChain, by simp⟩, rfl⟩
    obtain ⟨_, _, _, properComma, -, either, _ | _⟩ := comma.of_optional properComma
    rcases either with last | rfl
    · obtain ⟨comma, _, -, isComma, _ | _⟩ := last.carried properComma rfl
      exact .comma fields nonempty isComma
    · exact fields
  · exact .nil

/-- The parameters of an array are invocations. -/
theorem Builds.areInvocations
    (builds : Builds (RuleName.definition .arrayParams).items [] taken params)
    (proper : ∀ lexeme ∈ taken, lexeme.Proper) : Param.areInvocations params = true := by
  obtain ⟨paren, rest, rfl, -, builds⟩ := builds.silent proper rfl
  obtain ⟨_, middle, _, properFirst, properRest, either, last⟩ :=
    builds.of_optional (List.forall_mem_cons.mp proper).2
  obtain ⟨_, _, -, -, _ | _⟩ := last.silent properRest rfl
  rcases either with inside | rfl
  · obtain ⟨chain, _, isChain, -, _ | _⟩ := inside.of_chain properFirst
    exact isChain.invocations
  · rfl

/-- The parameter of a comparison is one. -/
theorem Builds.isComparison
    (builds : Builds (RuleName.definition .compareParams).items [] taken params)
    (proper : ∀ lexeme ∈ taken, lexeme.Proper) :
    ∃ comparison, params = [.comparison comparison] := by
  obtain ⟨paren, rest, rfl, -, builds⟩ := builds.silent proper rfl
  replace proper := (List.forall_mem_cons.mp proper).2
  obtain ⟨_, _, _, _, rfl, -, -, reduces, last⟩ := builds.constructed rfl
  obtain ⟨comparison, -, rfl⟩ := Option.map_eq_some_iff.mp reduces
  obtain ⟨_, _, -, -, _ | _⟩ := last.silent (List.forall_mem_append.mp proper).2 rfl
  exact ⟨comparison, rfl⟩

/-- The parameter of a match is a text. -/
theorem Builds.isText (builds : Builds (RuleName.definition .regexParams).items [] taken params)
    (proper : ∀ lexeme ∈ taken, lexeme.Proper) : ∃ text, params = [.text text] := by
  obtain ⟨paren, rest, rfl, -, builds⟩ := builds.silent proper rfl
  replace proper := (List.forall_mem_cons.mp proper).2
  obtain ⟨_, _, _, _, rfl, -, -, reduces, last⟩ := builds.constructed rfl
  obtain ⟨text, -, rfl⟩ := Option.map_eq_some_iff.mp reduces
  obtain ⟨_, _, -, -, _ | _⟩ := last.silent (List.forall_mem_append.mp proper).2 rfl
  exact ⟨text, rfl⟩

/-- The parameter of an equality is a value. -/
theorem Builds.isValue (builds : Builds (RuleName.definition .valueParams).items [] taken params)
    (proper : ∀ lexeme ∈ taken, lexeme.Proper) : ∃ param, params = [param] ∧ param.IsValue := by
  obtain ⟨paren, rest, rfl, -, builds⟩ := builds.silent proper rfl
  obtain ⟨param, _, value, proper, last⟩ := builds.of_value (List.forall_mem_cons.mp proper).2
  obtain ⟨_, _, -, -, _ | _⟩ := last.silent proper rfl
  exact ⟨param, rfl, value⟩

/-- **The parameters of a membership are values**, at least one, and commas. -/
theorem Builds.areValues (builds : Builds (RuleName.definition .listParams).items [] taken params)
    (proper : ∀ lexeme ∈ taken, lexeme.Proper) :
    (∀ param ∈ params, param.IsValue ∨ (param.token? .comma).isSome) ∧
      ∃ param ∈ params, param.IsValue := by
  obtain ⟨paren, rest, rfl, -, builds⟩ := builds.silent proper rfl
  obtain ⟨first, _, value, properMany, many⟩ := builds.of_value (List.forall_mem_cons.mp proper).2
  obtain ⟨nodes, _, ⟨values, member⟩, properLast, last⟩ := many.of_many
    (fun nodes => (∀ param ∈ nodes, param.IsValue ∨ (param.token? .comma).isSome) ∧ first ∈ nodes)
    properMany ⟨List.forall_mem_singleton.mpr (.inl value), List.mem_singleton_self _⟩
    fun {nodes} {taken} {middle} proper kept builds => by
      obtain ⟨comma, _, rfl, isComma, more⟩ := builds.carried proper rfl
      obtain ⟨param, _, value, -, _ | _⟩ := more.of_value (List.forall_mem_cons.mp proper).2
      refine ⟨nodes ++ [Param.token comma] ++ [param], ⟨?_, ?_⟩, rfl⟩
      · refine List.forall_mem_append.mpr ⟨List.forall_mem_append.mpr ⟨kept.1, ?_⟩, ?_⟩
        · exact List.forall_mem_singleton.mpr (.inr (by simp [Param.token?, isComma]))
        · exact List.forall_mem_singleton.mpr (.inl value)
      · exact List.mem_append_left _ (List.mem_append_left _ kept.2)
  obtain ⟨_, _, -, -, _ | _⟩ := last.silent properLast rfl
  exact ⟨values, first, member, value⟩

/-- The parameters of a definition are an identifier and a chain. -/
theorem Builds.isDefinition
    (builds : Builds (RuleName.definition .defineParams).items [] taken params)
    (proper : ∀ lexeme ∈ taken, lexeme.Proper) :
    ∃ lexeme body, params = .token lexeme :: body ∧ lexeme.kind = .identifier ∧
      Param.IsChain body := by
  obtain ⟨lexeme, _, rfl, identifier, builds⟩ := builds.carried proper rfl
  replace proper := (List.forall_mem_cons.mp proper).2
  obtain ⟨paren, _, rfl, -, builds⟩ := builds.silent proper rfl
  obtain ⟨chain, _, isChain, proper, last⟩ := builds.of_chain (List.forall_mem_cons.mp proper).2
  obtain ⟨_, _, -, -, _ | _⟩ := last.silent proper rfl
  exact ⟨lexeme, chain, rfl, identifier, isChain⟩

/-- The parameter of a reference is an identifier. -/
theorem Builds.isReference
    (builds : Builds (RuleName.definition .referenceParams).items [] taken params)
    (proper : ∀ lexeme ∈ taken, lexeme.Proper) :
    ∃ lexeme, params = [.token lexeme] ∧ lexeme.kind = .identifier := by
  obtain ⟨lexeme, _, rfl, identifier, _ | _⟩ := builds.carried proper rfl
  exact ⟨lexeme, rfl, identifier⟩

end Params

/-! ### Entries -/

/-- **A keyword with the parameters that its rule builds is well formed.** -/
theorem Headed.formed {alternative : List Item} {taken : List Lexeme} {lexeme : Lexeme}
    {params : List Param} (headed : Headed alternative taken lexeme params)
    (member : alternative ∈ RuleName.alternatives .validator)
    (canonical : ∀ lexeme ∈ taken, lexeme.Canonical) (tag : Option ErrorTag) :
    Invocation.Formed (.mk lexeme.value params tag) := by
  cases headed with
  | bare =>
      have spelled := @(canonical lexeme List.mem_cons_self).spelling
      have kinds : lexeme.kind = .primitive ∨ lexeme.kind = .object ∨ lexeme.kind = .array := by
        simpa [RuleName.alternatives, RuleName.definition] using member
      rcases kinds with kind | kind | kind
      · have named := spelled (fun name => (Primitive.ofName? name).isSome) kind rfl (by decide)
        obtain ⟨primitive, named⟩ := Option.isSome_iff_exists.mp named
        exact .primitive named
      · rw [spelled (· = "object") kind rfl (by decide)]
        exact .object .nil
      · rw [spelled (· = "array") kind rfl (by decide)]
        exact .array rfl
  | @params name rest params lexeme inside =>
      obtain ⟨canonicalHere, canonicalRest⟩ := List.forall_mem_cons.mp canonical
      have spelled := @canonicalHere.spelling
      have proper : ∀ lexeme ∈ rest, lexeme.Proper :=
        fun lexeme member => (canonicalRest lexeme member).toProper
      simp only [RuleName.alternatives, RuleName.definition, List.mem_cons,
        List.not_mem_nil, or_false,
        List.cons.injEq, Item.token.injEq, Item.rule.injEq, and_true, reduceCtorEq, and_false,
        false_or] at member
      rcases member with ⟨kind, rfl⟩ | ⟨kind, rfl⟩ | ⟨kind, rfl⟩ | ⟨kind, rfl⟩ | ⟨kind, rfl⟩ |
        ⟨kind, rfl⟩ | ⟨kind, rfl⟩ | ⟨kind, rfl⟩ | ⟨kind, rfl⟩
      · rw [spelled (· = "object") kind rfl (by decide)]
        exact .object (inside.areFields proper)
      · rw [spelled (· = "array") kind rfl (by decide)]
        exact .array (inside.areInvocations proper)
      · obtain ⟨comparison, rfl⟩ := inside.isComparison proper
        exact .comparison (spelled (· ∈ comparators) kind rfl (by decide))
      · obtain ⟨comparison, rfl⟩ := inside.isComparison proper
        exact .comparison (spelled (· ∈ comparators) kind rfl (by decide))
      · obtain ⟨text, rfl⟩ := inside.isText proper
        rw [spelled (· = "regex") kind rfl (by decide)]
        exact .regex
      · obtain ⟨param, rfl, value⟩ := inside.isValue proper
        have equates :=
          spelled (fun name => name = "equal" ∨ name = "notEqual") kind rfl (by decide)
        exact .equality equates value
      · rw [spelled (· = "oneOf") kind rfl (by decide)]
        obtain ⟨values, some⟩ := inside.areValues proper
        exact .oneOf values some
      · rw [spelled (· = "define") kind rfl (by decide)]
        obtain ⟨_, _, rfl, identifier, chain⟩ := inside.isDefinition proper
        exact .define identifier chain
      · rw [spelled (· = "reference") kind rfl (by decide)]
        obtain ⟨_, rfl, identifier⟩ := inside.isReference proper
        exact .reference identifier

/-- The rules that use suffixes, or put invocations into a frame without an entry. -/
def entryless : List RuleName :=
  RuleName.all.filter fun name => name = .program || name = .suffix || name = .validator ||
    name.definition.construct = some .params

end Grammar

/-- **An invocation that an entry has built**, of lexemes as they come from a text. -/
def Invocation.Built (invocation : Invocation) : Prop :=
  ∃ taken nodes, (∀ lexeme ∈ taken, lexeme.Canonical) ∧
    Grammar.Builds (Grammar.RuleName.definition .entry).items [] taken nodes ∧
      Grammar.invocation? nodes = some invocation

namespace Grammar

theorem Item.sequenceAvoids_of_mem {names : List RuleName} {alternatives : List (List Item)}
    {alternative : List Item} (avoids : Item.allAvoid names alternatives = true)
    (member : alternative ∈ alternatives) : Item.sequenceAvoids names alternative = true := by
  induction alternatives with
  | nil => cases member
  | cons items alternatives ih =>
      obtain ⟨here, later⟩ := Bool.and_eq_true_iff.mp avoids
      rcases List.mem_cons.mp member with rfl | member
      · exact here
      · exact ih later member

/-- Parameters use rules that get their invocations from entries. -/
theorem RuleName.definition_avoids_entryless {name : RuleName}
    (within : name ∉ entryless ∧ name.definition.construct = none ∨
      name.definition.construct = some .params) :
    Item.sequenceAvoids entryless name.definition.items = true := by
  revert within
  cases name <;> decide

/-- Nodes that a construct adds, but for entries and parameters, are no invocations. -/
theorem mem_of_reduce? {construct : Construct} {nodes frame middle : Frame}
    (reduces : construct.reduce? nodes frame = some middle)
    (other : construct ≠ .params ∧ construct ≠ .entry) {invocation : Invocation}
    (member : .validator invocation ∈ middle) : .validator invocation ∈ frame := by
  cases construct with
  | params => exact absurd rfl other.1
  | entry => exact absurd rfl other.2
  | text | comparator =>
      obtain ⟨_, -, rfl⟩ := Option.map_eq_some_iff.mp reduces
      simpa using member
  | injection =>
      obtain ⟨_, -, reads⟩ := Option.bind_eq_some_iff.mp reduces
      obtain ⟨_, -, same⟩ := Option.bind_eq_some_iff.mp reads
      cases same
      simpa using member

/-- **Every invocation in a frame comes from an entry**, if all those before do. -/
theorem Builds.built {items : List Item} {frame result : Frame} {taken : List Lexeme}
    (builds : Builds items frame taken result) : (∀ lexeme ∈ taken, lexeme.Canonical) →
      Item.sequenceAvoids entryless items = true →
      (∀ invocation, .validator invocation ∈ frame → invocation.Built) →
        ∀ invocation, .validator invocation ∈ result → invocation.Built := by
  induction builds with
  | nil => exact fun _ _ known => known
  | @token _ lexeme _ frame _ _ _ _ ih =>
      intro canonical avoids known
      refine ih (List.forall_mem_cons.mp canonical).2 avoids fun invocation member => ?_
      unfold pushed at member
      split at member
      · rcases List.mem_append.mp member with member | member
        · exact known invocation member
        · cases List.mem_singleton.mp member
      · exact known invocation member
  | rule plain _ _ _ ih ihLater =>
      intro canonical avoids known
      obtain ⟨canonicalHere, canonicalLater⟩ := List.forall_mem_append.mp canonical
      obtain ⟨here, later⟩ := Bool.and_eq_true_iff.mp avoids
      have inner := RuleName.definition_avoids_entryless (.inl ⟨of_decide_eq_true here, plain⟩)
      exact ihLater canonicalLater later (ih canonicalHere inner known)
  | @construct name construct _ _ nodes _ _ taken _ constructs inside _ reduces _ _ ihLater =>
      intro canonical avoids known
      obtain ⟨canonicalHere, canonicalLater⟩ := List.forall_mem_append.mp canonical
      obtain ⟨here, later⟩ := Bool.and_eq_true_iff.mp avoids
      replace here : name ∉ entryless := of_decide_eq_true here
      refine ihLater canonicalLater later fun invocation member => ?_
      by_cases entry : construct = .entry
      · subst entry
        have same : name = .entry := by
          revert here constructs
          cases name <;> decide
        subst same
        obtain ⟨built, invokes, rfl⟩ := Option.map_eq_some_iff.mp reduces
        rcases List.mem_append.mp member with member | member
        · exact known invocation member
        · cases List.mem_singleton.mp member
          exact ⟨taken, nodes, canonicalHere, inside, invokes⟩
      · have other : construct ≠ .params := by
          rintro rfl
          revert here constructs
          cases name <;> decide
        exact known invocation (mem_of_reduce? reduces ⟨other, entry⟩ member)
  | choice member _ _ ih ihLater =>
      intro canonical avoids known
      obtain ⟨canonicalHere, canonicalLater⟩ := List.forall_mem_append.mp canonical
      obtain ⟨here, later⟩ := Bool.and_eq_true_iff.mp avoids
      exact ihLater canonicalLater later
        (ih canonicalHere (Item.sequenceAvoids_of_mem here member) known)
  | stop _ ih => exact fun canonical avoids => ih canonical (Bool.and_eq_true_iff.mp avoids).2
  | again _ _ ih ihLater =>
      intro canonical avoids known
      obtain ⟨canonicalHere, canonicalLater⟩ := List.forall_mem_append.mp canonical
      obtain ⟨here, -⟩ := Bool.and_eq_true_iff.mp avoids
      exact ihLater canonicalLater avoids (ih canonicalHere here known)

end Grammar

namespace Invocation.Built

/-- **An invocation that an entry has built is well formed.** -/
theorem formed {invocation : Invocation} (built : invocation.Built) : invocation.Formed := by
  obtain ⟨taken, nodes, canonical, builds, invokes⟩ := built
  have proper := fun lexeme member => (canonical lexeme member).toProper
  obtain ⟨alternative, member, first, rest, lexeme, params, tag, rfl, headed, same⟩ :=
    builds.entry proper
  cases invokes.symm.trans same
  exact headed.formed member (List.forall_mem_append.mp canonical).1 tag

/-- **The invocations inside one that an entry has built come from entries too.** -/
theorem inside {validator : String} {params : List Param} {tag : Option ErrorTag}
    {invocation : Invocation} (built : Built (.mk validator params tag))
    (within : .validator invocation ∈ params) : invocation.Built := by
  obtain ⟨taken, nodes, canonical, builds, invokes⟩ := built
  have proper := fun lexeme member => (canonical lexeme member).toProper
  obtain ⟨alternative, member, first, rest, lexeme, params, tag, rfl, headed, same⟩ :=
    builds.entry proper
  cases invokes.symm.trans same
  cases headed with
  | bare => cases within
  | @params name taken params lexeme inside =>
      have headed := List.all_eq_true.mp (show (Grammar.RuleName.alternatives .validator).all
        Grammar.Item.isHeaded = true from rfl) _ member
      have constructs := of_decide_eq_true (Bool.and_eq_true_iff.mp headed).2
      have canonicalFirst := (List.forall_mem_append.mp canonical).1
      exact inside.built (List.forall_mem_cons.mp canonicalFirst).2
        (Grammar.RuleName.definition_avoids_entryless (.inr constructs)) nofun invocation within

end Invocation.Built

/-- What occurs in a chain of entries has been built by one. -/
theorem Param.Occurs.built {chain : List Param}
    (built : ∀ invocation, .validator invocation ∈ chain → invocation.Built) {scopes : List Scope}
    {invocation : Invocation} (occurs : Occurs chain scopes invocation) : invocation.Built := by
  induction occurs with
  | root member => exact built _ member
  | field _ ih => exact ih.inside (List.mem_append_right _ List.mem_cons_self)
  | inside _ _ member ih => exact ih.inside member

namespace Grammar

/-! ### Forests -/

/-- **A suffix adds the node of one.** -/
theorem Builds.of_suffix {items : List Item} {frame result : Frame} {taken : List Lexeme}
    (builds : Builds (.rule .suffix :: items) frame taken result)
    (canonical : ∀ lexeme ∈ taken, lexeme.Canonical) :
    ∃ suffix : Suffix, ∃ rest, (∀ lexeme ∈ rest, lexeme.Canonical) ∧
      Builds items (frame ++ [suffix.node]) rest result := by
  obtain ⟨first, nodes, middle, rest, rfl, inside, -, reduces, later⟩ := builds.constructed rfl
  obtain ⟨canonicalFirst, canonicalRest⟩ := List.forall_mem_append.mp canonical
  have proper := fun lexeme member => (canonicalFirst lexeme member).toProper
  obtain ⟨alternative, member, lexeme, params, headed, invokes⟩ := inside.suffix proper
  obtain ⟨invocation, same, rfl⟩ := Option.map_eq_some_iff.mp reduces
  cases same.symm.trans invokes
  suffices node : ∃ suffix : Suffix, suffix.node = .validator (.mk lexeme.value params none) by
    obtain ⟨suffix, node⟩ := node
    exact ⟨suffix, rest, canonicalRest, node ▸ later⟩
  cases headed with
  | bare =>
      have spelled := @(canonicalFirst lexeme List.mem_cons_self).spelling
      have kinds : lexeme.kind = .errorSuffix ∨ lexeme.kind = .metaSuffix := by
        simpa [RuleName.alternatives, RuleName.definition] using member
      rcases kinds with kind | kind
      · rw [spelled (· = "~error") kind rfl (by decide)]
        exact ⟨.collecting none, rfl⟩
      · rw [spelled (· = "~meta") kind rfl (by decide)]
        exact ⟨.apart, rfl⟩
  | @params name rest params lexeme inside =>
      have spelled := @(canonicalFirst lexeme List.mem_cons_self).spelling
      obtain ⟨kind, rfl⟩ : lexeme.kind = .errorSuffix ∧ name = .suffixArgs := by
        simpa [RuleName.alternatives, RuleName.definition] using member
      rw [spelled (· = "~error") kind rfl (by decide)]
      have properRest := (List.forall_mem_cons.mp proper).2
      obtain ⟨paren, _, rfl, -, args⟩ := inside.silent properRest rfl
      obtain ⟨_, _, _, _, rfl, -, -, reduces, last⟩ := args.constructed rfl
      obtain ⟨_, -, reads⟩ := Option.bind_eq_some_iff.mp reduces
      obtain ⟨index, -, same⟩ := Option.bind_eq_some_iff.mp reads
      cases same
      have properLast := (List.forall_mem_append.mp (List.forall_mem_cons.mp properRest).2).2
      obtain ⟨_, _, -, -, _ | _⟩ := last.silent properLast rfl
      exact ⟨.collecting (some index), rfl⟩

/-- **The forest of a text is a well-formed chain with suffixes behind it.** -/
theorem forest_of_parse {text : String} {forest : List Param} (parses : parse text = .ok forest) :
    ∃ chain suffixes, forest = chain ++ List.map Suffix.node suffixes ∧ Param.Formed chain := by
  obtain ⟨lexemes, tokenizes, interprets⟩ := bind_eq_ok.mp parses
  have canonical := Lexeme.tokenize_canonical tokenizes
  have proper := fun lexeme member => (canonical lexeme member).toProper
  have builds := (interpret_eq_ok_iff proper forest).mp interprets
  obtain ⟨_, _, _, rfl, inside, -, _ | _⟩ := builds.plain rfl
  rw [List.append_nil] at canonical proper
  obtain ⟨first, chain, rest, rfl, chainBuilds, -, suffixBuilds⟩ := inside.plain rfl
  obtain ⟨canonicalFirst, canonicalRest⟩ := List.forall_mem_append.mp canonical
  have chainBuilt := chainBuilds.built canonicalFirst
    (RuleName.definition_avoids_entryless (.inl ⟨by decide, rfl⟩)) nofun
  obtain ⟨_, isChain, rfl⟩ := chainBuilds.chain (List.forall_mem_append.mp proper).1
  rw [← List.append_nil chain] at suffixBuilds
  obtain ⟨nodes, _, ⟨suffixes, rfl⟩, -, _ | _⟩ := suffixBuilds.of_many
    (fun nodes => ∃ suffixes : List Suffix, nodes = suffixes.map Suffix.node) canonicalRest
    ⟨[], rfl⟩ fun {_} {taken} {middle} canonical known builds => by
      obtain ⟨suffixes, rfl⟩ := known
      obtain ⟨suffix, _, -, _ | _⟩ := builds.of_suffix canonical
      exact ⟨_, ⟨suffixes ++ [suffix], by simp⟩, List.append_assoc _ _ _⟩
  refine ⟨chain, suffixes, rfl, ⟨isChain, fun occurs => ?_⟩⟩
  exact (occurs.built chainBuilt).formed

end Grammar

end Schemata
