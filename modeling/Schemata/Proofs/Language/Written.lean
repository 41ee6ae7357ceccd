/-
**Every forest is written by the lexemes that it is interpreted from.**

The relations of `Rendering` miss no way of writing a forest. What an entry builds is read off by
the rules that are open in it; the entries inside it take fewer lexemes.

* `EntriesBelow` says of all entries of fewer than some number of lexemes that they are written so;
* `EntriesBelow.chain` and its companions: so are the chains and the fields of such entries;
* `interpret_eq_ok_iff_renders`: a forest is interpreted from the lexemes that it is written by, and
  from no others.
-/

import Schemata.Proofs.Language.Rendering

namespace Schemata.Grammar

/-! ### Single nodes -/

section Nodes

variable {alternative : List Item} {taken : List Lexeme} {node : Param}

theorem Single.rendersName (single : Single alternative taken node)
    (names : alternative ∈ fieldNames) :
    RendersName node taken := by
  cases single with
  | text renders => exact .text renders
  | injection => simp [fieldNames] at names
  | token lexeme => exact .token (by simpa [fieldNames, or_assoc] using names)

theorem Single.rendersValue (single : Single alternative taken node)
    (value : alternative ∈ RuleName.alternatives .value) : RendersValue node taken := by
  cases single with
  | text renders => exact .text renders
  | injection renders => exact .injection renders
  | token lexeme => exact .token (by simpa [RuleName.alternatives, RuleName.definition] using value)

theorem Single.rendersOperand (single : Single alternative taken node)
    (listed : alternative ∈ operands) {operand : Operand} (stands : operand? node = some operand) :
    RendersOperand operand taken := by
  cases single with
  | text renders =>
      cases stands
      exact .text renders
  | injection renders =>
      cases stands
      exact .injection renders
  | token lexeme =>
      have kinds : lexeme.kind = .number ∨ lexeme.kind = .identifier ∨ lexeme.kind ∈
          nameKeywords := by
        simpa [operands] using listed
      by_cases number : lexeme.kind = .number
      · rw [operand?, if_pos number] at stands
        obtain ⟨datum, reads, rfl⟩ := Option.map_eq_some_iff.mp stands
        exact .number number reads
      · rw [operand?, if_neg number, if_pos (names_field_of_mem_operands listed number)] at stands
        cases stands
        exact .field (kinds.resolve_left number)

end Nodes

/-! ### Parts of parameters -/

section Parts

variable {items : List Item} {frame result : Frame} {taken : List Lexeme}

/-- The parenthesis at the end of some parameters. -/
theorem Builds.closing (builds : Builds [.token .rightParen] frame taken result)
    (proper : ∀ lexeme ∈ taken, lexeme.Proper) :
    ∃ right, taken = [right] ∧ right.kind = .rightParen ∧ result = frame := by
  obtain ⟨right, _, rfl, closes, _ | _⟩ := builds.silent proper rfl
  exact ⟨right, rfl, closes, rfl⟩

/-- A text is written by the lexemes it is built from. -/
theorem Builds.rendersString (builds : Builds (.rule .string :: items) frame taken result)
    (proper : ∀ lexeme ∈ taken, lexeme.Proper) :
    ∃ text first rest, taken = first ++ rest ∧ RendersText text first ∧
      Builds items (frame ++ [Param.text text]) rest result := by
  obtain ⟨first, nodes, middle, rest, rfl, inside, -, reduces, later⟩ := builds.constructed rfl
  obtain ⟨text, joins, rfl⟩ := Option.map_eq_some_iff.mp reduces
  exact ⟨text, first, rest, rfl,
    inside.rendersText (List.forall_mem_append.mp proper).1 joins, later⟩

/-- A value is written by the lexemes it is built from. -/
theorem Builds.rendersValue (builds : Builds (.rule .value :: items) frame taken result)
    (proper : ∀ lexeme ∈ taken, lexeme.Proper) :
    ∃ value first rest, taken = first ++ rest ∧ RendersValue value first ∧
      Builds items (frame ++ [value]) rest result := by
  obtain ⟨first, middle, rest, rfl, inside, -, later⟩ := builds.plain rfl
  obtain ⟨alternative, member, value, front, _, rfl, single, _ | _⟩ :=
    inside.of_singles rfl (List.forall_mem_append.mp proper).1
  rw [List.append_nil]
  exact ⟨value, front, rest, rfl, single.rendersValue member, later⟩

/-- **Values are written by the lexemes they are built from.** -/
theorem Builds.rendersValues
    (builds : Builds (RuleName.definition .listParams).items [] taken result)
    (proper : ∀ lexeme ∈ taken, lexeme.Proper) :
    ∃ inside, Enclosed inside taken ∧ RendersValues result inside := by
  obtain ⟨left, rest, rfl, opens, builds⟩ := builds.silent proper rfl
  replace proper := (List.forall_mem_cons.mp proper).2
  obtain ⟨first, front, behind, rfl, renders, turns⟩ := builds.rendersValue proper
  -- The turns behind a value make it the first of several.
  obtain ⟨values, inside, right, rfl, closes, rfl, leads⟩ := turns.many_induction
    (motive := fun frame taken => (∀ lexeme ∈ taken, lexeme.Proper) →
      ∃ values inside, ∃ right : Lexeme, taken = inside ++ [right] ∧ right.kind = .rightParen ∧
        result = frame ++ values ∧ ∀ value first, RendersValue value first →
          RendersValues (value :: values) (first ++ inside))
    (fun builds proper => by
      obtain ⟨right, rfl, closes, rfl⟩ := builds.closing proper
      exact ⟨[], [], right, rfl, closes, by simp, fun value first renders => by
        simpa using RendersValues.last renders⟩)
    (fun turn ih proper => by
      obtain ⟨properHere, properLater⟩ := List.forall_mem_append.mp proper
      obtain ⟨comma, _, rfl, isComma, turn⟩ := turn.carried properHere rfl
      obtain ⟨other, front, _, rfl, renders, _ | _⟩ :=
        turn.rendersValue (List.forall_mem_cons.mp properHere).2
      obtain ⟨values, inside, right, rfl, closes, rfl, leads⟩ := ih properLater
      refine ⟨.token comma :: other :: values, comma :: (front ++ inside), right, by simp, closes,
        by simp, fun value first first' => .more first' isComma (leads other front renders)⟩)
    (List.forall_mem_append.mp proper).2
  rw [← List.append_assoc]
  exact ⟨_, .mk opens closes, leads first front renders⟩

/-- A comparison is written by the lexemes it is built from. -/
theorem Builds.rendersComparison
    (builds : Builds (RuleName.definition .compareParams).items [] taken result)
    (proper : ∀ lexeme ∈ taken, lexeme.Proper) :
    ∃ operator relation operand inside, Enclosed (operator :: inside) taken ∧
      operator.kind = .operator ∧ Relation.ofSymbol? operator.value = some relation ∧
      RendersOperand operand inside ∧ result = [.comparison ⟨relation, operand⟩] := by
  obtain ⟨left, rest, rfl, opens, builds⟩ := builds.silent proper rfl
  replace proper := (List.forall_mem_cons.mp proper).2
  obtain ⟨first, nodes, middle, rest, rfl, inside, -, reduces, last⟩ := builds.constructed rfl
  obtain ⟨properFirst, properRest⟩ := List.forall_mem_append.mp proper
  obtain ⟨right, rfl, closes, rfl⟩ := last.closing properRest
  obtain ⟨operator, rest, rfl, isOperator, later⟩ := inside.carried properFirst rfl
  obtain ⟨alternative, member, node, front, _, rfl, single, _ | _⟩ :=
    later.of_singles rfl (List.forall_mem_cons.mp properFirst).2
  rw [List.append_nil] at proper ⊢
  obtain ⟨comparison, compares, rfl⟩ := Option.map_eq_some_iff.mp reduces
  simp only [List.nil_append, List.singleton_append, comparison?, Param.token?, if_pos isOperator,
    Option.bind_eq_bind, Option.bind_some, Option.bind_eq_some_iff, Option.some.injEq] at compares
  obtain ⟨relation, reads, operand, stands, rfl⟩ := compares
  exact ⟨operator, relation, operand, front, .mk opens closes, isOperator, reads,
    single.rendersOperand member stands, rfl⟩

/-- **An error tag is written by the lexemes it is built from**, and completes a head. -/
theorem Builds.rendersTag {node : Param} {name : String} {params : List Param}
    (builds : Builds [.optional [.rule .errorTag]] [node] taken result)
    (proper : ∀ lexeme ∈ taken, lexeme.Proper) (heads : head? node = some (.mk name params none)) :
    ∃ tag, RendersTag tag taken ∧ invocation? result = some (.mk name params tag) := by
  obtain _ | _ | _ | _ | ⟨member, inside, _ | _⟩ := builds
  rw [List.append_nil] at proper ⊢
  simp only [List.mem_cons, List.not_mem_nil, or_false] at member
  rcases member with rfl | rfl
  · obtain ⟨first, middle, _, rfl, inside, admits, _ | _⟩ := inside.plain rfl
    rw [List.append_nil] at proper ⊢
    obtain ⟨bang, rest, rfl, isBang, later⟩ := inside.carried proper rfl
    obtain ⟨alternative, member, tag, first, _, rfl, single, _ | _⟩ :=
      later.of_singles rfl (List.forall_mem_cons.mp proper).2
    rw [List.append_nil]
    simp only [List.mem_cons, List.not_mem_nil, or_false] at member
    cases single with
    | injection => simp at member
    | text renders =>
        refine ⟨_, .literal isBang renders, ?_⟩
        simp [invocation?, heads, Param.token?, isBang, errorTag?, Invocation.name,
          Invocation.params]
    | token lexeme =>
        have number : lexeme.kind = .number := by simpa using member
        obtain ⟨index, reads⟩ :=
          Option.isSome_iff_exists.mp (admits (.inr rfl) lexeme (by simp) number)
        refine ⟨_, .positional isBang number reads, ?_⟩
        simp [invocation?, heads, Param.token?, isBang, errorTag?, number, reads, Invocation.name,
          Invocation.params]
  · cases inside
    exact ⟨none, .untagged, heads⟩

end Parts

/-! ### Entries -/

/-- The entries of fewer lexemes are written by the lexemes they are built from. -/
def EntriesBelow (count : Nat) : Prop :=
  ∀ (taken : List Lexeme) (nodes : Frame) (invocation : Invocation), taken.length < count →
    (∀ lexeme ∈ taken, lexeme.Proper) → Builds (RuleName.definition .entry).items [] taken nodes →
      invocation? nodes = some invocation → RendersEntry invocation taken

namespace EntriesBelow

variable {count : Nat} (below : EntriesBelow count) {items : List Item} {frame result : Frame}
  {taken : List Lexeme}

include below

/-- An entry and what stands behind it. -/
theorem entry (builds : Builds (.rule .entry :: items) frame taken result)
    (proper : ∀ lexeme ∈ taken, lexeme.Proper) (fewer : taken.length < count) :
    ∃ invocation first rest, taken = first ++ rest ∧ RendersEntry invocation first ∧
      Builds items (frame ++ [Param.validator invocation]) rest result := by
  obtain ⟨first, nodes, middle, rest, rfl, inside, -, reduces, later⟩ := builds.constructed rfl
  obtain ⟨invocation, invokes, rfl⟩ := Option.map_eq_some_iff.mp reduces
  rw [List.length_append] at fewer
  exact ⟨invocation, first, rest, rfl,
    below _ _ _ (by omega) (List.forall_mem_append.mp proper).1 inside invokes, later⟩

/-- **A chain is written by the lexemes it is built from.** -/
theorem chain (builds : Builds (RuleName.definition .chain).items frame taken result)
    (proper : ∀ lexeme ∈ taken, lexeme.Proper) (fewer : taken.length < count) :
    ∃ chain, RendersChain chain taken ∧ result = frame ++ chain := by
  obtain ⟨invocation, first, rest, rfl, renders, turns⟩ := below.entry builds proper fewer
  rw [List.length_append] at fewer
  -- The turns behind an entry make it the first of a chain.
  obtain ⟨chain, rfl, leads⟩ := turns.many_induction
    (motive := fun frame taken => (∀ lexeme ∈ taken, lexeme.Proper) → taken.length < count →
      ∃ chain, result = frame ++ chain ∧ ∀ invocation first, RendersEntry invocation first →
        RendersChain (.validator invocation :: chain) (first ++ taken))
    (fun builds _ _ => by
      cases builds
      exact ⟨[], by simp, fun invocation first renders => by simpa using RendersChain.last renders⟩)
    (fun turn ih proper fewer => by
      obtain ⟨properHere, properLater⟩ := List.forall_mem_append.mp proper
      rw [List.length_append] at fewer
      obtain _ | _ | _ | _ | ⟨member, inside, _ | _⟩ := turn
      rw [List.append_nil] at properHere fewer ⊢
      simp only [List.mem_cons, List.not_mem_nil, or_false] at member
      obtain ⟨chain, rfl, leads⟩ := ih properLater (by omega)
      rcases member with rfl | rfl
      · obtain ⟨colon, _, rfl, isColon, inside⟩ := inside.silent properHere rfl
        rw [List.length_cons] at fewer
        obtain ⟨other, front, _, rfl, renders, _ | _⟩ :=
          below.entry inside (List.forall_mem_cons.mp properHere).2 (by omega)
        refine ⟨.validator other :: chain, List.append_assoc _ _ _,
          fun invocation first first' => ?_⟩
        have more := RendersChain.more first' (.colon isColon) (leads other front renders)
        simpa using more
      · obtain ⟨other, front, _, rfl, renders, _ | _⟩ := below.entry inside properHere (by omega)
        refine ⟨.validator other :: chain, List.append_assoc _ _ _,
          fun invocation first first' => ?_⟩
        have more := RendersChain.more first' .absent (leads other front renders)
        simpa using more)
    (List.forall_mem_append.mp proper).2 (by omega)
  exact ⟨.validator invocation :: chain, leads invocation first renders, List.append_assoc _ _ _⟩

/-- A chain and what stands behind it. -/
theorem chain_rule (builds : Builds (.rule .chain :: items) frame taken result)
    (proper : ∀ lexeme ∈ taken, lexeme.Proper) (fewer : taken.length < count) :
    ∃ chain first rest, taken = first ++ rest ∧ RendersChain chain first ∧
      Builds items (frame ++ chain) rest result := by
  obtain ⟨first, middle, rest, rfl, inside, -, later⟩ := builds.plain rfl
  rw [List.length_append] at fewer
  obtain ⟨chain, renders, rfl⟩ := below.chain inside (List.forall_mem_append.mp proper).1 (by omega)
  exact ⟨chain, first, rest, rfl, renders, later⟩

/-- A field and what stands behind it. -/
theorem field (builds : Builds (.rule .field :: items) frame taken result)
    (proper : ∀ lexeme ∈ taken, lexeme.Proper) (fewer : taken.length < count) :
    ∃ start chain first rest, taken = first ++ rest ∧ RendersField start chain first ∧
      Builds items (frame ++ start :: chain) rest result := by
  obtain ⟨first, middle, rest, rfl, inside, -, later⟩ := builds.plain rfl
  replace proper := (List.forall_mem_append.mp proper).1
  rw [List.length_append] at fewer
  obtain ⟨alternative, member, start, front, others, rfl, single, more⟩ :=
    inside.of_singles rfl proper
  replace proper := (List.forall_mem_append.mp proper).2
  rw [List.length_append] at fewer
  obtain _ | _ | _ | _ | ⟨optional, colon, more⟩ := more
  obtain ⟨properColon, properChain⟩ := List.forall_mem_append.mp proper
  rw [List.length_append] at fewer
  obtain ⟨chain, behind, _, rfl, renders, _ | _⟩ := below.chain_rule more properChain (by omega)
  simp only [List.mem_cons, List.not_mem_nil, or_false] at optional
  rw [List.append_nil]
  rcases optional with rfl | rfl
  · obtain ⟨colon, _, rfl, isColon, _ | _⟩ := colon.silent properColon rfl
    rw [List.append_assoc] at later
    exact ⟨start, chain, _, rest, rfl,
      .mk (single.rendersName member) (.colon isColon) renders, later⟩
  · cases colon
    rw [List.append_assoc] at later
    exact ⟨start, chain, _, rest, rfl, .mk (single.rendersName member) .absent renders, later⟩

/-- **The fields of an object are written by the lexemes they are built from.** -/
theorem fields
    (builds : Builds [.optional [.rule .field, .many fieldTurn, .optional [.token .comma]]]
    frame taken result) (proper : ∀ lexeme ∈ taken, lexeme.Proper) (fewer : taken.length < count) :
    ∃ params, RendersFields params taken ∧ result = frame ++ params := by
  obtain _ | _ | _ | _ | ⟨member, inside, _ | _⟩ := builds
  rw [List.append_nil] at proper fewer ⊢
  simp only [List.mem_cons, List.not_mem_nil, or_false] at member
  rcases member with rfl | rfl
  · obtain ⟨start, chain, first, rest, rfl, renders, turns⟩ := below.field inside proper fewer
    rw [List.length_append] at fewer
    -- The turns behind a field make it the first of several.
    obtain ⟨params, rfl, leads⟩ := turns.many_induction
      (motive := fun frame taken => (∀ lexeme ∈ taken, lexeme.Proper) → taken.length < count →
        ∃ params, result = frame ++ params ∧ ∀ start chain first, RendersField start chain first →
          RendersFields (start :: (chain ++ params)) (first ++ taken))
      (fun builds proper _ => by
        obtain _ | _ | _ | _ | ⟨member, inside, _ | _⟩ := builds
        rw [List.append_nil] at proper ⊢
        simp only [List.mem_cons, List.not_mem_nil, or_false] at member
        rcases member with rfl | rfl
        · obtain ⟨comma, _, rfl, isComma, _ | _⟩ := inside.carried proper rfl
          exact ⟨[.token comma], rfl, fun start chain first field => .more field isComma .empty⟩
        · cases inside
          exact ⟨[], by simp, fun start chain first field => by
            simpa using RendersFields.last field⟩)
      (fun turn ih proper fewer => by
        obtain ⟨properHere, properLater⟩ := List.forall_mem_append.mp proper
        rw [List.length_append] at fewer
        obtain ⟨comma, _, rfl, isComma, turn⟩ := turn.carried properHere rfl
        rw [List.length_cons] at fewer
        obtain ⟨other, behind, front, _, rfl, renders, _ | _⟩ :=
          below.field turn (List.forall_mem_cons.mp properHere).2 (by omega)
        obtain ⟨params, rfl, leads⟩ := ih properLater (by omega)
        refine ⟨.token comma :: other :: (behind ++ params), by simp,
          fun start chain first field => ?_⟩
        have more := RendersFields.more field isComma (leads other behind front renders)
        simpa using more)
      (List.forall_mem_append.mp proper).2 (by omega)
    exact ⟨start :: (chain ++ params), leads start chain first renders, by simp⟩
  · cases inside
    exact ⟨[], .empty, by simp⟩

/-- An object with its fields. -/
theorem objectHead {lexeme : Lexeme} {params : List Param} (kind : lexeme.kind = .object)
    (builds : Builds (RuleName.definition .objectParams).items [] taken params)
    (proper : ∀ lexeme ∈ taken, lexeme.Proper) (most : taken.length < count) :
    RendersHead lexeme.value params (lexeme :: taken) := by
  obtain ⟨left, rest, rfl, opens, builds⟩ := builds.silent proper rfl
  replace proper := (List.forall_mem_cons.mp proper).2
  rw [List.length_cons] at most
  obtain _ | _ | _ | _ | @⟨_, _, _, _, middle, _, first, rest, member, inside, last⟩ := builds
  obtain ⟨properFirst, properRest⟩ := List.forall_mem_append.mp proper
  rw [List.length_append] at most
  obtain ⟨right, rfl, closes, rfl⟩ := last.closing properRest
  obtain ⟨params, renders, rfl⟩ :=
    below.fields (.of_alternative member inside) properFirst (by omega)
  exact .object kind renders (.mk opens closes)

/-- An array with its chain, if it has one. -/
theorem arrayHead {lexeme : Lexeme} {params : List Param} (kind : lexeme.kind = .array)
    (builds : Builds (RuleName.definition .arrayParams).items [] taken params)
    (proper : ∀ lexeme ∈ taken, lexeme.Proper) (most : taken.length < count) :
    RendersHead lexeme.value params (lexeme :: taken) := by
  obtain ⟨left, rest, rfl, opens, builds⟩ := builds.silent proper rfl
  replace proper := (List.forall_mem_cons.mp proper).2
  rw [List.length_cons] at most
  obtain _ | _ | _ | _ | @⟨_, _, _, _, middle, _, first, rest, member, inside, last⟩ := builds
  obtain ⟨properFirst, properRest⟩ := List.forall_mem_append.mp proper
  rw [List.length_append] at most
  obtain ⟨right, rfl, closes, rfl⟩ := last.closing properRest
  simp only [List.mem_cons, List.not_mem_nil, or_false] at member
  rcases member with rfl | rfl
  · obtain ⟨chain, front, _, rfl, renders, _ | _⟩ := below.chain_rule inside properFirst (by omega)
    rw [List.append_nil]
    exact .array kind renders (.mk opens closes)
  · cases inside
    exact .emptyArray kind (.mk opens closes)

/-- A definition with its name and its body. -/
theorem definitionHead {lexeme : Lexeme} {params : List Param} (kind : lexeme.kind = .define)
    (builds : Builds (RuleName.definition .defineParams).items [] taken params)
    (proper : ∀ lexeme ∈ taken, lexeme.Proper) (most : taken.length < count) :
    RendersHead lexeme.value params (lexeme :: taken) := by
  obtain ⟨name, rest, rfl, isName, builds⟩ := builds.carried proper rfl
  replace proper := (List.forall_mem_cons.mp proper).2
  obtain ⟨left, rest, rfl, opens, builds⟩ := builds.silent proper rfl
  replace proper := (List.forall_mem_cons.mp proper).2
  simp only [List.length_cons] at most
  obtain ⟨body, first, rest, rfl, renders, last⟩ := below.chain_rule builds proper (by omega)
  obtain ⟨right, rfl, closes, rfl⟩ := last.closing (List.forall_mem_append.mp proper).2
  exact .definition kind isName renders (.mk opens closes)

/-- **A keyword with its parameters is written by the lexemes it is built from.** -/
theorem head {alternative : List Item} {lexeme : Lexeme} {params : List Param}
    (headed : Headed alternative taken lexeme params)
    (member : alternative ∈ RuleName.alternatives .validator)
    (proper : ∀ lexeme ∈ taken, lexeme.Proper) (most : taken.length ≤ count) :
    RendersHead lexeme.value params taken := by
  cases headed with
  | bare => exact .bare (by simpa [RuleName.alternatives, RuleName.definition] using member)
  | @params name rest params lexeme inside =>
      replace proper := (List.forall_mem_cons.mp proper).2
      rw [List.length_cons] at most
      simp only [RuleName.alternatives, RuleName.definition, List.mem_cons,
        List.not_mem_nil, or_false,
        List.cons.injEq, Item.token.injEq, Item.rule.injEq, and_true, reduceCtorEq, and_false,
        false_or] at member
      rcases member with ⟨kind, rfl⟩ | ⟨kind, rfl⟩ | ⟨kind, rfl⟩ | ⟨kind, rfl⟩ | ⟨kind, rfl⟩ |
        ⟨kind, rfl⟩ | ⟨kind, rfl⟩ | ⟨kind, rfl⟩ | ⟨kind, rfl⟩
      · exact below.objectHead kind inside proper most
      · exact below.arrayHead kind inside proper most
      · obtain ⟨operator, relation, operand, first, enclosed, isOperator, reads, renders, rfl⟩ :=
          inside.rendersComparison proper
        exact .comparison (.inl kind) isOperator reads renders enclosed
      · obtain ⟨operator, relation, operand, first, enclosed, isOperator, reads, renders, rfl⟩ :=
          inside.rendersComparison proper
        exact .comparison (.inr kind) isOperator reads renders enclosed
      · obtain ⟨left, rest, rfl, opens, builds⟩ := inside.silent proper rfl
        replace proper := (List.forall_mem_cons.mp proper).2
        obtain ⟨text, first, rest, rfl, renders, last⟩ := builds.rendersString proper
        obtain ⟨right, rfl, closes, rfl⟩ := last.closing (List.forall_mem_append.mp proper).2
        exact .matching kind renders (.mk opens closes)
      · obtain ⟨left, rest, rfl, opens, builds⟩ := inside.silent proper rfl
        replace proper := (List.forall_mem_cons.mp proper).2
        obtain ⟨value, first, rest, rfl, renders, last⟩ := builds.rendersValue proper
        obtain ⟨right, rfl, closes, rfl⟩ := last.closing (List.forall_mem_append.mp proper).2
        exact .equality kind renders (.mk opens closes)
      · obtain ⟨first, enclosed, renders⟩ := inside.rendersValues proper
        exact .membership kind renders enclosed
      · exact below.definitionHead kind inside proper most
      · obtain ⟨name, _, rfl, isName, _ | _⟩ := inside.carried proper rfl
        exact .reference kind isName

end EntriesBelow

/-- **Entries are written by the lexemes they are built from.** -/
theorem entriesBelow (count : Nat) : EntriesBelow count := by
  induction count with
  | zero => exact fun _ _ _ fewer => absurd fewer (Nat.not_lt_zero _)
  | succ count below =>
      intro taken nodes invocation fewer proper builds invokes
      obtain ⟨first, middle, rest, rfl, inside, -, later⟩ := builds.plain rfl
      obtain ⟨properFirst, properRest⟩ := List.forall_mem_append.mp proper
      rw [List.length_append] at fewer
      obtain ⟨alternative, member, lexeme, params, node, headed, rfl, heads⟩ :=
        inside.of_heads rfl properFirst
      obtain ⟨tag, tagged, completes⟩ := later.rendersTag properRest heads
      cases invokes.symm.trans completes
      exact .mk (below.head headed member properFirst (by omega)) tagged

/-! ### Forests -/

/-- Suffixes are written by the lexemes they are built from. -/
theorem Builds.rendersSuffixes {frame result : Frame} {taken : List Lexeme}
    (builds : Builds [.many [.rule .suffix]] frame taken result)
    (proper : ∀ lexeme ∈ taken, lexeme.Proper) :
    ∃ suffixes, RendersSuffixes suffixes taken ∧ result = frame ++ suffixes := by
  refine builds.many_induction
    (motive := fun frame taken => (∀ lexeme ∈ taken, lexeme.Proper) →
      ∃ suffixes, RendersSuffixes suffixes taken ∧ result = frame ++ suffixes) ?_ ?_ proper
  · intro frame taken builds _
    cases builds
    exact ⟨[], .nil, by simp⟩
  · intro frame middle taken rest turn ih proper
    obtain ⟨properHere, properLater⟩ := List.forall_mem_append.mp proper
    obtain ⟨suffixes, renders, rfl⟩ := ih properLater
    obtain ⟨first, nodes, _, _, rfl, inside, -, reduces, _ | _⟩ := turn.constructed rfl
    rw [List.append_nil] at properHere ⊢
    obtain ⟨invocation, invokes, rfl⟩ := Option.map_eq_some_iff.mp reduces
    obtain ⟨alternative, member, lexeme, params, headed, same⟩ := inside.suffix properHere
    cases invokes.symm.trans same
    refine ⟨.validator (.mk lexeme.value params none) :: suffixes, ?_, List.append_assoc _ _ _⟩
    cases headed with
    | bare =>
        exact .bare (by simpa [RuleName.alternatives, RuleName.definition] using member) renders
    | @params name taken params lexeme inside =>
        obtain ⟨kind, rfl⟩ : lexeme.kind = .errorSuffix ∧ name = .suffixArgs := by
          simpa [RuleName.alternatives, RuleName.definition] using member
        replace properHere := (List.forall_mem_cons.mp properHere).2
        obtain ⟨left, _, rfl, opens, builds⟩ := inside.silent properHere rfl
        replace properHere := (List.forall_mem_cons.mp properHere).2
        obtain ⟨first, nodes, _, _, rfl, inside, -, reduces, last⟩ := builds.constructed rfl
        obtain ⟨properFirst, properRest⟩ := List.forall_mem_append.mp properHere
        obtain ⟨index, reads, rfl⟩ := inside.rendersInjection properFirst reduces
        obtain ⟨right, rfl, closes, rfl⟩ := last.closing properRest
        exact .collecting kind reads (.mk opens closes) renders

/-- **A forest is interpreted from the lexemes that it is written by**, and from no others. -/
theorem interpret_eq_ok_iff_renders {lexemes : List Lexeme}
    (proper : ∀ lexeme ∈ lexemes, lexeme.Proper) (forest : List Param) :
    interpret lexemes = .ok forest ↔ Renders forest lexemes := by
  refine ⟨fun interprets => ?_, fun renders => renders.interpret proper⟩
  have builds := (interpret_eq_ok_iff proper forest).mp interprets
  obtain ⟨_, _, _, rfl, inside, -, _ | _⟩ := builds.plain rfl
  rw [List.append_nil] at proper ⊢
  obtain ⟨first, middle, rest, rfl, chainBuilds, -, suffixBuilds⟩ := inside.plain rfl
  obtain ⟨properFirst, properRest⟩ := List.forall_mem_append.mp proper
  obtain ⟨chain, root, rfl⟩ := (entriesBelow _).chain chainBuilds properFirst (Nat.lt_succ_self _)
  obtain ⟨suffixes, behind, rfl⟩ := suffixBuilds.rendersSuffixes properRest
  exact .mk root behind

end Schemata.Grammar
