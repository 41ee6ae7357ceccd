/-
**The nodes that the rules of the grammar leave in their frames.**

What a rule builds has the form that its construct can reduce: a text, an injection and a comparison
are one node each, and an entry is a keyword with its parameters and perhaps an error tag.

* `Builds.of_single`: an operand, a value or the name of a field adds one node;
* `Builds.of_headed`: a keyword and the rule of its parameters leave one node, which heads an
  invocation;
* `Builds.entry` and `Builds.suffix` say which invocation an entry or a suffix is reduced to;
* `Builds.reduces`: every frame that is built can be reduced.
-/

import Schemata.Proofs.Language.Sentences

namespace Schemata.Grammar

/-! ### One item at a time -/

section Inversion

variable {kind : TokenKind} {name : RuleName} {items : List Item} {frame result : Frame}
  {taken : List Lexeme}

/-- A token that carries a value joins the frame. -/
theorem Builds.carried (builds : Builds (.token kind :: items) frame taken result)
    (proper : ∀ lexeme ∈ taken, lexeme.Proper) (carries : kind.carriesValue = true) :
    ∃ lexeme rest, taken = lexeme :: rest ∧ lexeme.kind = kind ∧
      Builds items (frame ++ [Param.token lexeme]) rest result := by
  cases builds with
  | @token _ lexeme _ _ _ rest same later =>
      have pushes : pushed lexeme frame = frame ++ [Param.token lexeme] :=
        pushed_of_carries (proper lexeme List.mem_cons_self) (same ▸ carries)
      exact ⟨lexeme, rest, rfl, same, pushes ▸ later⟩

/-- A token that carries no value leaves the frame. -/
theorem Builds.silent (builds : Builds (.token kind :: items) frame taken result)
    (proper : ∀ lexeme ∈ taken, lexeme.Proper) (silent : kind.carriesValue = false) :
    ∃ lexeme rest, taken = lexeme :: rest ∧ lexeme.kind = kind ∧
      Builds items frame rest result := by
  cases builds with
  | @token _ lexeme _ _ _ rest same later =>
      have pushes : pushed lexeme frame = frame :=
        pushed_of_silent (proper lexeme List.mem_cons_self) (same ▸ silent)
      exact ⟨lexeme, rest, rfl, same, pushes ▸ later⟩

/-- A rule without a construct builds on the frame around it. -/
theorem Builds.plain (builds : Builds (.rule name :: items) frame taken result)
    (plain : name.definition.construct = none) :
    ∃ first middle rest, taken = first ++ rest ∧ Builds name.definition.items frame first middle ∧
      name.Admits first ∧ Builds items middle rest result := by
  cases builds with
  | rule _ inside admits later => exact ⟨_, _, _, rfl, inside, admits, later⟩
  | construct constructs => cases plain.symm.trans constructs

/-- A rule with a construct builds a frame of its own, which is reduced. -/
theorem Builds.constructed {construct : Construct}
    (builds : Builds (.rule name :: items) frame taken result)
    (constructs : name.definition.construct = some construct) :
    ∃ first nodes middle rest, taken = first ++ rest ∧ Builds name.definition.items [] first nodes ∧
      name.Admits first ∧ construct.reduce? nodes frame = some middle ∧
      Builds items middle rest result := by
  cases builds with
  | rule plain => cases plain.symm.trans constructs
  | construct same inside admits reduces later =>
      cases constructs.symm.trans same
      exact ⟨_, _, _, _, rfl, inside, admits, reduces, later⟩

/-- **Induction over the turns of a repetition**, from its end to its start. -/
theorem Builds.many_induction {body : List Item} {motive : Frame → List Lexeme → Prop}
    (builds : Builds (.many body :: items) frame taken result)
    (stop : ∀ {frame : Frame} {taken : List Lexeme}, Builds items frame taken result →
      motive frame taken)
    (again : ∀ {frame middle : Frame} {taken rest : List Lexeme}, Builds body frame taken middle →
      motive middle rest → motive frame (taken ++ rest)) : motive frame taken := by
  generalize same : Item.many body :: items = whole at builds
  induction builds with
  | stop later =>
      cases same
      exact stop later
  | again inside _ _ ih =>
      cases same
      exact again inside (ih (fun {_ _} => stop) rfl)
  | _ => cases same

end Inversion

/-! ### Texts and injections -/

/-- **A text between quotes**, cut into any runs. -/
inductive RendersText : String → List Lexeme → Prop
  | mk {opening closing : Lexeme} {runs : List Lexeme} (opens : opening.kind = .quote)
      (texts : ∀ run ∈ runs, run.kind = .text) (closes : closing.kind = .quote) :
      RendersText (String.join (runs.map Lexeme.value)) (opening :: (runs ++ [closing]))

/-- **The index of an injection**, behind a dollar or in braces. -/
inductive RendersInjection : Nat → List Lexeme → Prop
  | dollar {dollar number : Lexeme} {index : Nat} (opens : dollar.kind = .dollar)
      (isNumber : number.kind = .number) (reads : Numeral.natural? number.value = some index) :
      RendersInjection index [dollar, number]
  | braces {left number right : Lexeme} {index : Nat} (opens : left.kind = .leftBrace)
      (isNumber : number.kind = .number) (reads : Numeral.natural? number.value = some index)
      (closes : right.kind = .rightBrace) : RendersInjection index [left, number, right]

/-- Items that take tokens only build tokens. -/
theorem Builds.tokens {items : List Item} {frame result : Frame} {taken : List Lexeme}
    (builds : Builds items frame taken result) :
    (∀ item ∈ items, item.IsLiteral) → (∀ node ∈ frame, ∃ lexeme, node = .token lexeme) →
      ∀ node ∈ result, ∃ lexeme, node = .token lexeme := by
  induction builds with
  | nil => exact fun _ tokens => tokens
  | @token _ lexeme _ frame _ _ _ _ ih =>
      intro literal tokens
      refine ih (List.forall_mem_cons.mp literal).2 ?_
      unfold pushed
      split
      · exact List.forall_mem_append.mpr ⟨tokens, by simp⟩
      · exact tokens
  | rule | construct | choice =>
      intro literal
      obtain ⟨_, _, here | here⟩ := literal _ List.mem_cons_self <;> cases here
  | stop _ ih => exact fun literal => ih (List.forall_mem_cons.mp literal).2
  | again _ _ ih ihLater =>
      intro literal tokens
      refine ihLater literal (ih ?_ tokens)
      obtain ⟨kind, other, here | here⟩ := literal _ List.mem_cons_self
      · cases here
      · cases here
        exact List.forall_mem_singleton.mpr ⟨kind, other, .inl rfl⟩

theorem joinValues?_isSome {nodes : Frame}
    (tokens : ∀ node ∈ nodes, ∃ lexeme, node = .token lexeme) :
    (joinValues? nodes).isSome := by
  unfold joinValues?
  rw [Option.isSome_map]
  induction nodes with
  | nil => rfl
  | cons node nodes ih =>
      obtain ⟨⟨lexeme, rfl⟩, later⟩ := List.forall_mem_cons.mp tokens
      obtain ⟨values, same⟩ := Option.isSome_iff_exists.mp (ih later)
      rw [List.mapM_cons, same]
      rfl

/-- The frame of an injection holds its number. -/
theorem Builds.injection {taken : List Lexeme} {nodes : Frame}
    (builds : Builds (RuleName.definition .injection).items [] taken nodes)
    (proper : ∀ lexeme ∈ taken, lexeme.Proper) :
    ∃ number ∈ taken, number.kind = .number ∧ nodes = [.token number] := by
  obtain _ | _ | _ | _ | ⟨member, inside, _ | _⟩ := builds
  rw [List.append_nil] at proper ⊢
  simp only [List.mem_cons, List.not_mem_nil, or_false] at member
  rcases member with rfl | rfl
  all_goals
    obtain ⟨opening, rest, rfl, -, number⟩ := inside.silent proper rfl
    replace proper := (List.forall_mem_cons.mp proper).2
    obtain ⟨lexeme, rest, rfl, same, later⟩ := number.carried proper rfl
    refine ⟨lexeme, by simp, same, ?_⟩
  · cases later
    rfl
  · obtain ⟨closing, rest, rfl, -, _ | _⟩ := later.silent (List.forall_mem_cons.mp proper).2 rfl
    rfl

theorem joinValues?_cons (lexeme : Lexeme) (nodes : Frame) :
    joinValues? (.token lexeme :: nodes) = (joinValues? nodes).map (lexeme.value ++ ·) := by
  unfold joinValues?
  rw [List.mapM_cons]
  generalize List.mapM (m := Option) _ nodes = values
  cases values with
  | none => rfl
  | some values => exact congrArg some String.join_cons

theorem joinValues?_append {first : Frame} {text : String} (joins : joinValues? first = some text)
    (second : Frame) : joinValues? (first ++ second) = (joinValues? second).map (text ++ ·) := by
  unfold joinValues? at joins ⊢
  obtain ⟨values, reads, rfl⟩ := Option.map_eq_some_iff.mp joins
  rw [List.mapM_append, reads]
  generalize List.mapM (m := Option) _ second = others
  cases others with
  | none => rfl
  | some others => exact congrArg some String.join_append

/-- The values of tokens, joined. -/
theorem joinValues?_tokens (runs : List Lexeme) :
    joinValues? (runs.map Param.token) = some (String.join (runs.map Lexeme.value)) := by
  induction runs with
  | nil => rfl
  | cons run runs ih =>
      rw [List.map_cons, joinValues?_cons, ih, List.map_cons, String.join_cons]
      rfl

/-- **The runs between two quotes are those of the text** that they are reduced to. -/
theorem Builds.rendersText {taken : List Lexeme} {nodes : Frame} {text : String}
    (builds : Builds (RuleName.definition .string).items [] taken nodes)
    (proper : ∀ lexeme ∈ taken, lexeme.Proper) (joins : joinValues? nodes = some text) :
    RendersText text taken := by
  obtain ⟨opening, _, rfl, opens, builds⟩ := builds.silent proper rfl
  replace proper := (List.forall_mem_cons.mp proper).2
  obtain ⟨runs, closing, rfl, texts, closes, rfl⟩ := builds.many_induction
    (motive := fun frame taken => (∀ lexeme ∈ taken, lexeme.Proper) →
      ∃ (runs : List Lexeme) (closing : Lexeme), taken = runs ++ [closing] ∧
        (∀ run ∈ runs, run.kind = .text) ∧
        closing.kind = .quote ∧ nodes = frame ++ runs.map Param.token)
    (fun builds proper => by
      obtain ⟨closing, _, rfl, closes, _ | _⟩ := builds.silent proper rfl
      exact ⟨[], closing, rfl, nofun, closes, by simp⟩)
    (fun turn ih proper => by
      obtain ⟨properHere, properLater⟩ := List.forall_mem_append.mp proper
      obtain ⟨run, _, rfl, isText, _ | _⟩ := turn.carried properHere rfl
      obtain ⟨runs, closing, rfl, texts, closes, rfl⟩ := ih properLater
      exact ⟨run :: runs, closing, rfl, List.forall_mem_cons.mpr ⟨isText, texts⟩, closes, by simp⟩)
    proper
  rw [List.nil_append, joinValues?_tokens] at joins
  cases joins
  exact .mk opens texts closes

/-- **The lexemes of an injection are those of the index** that they are reduced to. -/
theorem Builds.rendersInjection {taken : List Lexeme} {nodes frame middle : Frame}
    (builds : Builds (RuleName.definition .injection).items [] taken nodes)
    (proper : ∀ lexeme ∈ taken, lexeme.Proper)
    (reduces : Construct.injection.reduce? nodes frame = some middle) :
    ∃ index, RendersInjection index taken ∧ middle = frame ++ [Param.injection index] := by
  obtain ⟨text, joins, stands⟩ := Option.bind_eq_some_iff.mp reduces
  obtain ⟨index, reads, same⟩ := Option.bind_eq_some_iff.mp stands
  cases same
  obtain _ | _ | _ | _ | ⟨member, inside, _ | _⟩ := builds
  rw [List.append_nil] at proper ⊢
  refine ⟨index, ?_, rfl⟩
  simp only [List.mem_cons, List.not_mem_nil, or_false] at member
  rcases member with rfl | rfl
  all_goals
    obtain ⟨opening, rest, rfl, opens, later⟩ := inside.silent proper rfl
    replace proper := (List.forall_mem_cons.mp proper).2
    obtain ⟨number, rest, rfl, isNumber, later⟩ := later.carried proper rfl
  · cases later
    cases (joinValues?_singleton number).symm.trans joins
    exact .dollar opens isNumber reads
  · obtain ⟨closing, rest, rfl, closes, _ | _⟩ :=
      later.silent (List.forall_mem_cons.mp proper).2 rfl
    cases (joinValues?_singleton number).symm.trans joins
    exact .braces opens isNumber reads closes

/-! ### Single nodes -/

/-- The alternatives that add one node: a token with a value, a text or an injection. -/
def Item.isSingle : List Item → Bool
  | [.token kind] => kind.carriesValue
  | [.rule .string] | [.rule .injection] => true
  | _ => false

/-- **The node that such an alternative adds.** -/
inductive Single : List Item → List Lexeme → Param → Prop
  | token (lexeme : Lexeme) : Single [.token lexeme.kind] [lexeme] (.token lexeme)
  | text {taken : List Lexeme} {text : String} (renders : RendersText text taken) :
      Single [.rule .string] taken (.text text)
  | injection {taken : List Lexeme} {index : Nat} (renders : RendersInjection index taken) :
      Single [.rule .injection] taken (.injection index)

theorem Builds.of_single {alternative : List Item} {frame result : Frame} {taken : List Lexeme}
    (builds : Builds alternative frame taken result) (single : Item.isSingle alternative = true)
    (proper : ∀ lexeme ∈ taken, lexeme.Proper) :
    ∃ node, Single alternative taken node ∧ result = frame ++ [node] := by
  revert single
  fun_cases Item.isSingle alternative with
  | case1 kind =>
      intro carries
      obtain ⟨lexeme, _, rfl, rfl, _ | _⟩ := builds.carried proper carries
      exact ⟨_, .token lexeme, rfl⟩
  | case2 =>
      intro _
      obtain ⟨_, nodes, _, _, rfl, inside, -, reduces, _ | _⟩ := builds.constructed rfl
      rw [List.append_nil] at proper ⊢
      obtain ⟨text, joins, rfl⟩ := Option.map_eq_some_iff.mp reduces
      exact ⟨_, .text (inside.rendersText proper joins), rfl⟩
  | case3 =>
      intro _
      obtain ⟨_, nodes, _, _, rfl, inside, -, reduces, _ | _⟩ := builds.constructed rfl
      rw [List.append_nil] at proper ⊢
      obtain ⟨index, renders, rfl⟩ := inside.rendersInjection proper reduces
      exact ⟨_, .injection renders, rfl⟩
  | case4 =>
      intro single
      cases single

/-- A choice of single nodes adds one of them. -/
theorem Builds.of_singles {alternatives : List (List Item)} {items : List Item}
    {frame result : Frame} {taken : List Lexeme}
    (builds : Builds (.choice alternatives :: items) frame taken result)
    (singles : alternatives.all Item.isSingle = true) (proper : ∀ lexeme ∈ taken, lexeme.Proper) :
    ∃ alternative ∈ alternatives, ∃ node first rest, taken = first ++ rest ∧
      Single alternative first node ∧ Builds items (frame ++ [node]) rest result := by
  cases builds with
  | choice member inside later =>
      obtain ⟨node, single, rfl⟩ := inside.of_single (List.all_eq_true.mp singles _ member)
        fun lexeme member => proper lexeme (List.mem_append_left _ member)
      exact ⟨_, member, node, _, _, rfl, single, later⟩

/-- The operands that are neither numbers nor texts name a field. -/
theorem names_field_of_mem_operands {kind : TokenKind} (operand : [.token kind] ∈ operands)
    (notNumber : kind ≠ .number) : kind = .identifier ∨ kind.isKeyword = true := by
  revert operand notNumber
  cases kind <;> simp [operands, nameKeywords, TokenKind.isKeyword]

/-- Every operand of a comparison can be read. -/
theorem Single.operand {alternative : List Item} {taken : List Lexeme} {node : Param}
    (single : Single alternative taken node) (operand : alternative ∈ operands)
    (proper : ∀ lexeme ∈ taken, lexeme.Proper) : (operand? node).isSome := by
  cases single with
  | text | injection => rfl
  | token lexeme =>
      by_cases number : lexeme.kind = .number
      · rw [operand?, if_pos number, Option.isSome_map]
        exact (proper lexeme List.mem_cons_self).number number
      · rw [operand?, if_neg number, if_pos (names_field_of_mem_operands operand number)]
        rfl

/-- **The frame of a comparator is a comparison.** -/
theorem Builds.comparator {taken : List Lexeme} {nodes : Frame}
    (builds : Builds (RuleName.definition .comparator).items [] taken nodes)
    (proper : ∀ lexeme ∈ taken, lexeme.Proper) : (comparison? nodes).isSome := by
  obtain ⟨operator, rest, rfl, isOperator, later⟩ := builds.carried proper rfl
  obtain ⟨properOperator, proper⟩ := List.forall_mem_cons.mp proper
  obtain ⟨alternative, member, node, first, _, rfl, single, _ | _⟩ := later.of_singles rfl proper
  rw [List.append_nil] at proper
  obtain ⟨relation, reads⟩ := Option.isSome_iff_exists.mp (properOperator.operator isOperator)
  obtain ⟨operand, stands⟩ := Option.isSome_iff_exists.mp (single.operand member proper)
  rw [List.nil_append, List.singleton_append, comparison?, Param.token?, if_pos isOperator]
  simp only [Option.bind_eq_bind, Option.bind_some, reads, stands, Option.isSome_some]

/-! ### Heads of invocations -/

/-- The alternatives that head an invocation: a keyword, perhaps with the rule of its parameters. -/
def Item.isHeaded : List Item → Bool
  | [.token kind] => kind.isKeyword
  | [.token kind, .rule name] => kind.isKeyword && name.definition.construct = some .params
  | _ => false

/-- **The keyword and the parameters of such an alternative.** -/
inductive Headed : List Item → List Lexeme → Lexeme → List Param → Prop
  | bare (lexeme : Lexeme) : Headed [.token lexeme.kind] [lexeme] lexeme []
  | params {name : RuleName} {rest : List Lexeme} {params : List Param} (lexeme : Lexeme)
      (inside : Builds name.definition.items [] rest params) :
      Headed [.token lexeme.kind, .rule name] (lexeme :: rest) lexeme params

theorem TokenKind.carriesValue_of_isKeyword {kind : TokenKind} (keyword : kind.isKeyword = true) :
    kind.carriesValue = true := by
  cases kind <;> first | rfl | cases keyword

theorem Builds.of_headed {alternative : List Item} {result : Frame} {taken : List Lexeme}
    (builds : Builds alternative [] taken result) (headed : Item.isHeaded alternative = true)
    (proper : ∀ lexeme ∈ taken, lexeme.Proper) :
    ∃ lexeme params node, Headed alternative taken lexeme params ∧ result = [node] ∧
      head? node = some (.mk lexeme.value params none) := by
  revert headed
  fun_cases Item.isHeaded alternative with
  | case1 kind =>
      intro headed
      obtain ⟨lexeme, _, rfl, rfl, _ | _⟩ :=
        builds.carried proper (TokenKind.carriesValue_of_isKeyword headed)
      exact ⟨lexeme, [], _, .bare lexeme, rfl, if_pos headed⟩
  | case2 kind name =>
      intro headed
      obtain ⟨keyword, constructs⟩ := Bool.and_eq_true_iff.mp headed
      obtain ⟨lexeme, rest, rfl, rfl, later⟩ :=
        builds.carried proper (TokenKind.carriesValue_of_isKeyword keyword)
      obtain ⟨_, params, _, _, rfl, inside, -, reduces, _ | _⟩ :=
        later.constructed (of_decide_eq_true constructs)
      rw [List.append_nil]
      have applies : applyParams? params [.token lexeme] =
          some [.validator (.mk lexeme.value params none)] := if_pos keyword
      cases applies.symm.trans reduces
      exact ⟨lexeme, params, _, .params lexeme inside, rfl, rfl⟩
  | case3 =>
      intro headed
      cases headed

/-- A choice of heads leaves the node of one of them. -/
theorem Builds.of_heads {alternatives : List (List Item)} {result : Frame} {taken : List Lexeme}
    (builds : Builds [.choice alternatives] [] taken result)
    (heads : alternatives.all Item.isHeaded = true) (proper : ∀ lexeme ∈ taken, lexeme.Proper) :
    ∃ alternative ∈ alternatives, ∃ lexeme params node, Headed alternative taken lexeme params ∧
      result = [node] ∧ head? node = some (.mk lexeme.value params none) := by
  obtain _ | _ | _ | _ | ⟨member, inside, _ | _⟩ := builds
  rw [List.append_nil] at proper ⊢
  exact ⟨_, member, inside.of_headed (List.all_eq_true.mp heads _ member) proper⟩

/-- The alternatives of a rule that is a single choice. -/
def RuleName.alternatives (name : RuleName) : List (List Item) :=
  match name.definition.items with
  | [.choice alternatives] => alternatives
  | _ => []

/-- **A suffix is reduced to its keyword and its parameters.** -/
theorem Builds.suffix {taken : List Lexeme} {nodes : Frame}
    (builds : Builds (RuleName.definition .suffix).items [] taken nodes)
    (proper : ∀ lexeme ∈ taken, lexeme.Proper) :
    ∃ alternative ∈ RuleName.alternatives .suffix, ∃ lexeme params,
      Headed alternative taken lexeme params ∧
      invocation? nodes = some (.mk lexeme.value params none) := by
  obtain ⟨alternative, member, lexeme, params, node, headed, rfl, heads⟩ :=
    builds.of_heads rfl proper
  exact ⟨alternative, member, lexeme, params, headed, heads⟩

/-- An error tag adds a bang and a node that can be read. -/
theorem Builds.errorTag {frame result : Frame} {taken : List Lexeme}
    (builds : Builds (RuleName.definition .errorTag).items frame taken result)
    (admits : RuleName.Admits .errorTag taken) (proper : ∀ lexeme ∈ taken, lexeme.Proper) :
    ∃ bang node tag, result = frame ++ [Param.token bang, node] ∧ bang.kind = .bang ∧
      errorTag? node = some tag := by
  obtain ⟨bang, rest, rfl, isBang, later⟩ := builds.carried proper rfl
  obtain ⟨alternative, member, node, first, _, rfl, single, _ | _⟩ :=
    later.of_singles rfl (List.forall_mem_cons.mp proper).2
  refine ⟨bang, node, ?_⟩
  simp only [List.mem_cons, List.not_mem_nil, or_false] at member
  have reads : (errorTag? node).isSome := by
    cases single with
    | text => rfl
    | injection => simp at member
    | token lexeme =>
        have number : lexeme.kind = .number := by simpa using member
        have index := admits (.inr rfl) lexeme (by simp) number
        obtain ⟨index, reads⟩ := Option.isSome_iff_exists.mp index
        simp [errorTag?, Param.token?, number, reads]
  obtain ⟨tag, reads⟩ := Option.isSome_iff_exists.mp reads
  exact ⟨tag, List.append_assoc _ _ _, isBang, reads⟩

/-- **An entry is reduced to its keyword, its parameters and perhaps an error tag.** -/
theorem Builds.entry {taken : List Lexeme} {nodes : Frame}
    (builds : Builds (RuleName.definition .entry).items [] taken nodes)
    (proper : ∀ lexeme ∈ taken, lexeme.Proper) :
    ∃ alternative ∈ RuleName.alternatives .validator, ∃ first rest lexeme params tag,
      taken = first ++ rest ∧ Headed alternative first lexeme params ∧
      invocation? nodes = some (.mk lexeme.value params tag) := by
  obtain ⟨first, middle, rest, rfl, inside, -, later⟩ := builds.plain rfl
  obtain ⟨properFirst, properRest⟩ := List.forall_mem_append.mp proper
  obtain ⟨alternative, member, lexeme, params, node, headed, rfl, heads⟩ :=
    inside.of_heads rfl properFirst
  refine ⟨alternative, member, first, rest, lexeme, params, ?_⟩
  obtain _ | _ | _ | _ | ⟨tagged, tagging, _ | _⟩ := later
  rw [List.append_nil] at properRest
  simp only [List.mem_cons, List.not_mem_nil, or_false] at tagged
  rcases tagged with rfl | rfl
  · obtain ⟨_, _, _, rfl, inside, admits, _ | _⟩ := tagging.plain rfl
    rw [List.append_nil] at properRest
    obtain ⟨bang, node, tag, rfl, isBang, reads⟩ := inside.errorTag admits properRest
    refine ⟨some tag, rfl, headed, ?_⟩
    simp [invocation?, heads, Param.token?, isBang, reads, Invocation.name, Invocation.params]
  · cases tagging
    exact ⟨none, rfl, headed, heads⟩

/-! ### Reductions -/

/-- A frame ends with a keyword, on which parameters can be put. -/
def Frame.EndsWithKeyword (frame : Frame) : Prop :=
  ∃ before lexeme, frame = before ++ [.token lexeme] ∧ lexeme.kind.isKeyword = true

theorem Frame.endsWithKeyword_of_false {frame : Frame} (never : false = true) :
    frame.EndsWithKeyword :=
  absurd never Bool.false_ne_true

/-- **The rules that have a construct**, told apart by it. -/
theorem RuleName.of_construct {name : RuleName} {construct : Construct}
    (constructs : name.definition.construct = some construct) :
    match construct with
    | .text => name = .string
    | .injection => name = .injection
    | .comparator => name = .comparator
    | .entry => name = .entry ∨ name = .suffix
    | .params => name ≠ .entry ∧ name ≠ .string := by
  cases name <;> cases constructs <;> decide

/-- **What a rule builds can be reduced.** -/
theorem Builds.reduces {name : RuleName} {construct : Construct} {taken : List Lexeme}
    {nodes : Frame} (builds : Builds name.definition.items [] taken nodes)
    (constructs : name.definition.construct = some construct) (admits : name.Admits taken)
    (proper : ∀ lexeme ∈ taken, lexeme.Proper) {frame : Frame}
    (headed : construct = .params → frame.EndsWithKeyword) :
    ∃ middle, construct.reduce? nodes frame = some middle := by
  cases construct with
  | params =>
      obtain ⟨before, lexeme, rfl, keyword⟩ := headed rfl
      exact ⟨before ++ [Param.validator (.mk lexeme.value nodes none)],
        by simp [Construct.reduce?, applyParams?, keyword]⟩
  | text =>
      obtain rfl : name = .string := RuleName.of_construct constructs
      obtain ⟨text, joins⟩ := Option.isSome_iff_exists.mp
        (joinValues?_isSome (builds.tokens RuleName.string_isLiteral (List.forall_mem_nil _)))
      exact ⟨_, Option.map_eq_some_iff.mpr ⟨text, joins, rfl⟩⟩
  | injection =>
      obtain rfl : name = .injection := RuleName.of_construct constructs
      obtain ⟨number, member, isNumber, rfl⟩ := builds.injection proper
      obtain ⟨index, reads⟩ :=
        Option.isSome_iff_exists.mp (admits (.inl rfl) number member isNumber)
      exact ⟨frame ++ [Param.injection index],
        by simp [Construct.reduce?, joinValues?_singleton, reads]⟩
  | comparator =>
      obtain rfl : name = .comparator := RuleName.of_construct constructs
      obtain ⟨comparison, stands⟩ := Option.isSome_iff_exists.mp (builds.comparator proper)
      exact ⟨_, Option.map_eq_some_iff.mpr ⟨comparison, stands, rfl⟩⟩
  | entry =>
      obtain rfl | rfl : name = .entry ∨ name = .suffix := RuleName.of_construct constructs
      · obtain ⟨_, -, _, _, lexeme, params, tag, -, -, invokes⟩ := builds.entry proper
        exact ⟨_, Option.map_eq_some_iff.mpr ⟨_, invokes, rfl⟩⟩
      · obtain ⟨_, -, lexeme, params, -, invokes⟩ := builds.suffix proper
        exact ⟨_, Option.map_eq_some_iff.mpr ⟨_, invokes, rfl⟩⟩

end Schemata.Grammar
