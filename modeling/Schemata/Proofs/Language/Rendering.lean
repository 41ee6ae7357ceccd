/-
**Forests as they are written: the lexemes of a node, and back.**

A node may be written in several ways. The relations below list them, node by node and without the
table of rules: a colon may stand between two entries or behind the name of a field, an injection is
`$N` or `{N}`, an object or an array without members may leave its parentheses out, a list of fields
may end in a comma, and a text may be cut into any runs.

* `RendersEntry`, `RendersChain` and `RendersFields` say how entries, chains and fields are written,
  and `Renders` how a whole forest is;
* `RendersEntry.builds` and its companions: what is written so builds the node it is written for;
* `interpret_relocate_of_renders`: interpreting gives the forest back, whatever the offsets are.
-/

import Schemata.Proofs.Compilation.Layout

namespace Schemata.Grammar

/-! ### Renderings -/

/-- The operand of a comparison. A field is named by an identifier or a bare keyword. -/
inductive RendersOperand : Operand → List Lexeme → Prop
  | number {lexeme : Lexeme} {datum : Binary64.Datum} (isNumber : lexeme.kind = .number)
      (reads : Numeral.real? lexeme.value = some datum) : RendersOperand (.number datum) [lexeme]
  | text {text : String} {taken : List Lexeme} (renders : RendersText text taken) :
      RendersOperand (.text text) taken
  | injection {index : Nat} {taken : List Lexeme} (renders : RendersInjection index taken) :
      RendersOperand (.injection index) taken
  | field {lexeme : Lexeme} (names : lexeme.kind = .identifier ∨ lexeme.kind ∈ nameKeywords) :
      RendersOperand (.field lexeme.value) [lexeme]

/-- An error tag, which may be absent. -/
inductive RendersTag : Option ErrorTag → List Lexeme → Prop
  | untagged : RendersTag none []
  | positional {bang number : Lexeme} {index : Nat} (opens : bang.kind = .bang)
      (isNumber : number.kind = .number) (reads : Numeral.natural? number.value = some index) :
      RendersTag (some (.positional index)) [bang, number]
  | literal {bang : Lexeme} {text : String} {taken : List Lexeme} (opens : bang.kind = .bang)
      (renders : RendersText text taken) : RendersTag (some (.literal text)) (bang :: taken)

/-- The name of a field: a bare word or a text. -/
inductive RendersName : Param → List Lexeme → Prop
  | token {lexeme : Lexeme} (names : lexeme.kind = .identifier ∨ lexeme.kind = .constant ∨
      lexeme.kind ∈ nameKeywords) : RendersName (.token lexeme) [lexeme]
  | text {text : String} {taken : List Lexeme} (renders : RendersText text taken) :
      RendersName (.text text) taken

/-- A value that is compared with. -/
inductive RendersValue : Param → List Lexeme → Prop
  | token {lexeme : Lexeme} (value : lexeme.kind = .number ∨ lexeme.kind = .constant) :
      RendersValue (.token lexeme) [lexeme]
  | text {text : String} {taken : List Lexeme} (renders : RendersText text taken) :
      RendersValue (.text text) taken
  | injection {index : Nat} {taken : List Lexeme} (renders : RendersInjection index taken) :
      RendersValue (.injection index) taken

/-- Values with commas between them, at least one. -/
inductive RendersValues : List Param → List Lexeme → Prop
  | last {value : Param} {taken : List Lexeme} (renders : RendersValue value taken) :
      RendersValues [value] taken
  | more {value : Param} {values : List Param} {comma : Lexeme} {taken rest : List Lexeme}
      (renders : RendersValue value taken) (separates : comma.kind = .comma)
      (later : RendersValues values rest) :
      RendersValues (value :: .token comma :: values) (taken ++ comma :: rest)

/-- Lexemes in parentheses. -/
inductive Enclosed (inside : List Lexeme) : List Lexeme → Prop
  | mk {left right : Lexeme} (opens : left.kind = .leftParen) (closes : right.kind = .rightParen) :
      Enclosed inside (left :: (inside ++ [right]))

/-- A colon, which may be left out. -/
inductive OptionalColon : List Lexeme → Prop
  | absent : OptionalColon []
  | colon {lexeme : Lexeme} (isColon : lexeme.kind = .colon) : OptionalColon [lexeme]

mutual

/-- **A keyword with its parameters.** The keyword is the name of the validator. -/
inductive RendersHead : String → List Param → List Lexeme → Prop
  | bare {lexeme : Lexeme}
      (kind : lexeme.kind = .primitive ∨ lexeme.kind = .object ∨ lexeme.kind = .array) :
      RendersHead lexeme.value [] [lexeme]
  | object {lexeme : Lexeme} {params : List Param} {inside taken : List Lexeme}
      (kind : lexeme.kind = .object) (fields : RendersFields params inside)
      (enclosed : Enclosed inside taken) : RendersHead lexeme.value params (lexeme :: taken)
  | emptyArray {lexeme : Lexeme} {taken : List Lexeme} (kind : lexeme.kind = .array)
      (enclosed : Enclosed [] taken) : RendersHead lexeme.value [] (lexeme :: taken)
  | array {lexeme : Lexeme} {chain : List Param} {inside taken : List Lexeme}
      (kind : lexeme.kind = .array) (renders : RendersChain chain inside)
      (enclosed : Enclosed inside taken) : RendersHead lexeme.value chain (lexeme :: taken)
  | comparison {lexeme operator : Lexeme} {relation : Relation} {operand : Operand}
      {inside taken : List Lexeme} (kind : lexeme.kind = .compare ∨ lexeme.kind = .length)
      (isOperator : operator.kind = .operator)
      (reads : Relation.ofSymbol? operator.value = some relation)
      (renders : RendersOperand operand inside) (enclosed : Enclosed (operator :: inside) taken) :
      RendersHead lexeme.value [.comparison ⟨relation, operand⟩] (lexeme :: taken)
  | matching {lexeme : Lexeme} {text : String} {inside taken : List Lexeme}
      (kind : lexeme.kind = .regex) (renders : RendersText text inside)
      (enclosed : Enclosed inside taken) : RendersHead lexeme.value [.text text] (lexeme :: taken)
  | equality {lexeme : Lexeme} {value : Param} {inside taken : List Lexeme}
      (kind : lexeme.kind = .equality) (renders : RendersValue value inside)
      (enclosed : Enclosed inside taken) : RendersHead lexeme.value [value] (lexeme :: taken)
  | membership {lexeme : Lexeme} {values : List Param} {inside taken : List Lexeme}
      (kind : lexeme.kind = .oneOf) (renders : RendersValues values inside)
      (enclosed : Enclosed inside taken) : RendersHead lexeme.value values (lexeme :: taken)
  | definition {lexeme name : Lexeme} {body : List Param} {inside taken : List Lexeme}
      (kind : lexeme.kind = .define) (isName : name.kind = .identifier)
      (renders : RendersChain body inside) (enclosed : Enclosed inside taken) :
      RendersHead lexeme.value (.token name :: body) (lexeme :: name :: taken)
  | reference {lexeme name : Lexeme} (kind : lexeme.kind = .reference)
      (isName : name.kind = .identifier) : RendersHead lexeme.value [.token name] [lexeme, name]

/-- **An entry: a head, and perhaps an error tag.** -/
inductive RendersEntry : Invocation → List Lexeme → Prop
  | mk {name : String} {params : List Param} {tag : Option ErrorTag} {taken behind : List Lexeme}
      (head : RendersHead name params taken) (tagged : RendersTag tag behind) :
      RendersEntry (.mk name params tag) (taken ++ behind)

/-- **A chain: entries, with or without colons between them.** -/
inductive RendersChain : List Param → List Lexeme → Prop
  | last {invocation : Invocation} {taken : List Lexeme} (entry : RendersEntry invocation taken) :
      RendersChain [.validator invocation] taken
  | more {invocation : Invocation} {chain : List Param} {taken colon rest : List Lexeme}
      (entry : RendersEntry invocation taken) (separates : OptionalColon colon)
      (later : RendersChain chain rest) :
      RendersChain (.validator invocation :: chain) (taken ++ (colon ++ rest))

/-- A field: its name and its chain. -/
inductive RendersField : Param → List Param → List Lexeme → Prop
  | mk {start : Param} {chain : List Param} {taken colon rest : List Lexeme}
      (name : RendersName start taken) (separates : OptionalColon colon)
      (renders : RendersChain chain rest) : RendersField start chain (taken ++ (colon ++ rest))

/-- **Fields with commas between them**, and perhaps one behind the last. -/
inductive RendersFields : List Param → List Lexeme → Prop
  | empty : RendersFields [] []
  | last {start : Param} {chain : List Param} {taken : List Lexeme}
      (field : RendersField start chain taken) : RendersFields (start :: chain) taken
  | more {start : Param} {chain params : List Param} {comma : Lexeme} {taken rest : List Lexeme}
      (field : RendersField start chain taken) (separates : comma.kind = .comma)
      (later : RendersFields params rest) :
      RendersFields (start :: (chain ++ .token comma :: params)) (taken ++ comma :: rest)

end

/-- The suffixes behind a chain. -/
inductive RendersSuffixes : List Param → List Lexeme → Prop
  | nil : RendersSuffixes [] []
  | bare {lexeme : Lexeme} {suffixes : List Param} {rest : List Lexeme}
      (kind : lexeme.kind = .errorSuffix ∨ lexeme.kind = .metaSuffix)
      (later : RendersSuffixes suffixes rest) :
      RendersSuffixes (.validator (.mk lexeme.value [] none) :: suffixes) (lexeme :: rest)
  | collecting {lexeme : Lexeme} {index : Nat} {suffixes : List Param}
      {inside taken rest : List Lexeme}
      (kind : lexeme.kind = .errorSuffix) (renders : RendersInjection index inside)
      (enclosed : Enclosed inside taken) (later : RendersSuffixes suffixes rest) :
      RendersSuffixes (.validator (.mk lexeme.value [.injection index] none) :: suffixes)
        (lexeme :: (taken ++ rest))

/-- **The lexemes of a forest**: those of its chain, and then those of its suffixes. -/
inductive Renders : List Param → List Lexeme → Prop
  | mk {chain suffixes : List Param} {taken rest : List Lexeme} (root : RendersChain chain taken)
      (behind : RendersSuffixes suffixes rest) : Renders (chain ++ suffixes) (taken ++ rest)

/-! ### Building one item -/

section Items

variable {kind : TokenKind} {name : RuleName} {items : List Item} {frame result : Frame}
  {lexeme : Lexeme} {taken rest : List Lexeme}

/-- A lexeme that joins the frame. -/
theorem Builds.take (proper : lexeme.Proper) (same : lexeme.kind = kind)
    (carries : kind.carriesValue = true)
    (later : Builds items (frame ++ [Param.token lexeme]) rest result) :
    Builds (.token kind :: items) frame (lexeme :: rest) result :=
  .token same (by rwa [pushed_of_carries proper (same ▸ carries)])

/-- A lexeme that only gives structure. -/
theorem Builds.skip (proper : lexeme.Proper) (same : lexeme.kind = kind)
    (silent : kind.carriesValue = false) (later : Builds items frame rest result) :
    Builds (.token kind :: items) frame (lexeme :: rest) result :=
  .token same (by rwa [pushed_of_silent proper (same ▸ silent)])

/-- Items in parentheses. -/
theorem Enclosed.builds {inside : List Lexeme} (enclosed : Enclosed inside taken)
    (proper : ∀ lexeme ∈ taken, lexeme.Proper)
    (builds : (∀ lexeme ∈ inside, lexeme.Proper) → Builds items frame inside result) :
    Builds (.token .leftParen :: (items ++ [Item.token .rightParen])) frame taken result := by
  obtain ⟨opens, closes⟩ := enclosed
  obtain ⟨properLeft, proper⟩ := List.forall_mem_cons.mp proper
  obtain ⟨properInside, properRight⟩ := List.forall_mem_append.mp proper
  exact .skip properLeft opens rfl ((builds properInside).append
    (.skip (List.forall_mem_singleton.mp properRight) closes rfl (.nil _)))

/-- A keyword and the rule of its parameters leave the head of an invocation. -/
theorem Builds.headed {params : Frame} (proper : lexeme.Proper) (same : lexeme.kind = kind)
    (keyword : kind.isKeyword = true) (constructs : name.definition.construct = some .params)
    (inside : Builds name.definition.items [] rest params) :
    Builds [.token kind, .rule name] [] (lexeme :: rest)
      [.validator (.mk lexeme.value params none)] := by
  have admits : name.Admits rest :=
    RuleName.admits_of_ne (by rintro rfl; cases constructs) (by rintro rfl; cases constructs) rest
  refine .take proper same (TokenKind.carriesValue_of_isKeyword keyword)
    (inside.of_construct constructs admits ?_)
  exact if_pos (same ▸ keyword)

end Items

/-! ### Building single nodes -/

section Nodes

variable {taken : List Lexeme} (frame : Frame)

/-- Runs of text join the frame. -/
theorem Builds.runs {runs rest : List Lexeme} {items : List Item} {result : Frame}
    (texts : ∀ run ∈ runs, run.kind = .text) (proper : ∀ run ∈ runs, run.Proper)
    (later : Builds items (frame ++ runs.map Param.token) rest result) :
    Builds (.many [.token .text] :: items) frame (runs ++ rest) result := by
  induction runs generalizing frame with
  | nil => exact .stop (by simpa using later)
  | cons run runs ih =>
      obtain ⟨isText, texts⟩ := List.forall_mem_cons.mp texts
      obtain ⟨properRun, proper⟩ := List.forall_mem_cons.mp proper
      have turn : Builds [.token .text] frame [run] (frame ++ [Param.token run]) :=
        .take properRun isText rfl (.nil _)
      refine turn.again (ih _ texts proper ?_)
      rwa [List.append_assoc]

theorem RendersText.builds {text : String} (renders : RendersText text taken)
    (proper : ∀ lexeme ∈ taken, lexeme.Proper) :
    Builds [.rule .string] frame taken (frame ++ [Param.text text]) := by
  obtain @⟨opening, closing, runs, opens, texts, closes⟩ := renders
  obtain ⟨properOpening, proper⟩ := List.forall_mem_cons.mp proper
  obtain ⟨properRuns, properClosing⟩ := List.forall_mem_append.mp proper
  have inside : Builds (RuleName.definition .string).items [] (opening :: (runs ++ [closing]))
      (runs.map Param.token) :=
    .skip properOpening opens rfl (.runs _ texts properRuns
      (.skip (List.forall_mem_singleton.mp properClosing) closes rfl (.nil _)))
  refine .of_construct rfl inside (RuleName.admits_of_ne (by decide) (by decide) _) ?_
  rw [Construct.reduce?, joinValues?_tokens, Option.map_some]

/-- The number of an injection is an index. -/
theorem RendersInjection.admits {index : Nat} (renders : RendersInjection index taken) :
    RuleName.Admits .injection taken := by
  cases renders with
  | dollar opens isNumber reads | braces opens isNumber reads =>
      intro _ lexeme member number
      simp only [List.mem_cons, List.not_mem_nil, or_false] at member
      rcases member with rfl | rfl | rfl <;> simp_all

theorem RendersInjection.builds {index : Nat} (renders : RendersInjection index taken)
    (proper : ∀ lexeme ∈ taken, lexeme.Proper) :
    Builds [.rule .injection] frame taken (frame ++ [Param.injection index]) := by
  have admits := renders.admits
  have reduces : ∀ {number : Lexeme}, Numeral.natural? number.value = some index →
      Construct.injection.reduce? [.token number] frame =
        some (frame ++ [Param.injection index]) := by
    intro number reads
    simp [Construct.reduce?, joinValues?_singleton, reads]
  cases renders with
  | @dollar dollar number _ opens isNumber reads =>
      simp only [List.forall_mem_cons] at proper
      obtain ⟨properDollar, properNumber, -⟩ := proper
      have inside : Builds [.token .dollar, .token .number] [] [dollar, number] [.token number] :=
        .skip properDollar opens rfl (.take properNumber isNumber rfl (.nil _))
      exact .of_construct rfl (.of_alternative List.mem_cons_self inside) admits (reduces reads)
  | @braces left number right _ opens isNumber reads closes =>
      simp only [List.forall_mem_cons] at proper
      obtain ⟨properLeft, properNumber, properRight, -⟩ := proper
      have inside : Builds [.token .leftBrace, .token .number, .token .rightBrace] []
          [left, number, right] [.token number] :=
        .skip properLeft opens rfl (.take properNumber isNumber rfl
          (.skip properRight closes rfl (.nil _)))
      exact .of_construct rfl
        (.of_alternative (List.mem_cons_of_mem _ List.mem_cons_self) inside) admits (reduces reads)

/-- A token of a kind that a choice of tokens offers. -/
theorem Builds.offered {alternatives : List (List Item)} {lexeme : Lexeme} (proper : lexeme.Proper)
    (carries : lexeme.kind.carriesValue = true) (member : [.token lexeme.kind] ∈ alternatives) :
    Builds [.choice alternatives] frame [lexeme] (frame ++ [Param.token lexeme]) :=
  .of_alternative member (.take proper rfl carries (.nil _))

/-- The kinds of keywords that name fields carry a value. -/
theorem carriesValue_of_mem_nameKeywords {kind : TokenKind} (names : kind ∈ nameKeywords) :
    kind.carriesValue = true := by
  revert names
  cases kind <;> decide

theorem RendersOperand.builds {operand : Operand} (renders : RendersOperand operand taken)
    (proper : ∀ lexeme ∈ taken, lexeme.Proper) :
    ∃ node, Builds [.choice operands] frame taken (frame ++ [node]) ∧
      operand? node = some operand := by
  cases renders with
  | @number lexeme _ isNumber reads =>
      refine ⟨.token lexeme, .offered _ (proper lexeme List.mem_cons_self) ?_ ?_, ?_⟩
      · rw [isNumber]
        rfl
      · rw [isNumber]
        exact List.mem_cons_self
      · rw [operand?, if_pos isNumber, reads]
        rfl
  | text renders =>
      exact ⟨_, .of_alternative (by simp [operands]) (renders.builds frame proper), rfl⟩
  | injection renders =>
      exact ⟨_, .of_alternative (by simp [operands]) (renders.builds frame proper), rfl⟩
  | @field lexeme names =>
      have listed : [.token lexeme.kind] ∈ operands := by
        rcases names with identifier | keyword
        · simp [operands, identifier]
        · exact List.mem_append_right _ (List.mem_map_of_mem keyword)
      have carries : lexeme.kind.carriesValue = true := by
        rcases names with identifier | keyword
        · rw [identifier]
          rfl
        · exact carriesValue_of_mem_nameKeywords keyword
      have notNumber : lexeme.kind ≠ .number := by
        rintro number
        simp [number, nameKeywords] at names
      refine ⟨.token lexeme, .offered _ (proper lexeme List.mem_cons_self) carries listed, ?_⟩
      rw [operand?, if_neg notNumber, if_pos (names_field_of_mem_operands listed notNumber)]

theorem RendersName.builds {start : Param} (renders : RendersName start taken)
    (proper : ∀ lexeme ∈ taken, lexeme.Proper) :
    Builds [.choice fieldNames] frame taken (frame ++ [start]) := by
  cases renders with
  | @token lexeme names =>
      refine .offered _ (proper lexeme List.mem_cons_self) ?_ ?_
      · rcases names with identifier | constant | keyword
        · rw [identifier]
          rfl
        · rw [constant]
          rfl
        · exact carriesValue_of_mem_nameKeywords keyword
      · rcases names with identifier | constant | keyword
        · simp [fieldNames, identifier]
        · simp [fieldNames, constant]
        · exact List.mem_append_right _ (List.mem_map_of_mem keyword)
  | text renders => exact .of_alternative (by simp [fieldNames]) (renders.builds frame proper)

theorem RendersValue.builds {value : Param} (renders : RendersValue value taken)
    (proper : ∀ lexeme ∈ taken, lexeme.Proper) :
    Builds [.rule .value] frame taken (frame ++ [value]) := by
  refine .of_rule rfl ?_ (RuleName.admits_of_ne (by decide) (by decide) _)
  cases renders with
  | @token lexeme value =>
      refine .offered _ (proper lexeme List.mem_cons_self) ?_ ?_ <;>
        rcases value with number | constant <;> simp [TokenKind.carriesValue, *]
  | text renders => exact .of_alternative (by simp) (renders.builds frame proper)
  | injection renders => exact .of_alternative (by simp) (renders.builds frame proper)

/-- **Values build themselves**, and the commas between them. -/
theorem RendersValues.builds {values : List Param} (renders : RendersValues values taken)
    (proper : ∀ lexeme ∈ taken, lexeme.Proper) :
    Builds [.rule .value, .many [.token .comma, .rule .value]] frame taken (frame ++ values) := by
  induction renders generalizing frame with
  | last renders =>
      have alone := (renders.builds frame proper).append
        (.stop (.nil _) : Builds [.many [.token .comma, .rule .value]] _ [] _)
      rwa [List.append_nil] at alone
  | @more value values comma taken rest renders separates _ ih =>
      obtain ⟨properHere, properComma, properRest⟩ := by
        simpa only [List.forall_mem_append, List.forall_mem_cons] using proper
      have further := ih (frame ++ [value] ++ [Param.token comma]) properRest
      obtain ⟨_, _, _, rfl, inside, admits, later⟩ := further.plain rfl
      have again :=
        Builds.again (.take properComma separates rfl (.of_rule rfl inside admits)) later
      simpa using (renders.builds frame properHere).append again

/-- **An error tag completes the head of an invocation.** -/
theorem RendersTag.builds {tag : Option ErrorTag} (renders : RendersTag tag taken)
    (proper : ∀ lexeme ∈ taken, lexeme.Proper) {node : Param} {name : String} {params : List Param}
    (heads : head? node = some (.mk name params none)) :
    ∃ nodes, Builds [.optional [.rule .errorTag]] [node] taken nodes ∧
      invocation? nodes = some (.mk name params tag) := by
  have optional : ∀ {nodes : Frame}, RuleName.Admits .errorTag taken →
      Builds (RuleName.definition .errorTag).items [node] taken nodes →
        Builds [.optional [.rule .errorTag]] [node] taken nodes :=
    fun admits inside => .of_alternative List.mem_cons_self (.of_rule rfl inside admits)
  cases renders with
  | untagged => exact ⟨[node], .of_alternative (by simp) (.nil _), heads⟩
  | @positional bang number index opens isNumber reads =>
      simp only [List.forall_mem_cons] at proper
      obtain ⟨properBang, properNumber, -⟩ := proper
      have admits : RuleName.Admits .errorTag [bang, number] := by
        intro _ lexeme member isNumber
        simp only [List.mem_cons, List.not_mem_nil, or_false] at member
        rcases member with rfl | rfl <;> simp_all
      have second : Builds [.choice [[.token .number], [.rule .string]]] [node, .token bang]
          [number] [node, .token bang, .token number] := by
        refine .offered _ properNumber ?_ ?_ <;> simp [isNumber, TokenKind.carriesValue]
      have inside : Builds [.token .bang, .choice [[.token .number], [.rule .string]]] [node]
          [bang, number] [node, .token bang, .token number] := .take properBang opens rfl second
      refine ⟨_, optional admits inside, ?_⟩
      simp [invocation?, heads, Param.token?, opens, errorTag?, isNumber, reads, Invocation.name,
        Invocation.params]
  | @literal bang text taken opens renders =>
      obtain ⟨properBang, proper⟩ := List.forall_mem_cons.mp proper
      have second : Builds [.choice [[.token .number], [.rule .string]]] [node, .token bang] taken
          [node, .token bang, .text text] := .of_alternative (by simp) (renders.builds _ proper)
      have inside : Builds [.token .bang, .choice [[.token .number], [.rule .string]]] [node]
          (bang :: taken) [node, .token bang, .text text] := .take properBang opens rfl second
      have admits : RuleName.Admits .errorTag (bang :: taken) := by
        obtain ⟨isQuote, texts, closes⟩ := renders
        intro _ lexeme member isNumber
        simp only [List.mem_cons, List.mem_append, List.not_mem_nil, or_false] at member
        rcases member with rfl | rfl | member | rfl <;> simp_all
      refine ⟨_, optional admits inside, ?_⟩
      simp [invocation?, heads, Param.token?, opens, errorTag?, Invocation.name, Invocation.params]

end Nodes

/-! ### Building entries, chains and fields -/

/-- The turns of a repetition that adds entries to a chain. -/
def chainTurn : List Item := [.choice [[.token .colon, .rule .entry], [.rule .entry]]]

/-- The turns of a repetition that adds fields to an object. -/
def fieldTurn : List Item := [.token .comma, .rule .field]

/-- A chain behind a colon, or without one, goes on with another chain. -/
theorem OptionalColon.again {frame result : Frame} {colon rest : List Lexeme}
    (separates : OptionalColon colon) (proper : ∀ lexeme ∈ colon, lexeme.Proper)
    (builds : Builds [.rule .entry, .many chainTurn] frame rest result) :
    Builds [.many chainTurn] frame (colon ++ rest) result := by
  obtain ⟨taken, nodes, middle, rest, rfl, inside, admits, reduces, later⟩ := builds.constructed rfl
  have entry : Builds [.rule .entry] frame taken middle := .of_construct rfl inside admits reduces
  rw [← List.append_assoc]
  refine .again ?_ later
  cases separates with
  | absent => exact .of_alternative (List.mem_cons_of_mem _ List.mem_cons_self) entry
  | @colon lexeme isColon =>
      exact .of_alternative List.mem_cons_self
        (.skip (proper lexeme List.mem_cons_self) isColon rfl entry)

/-- A colon behind the name of a field. -/
theorem OptionalColon.builds {colon : List Lexeme} (separates : OptionalColon colon) (frame : Frame)
    (proper : ∀ lexeme ∈ colon, lexeme.Proper) :
    Builds [.optional [.token .colon]] frame colon frame := by
  cases separates with
  | absent => exact .of_alternative (by simp) (.nil _)
  | @colon lexeme isColon =>
      exact .of_alternative List.mem_cons_self
        (.skip (proper lexeme List.mem_cons_self) isColon rfl (.nil _))

mutual

/-- **A head builds one node**, the head of its invocation. -/
theorem RendersHead.builds {name : String} {params : List Param} {taken : List Lexeme} :
    RendersHead name params taken → (∀ lexeme ∈ taken, lexeme.Proper) →
      ∃ node, Builds (RuleName.definition .validator).items [] taken [node] ∧
        head? node = some (.mk name params none)
  | @RendersHead.bare lexeme kind => by
      intro proper
      have keyword : lexeme.kind.isKeyword = true := by
        rcases kind with kind | kind | kind <;> rw [kind] <;> rfl
      refine ⟨.token lexeme, .offered _ (proper lexeme List.mem_cons_self)
        (TokenKind.carriesValue_of_isKeyword keyword) ?_, if_pos keyword⟩
      rcases kind with kind | kind | kind <;> simp [kind]
  | @RendersHead.object lexeme params inside taken kind fields enclosed => by
      intro proper
      obtain ⟨properHere, proper⟩ := List.forall_mem_cons.mp proper
      have params : Builds (RuleName.definition .objectParams).items [] taken params :=
        enclosed.builds proper (fields.builds · [])
      exact ⟨_, .of_alternative (by simp) (params.headed properHere kind rfl rfl), rfl⟩
  | @RendersHead.emptyArray lexeme taken kind enclosed => by
      intro proper
      obtain ⟨properHere, proper⟩ := List.forall_mem_cons.mp proper
      have params : Builds (RuleName.definition .arrayParams).items [] taken [] :=
        enclosed.builds proper fun _ => .of_alternative (by simp) (.nil _)
      exact ⟨_, .of_alternative (by simp) (params.headed properHere kind rfl rfl), rfl⟩
  | @RendersHead.array lexeme chain inside taken kind renders enclosed => by
      intro proper
      obtain ⟨properHere, proper⟩ := List.forall_mem_cons.mp proper
      have params : Builds (RuleName.definition .arrayParams).items [] taken chain :=
        enclosed.builds proper fun proper => .of_alternative List.mem_cons_self
          (.of_rule rfl (renders.builds proper [])
            (RuleName.admits_of_ne (by decide) (by decide) _))
      exact ⟨_, .of_alternative (by simp) (params.headed properHere kind rfl rfl), rfl⟩
  | @RendersHead.comparison lexeme operator relation operand inside taken kind isOperator
      reads renders enclosed => by
      intro proper
      obtain ⟨properHere, proper⟩ := List.forall_mem_cons.mp proper
      have comparator : (∀ lexeme ∈ operator :: inside, lexeme.Proper) →
          Builds [.rule .comparator] [] (operator :: inside) [.comparison ⟨relation, operand⟩] := by
        intro proper
        obtain ⟨properOperator, proper⟩ := List.forall_mem_cons.mp proper
        obtain ⟨node, builds, stands⟩ := renders.builds [.token operator] proper
        have frame : Builds (RuleName.definition .comparator).items [] (operator :: inside)
            [.token operator, node] := .take properOperator isOperator rfl builds
        refine .of_construct rfl frame (RuleName.admits_of_ne (by decide) (by decide) _) ?_
        simp [Construct.reduce?, comparison?, Param.token?, isOperator, reads, stands]
      have params : Builds (RuleName.definition .compareParams).items [] taken
          [.comparison ⟨relation, operand⟩] := enclosed.builds proper comparator
      rcases kind with kind | kind
      all_goals exact ⟨_, .of_alternative (by simp) (params.headed properHere kind rfl rfl), rfl⟩
  | @RendersHead.matching lexeme text inside taken kind renders enclosed => by
      intro proper
      obtain ⟨properHere, proper⟩ := List.forall_mem_cons.mp proper
      have params : Builds (RuleName.definition .regexParams).items [] taken [.text text] :=
        enclosed.builds proper (renders.builds [] ·)
      exact ⟨_, .of_alternative (by simp) (params.headed properHere kind rfl rfl), rfl⟩
  | @RendersHead.equality lexeme value inside taken kind renders enclosed => by
      intro proper
      obtain ⟨properHere, proper⟩ := List.forall_mem_cons.mp proper
      have params : Builds (RuleName.definition .valueParams).items [] taken [value] :=
        enclosed.builds proper (renders.builds [] ·)
      exact ⟨_, .of_alternative (by simp) (params.headed properHere kind rfl rfl), rfl⟩
  | @RendersHead.membership lexeme values inside taken kind renders enclosed => by
      intro proper
      obtain ⟨properHere, proper⟩ := List.forall_mem_cons.mp proper
      have params : Builds (RuleName.definition .listParams).items [] taken values :=
        enclosed.builds proper (renders.builds [] ·)
      exact ⟨_, .of_alternative (by simp) (params.headed properHere kind rfl rfl), rfl⟩
  | @RendersHead.definition lexeme name body inside taken kind isName renders enclosed => by
      intro proper
      obtain ⟨properHere, proper⟩ := List.forall_mem_cons.mp proper
      obtain ⟨properName, proper⟩ := List.forall_mem_cons.mp proper
      have chain : Builds [.token .leftParen, .rule .chain, .token .rightParen] [.token name] taken
          (.token name :: body) :=
        enclosed.builds proper fun proper => .of_rule rfl (renders.builds proper _)
          (RuleName.admits_of_ne (by decide) (by decide) _)
      have params : Builds (RuleName.definition .defineParams).items [] (name :: taken)
          (.token name :: body) := .take properName isName rfl chain
      exact ⟨_, .of_alternative (by simp) (params.headed properHere kind rfl rfl), rfl⟩
  | @RendersHead.reference lexeme name kind isName => by
      intro proper
      obtain ⟨properHere, proper⟩ := List.forall_mem_cons.mp proper
      have params : Builds (RuleName.definition .referenceParams).items [] [name] [.token name] :=
        .take (proper name List.mem_cons_self) isName rfl (.nil _)
      exact ⟨_, .of_alternative (by simp) (params.headed properHere kind rfl rfl), rfl⟩

/-- **An entry builds its invocation.** -/
theorem RendersEntry.builds {invocation : Invocation} {taken : List Lexeme} :
    RendersEntry invocation taken → (∀ lexeme ∈ taken, lexeme.Proper) → ∀ frame,
      Builds [.rule .entry] frame taken (frame ++ [Param.validator invocation])
  | @RendersEntry.mk name params tag taken behind head tagged => by
      intro proper frame
      obtain ⟨properHead, properTag⟩ := List.forall_mem_append.mp proper
      obtain ⟨node, headBuilds, heads⟩ := head.builds properHead
      obtain ⟨nodes, tagBuilds, invokes⟩ := tagged.builds properTag heads
      have validator : Builds [.rule .validator] [] taken [node] :=
        .of_rule rfl headBuilds (RuleName.admits_of_ne (by decide) (by decide) _)
      refine .of_construct rfl (validator.append tagBuilds)
        (RuleName.admits_of_ne (by decide) (by decide) _) ?_
      rw [Construct.reduce?, invokes, Option.map_some]

/-- **A chain builds its invocations.** -/
theorem RendersChain.builds {chain : List Param} {taken : List Lexeme} :
    RendersChain chain taken → (∀ lexeme ∈ taken, lexeme.Proper) → ∀ frame,
      Builds (RuleName.definition .chain).items frame taken (frame ++ chain)
  | @RendersChain.last invocation taken entry => by
      intro proper frame
      have alone : Builds [.rule .entry, .many chainTurn] frame (taken ++ []) _ :=
        (entry.builds proper frame).append (.stop (.nil _))
      rwa [List.append_nil] at alone
  | @RendersChain.more invocation chain taken colon rest entry separates later => by
      intro proper frame
      obtain ⟨properEntry, proper⟩ := List.forall_mem_append.mp proper
      obtain ⟨properColon, properRest⟩ := List.forall_mem_append.mp proper
      have further :
          Builds [.rule .entry, .many chainTurn] (frame ++ [Param.validator invocation]) rest _ :=
        later.builds properRest _
      rw [List.append_assoc] at further
      have more : Builds [.many chainTurn] _ (colon ++ rest) _ :=
        separates.again properColon further
      exact (entry.builds properEntry frame).append more

/-- A field builds its name and its chain. -/
theorem RendersField.builds {start : Param} {chain : List Param} {taken : List Lexeme} :
    RendersField start chain taken → (∀ lexeme ∈ taken, lexeme.Proper) → ∀ frame,
      Builds [.rule .field] frame taken (frame ++ start :: chain)
  | @RendersField.mk start chain taken colon rest name separates renders => by
      intro proper frame
      obtain ⟨properName, proper⟩ := List.forall_mem_append.mp proper
      obtain ⟨properColon, properRest⟩ := List.forall_mem_append.mp proper
      have chain : Builds [.rule .chain] (frame ++ [start]) rest _ :=
        .of_rule rfl (renders.builds properRest _) (RuleName.admits_of_ne (by decide) (by decide) _)
      have inside :=
        (name.builds frame properName).append ((separates.builds _ properColon).append chain)
      rw [List.append_assoc] at inside
      exact .of_rule rfl inside (RuleName.admits_of_ne (by decide) (by decide) _)

/-- **Fields build the parameters of their object.** -/
theorem RendersFields.builds {params : List Param} {taken : List Lexeme} :
    RendersFields params taken → (∀ lexeme ∈ taken, lexeme.Proper) → ∀ frame,
      Builds [.optional [.rule .field, .many fieldTurn, .optional [.token .comma]]] frame taken
        (frame ++ params)
  | .empty => by
      intro _ frame
      rw [List.append_nil]
      exact .of_alternative (by simp) (.nil _)
  | @RendersFields.last start chain taken field => by
      intro proper frame
      have unended : Builds [.optional [.token .comma]] (frame ++ start :: chain) [] _ :=
        .of_alternative (by simp) (.nil _)
      have alone :=
        (field.builds proper frame).append (.stop unended : Builds (.many fieldTurn :: _) _ _ _)
      rw [List.append_nil] at alone
      exact .of_alternative List.mem_cons_self alone
  | @RendersFields.more start chain params comma taken rest field separates later => by
      intro proper frame
      obtain ⟨properField, proper⟩ := List.forall_mem_append.mp proper
      obtain ⟨properComma, properRest⟩ := List.forall_mem_cons.mp proper
      suffices more : Builds [.many fieldTurn, .optional [.token .comma]] (frame ++ start :: chain)
          (comma :: rest) (frame ++ start :: chain ++ .token comma :: params) by
        have whole := (field.builds properField frame).append more
        rw [List.append_assoc, List.cons_append] at whole
        exact .of_alternative List.mem_cons_self whole
      generalize frame ++ start :: chain = before
      have further := later.builds properRest (before ++ [Param.token comma])
      rw [List.append_assoc, List.singleton_append] at further
      generalize before ++ .token comma :: params = result at further ⊢
      obtain _ | _ | _ | _ | ⟨member, inside, _ | _⟩ := further
      rw [List.append_nil]
      simp only [List.mem_cons, List.not_mem_nil, or_false] at member
      rcases member with rfl | rfl
      · obtain ⟨first, _, behind, rfl, fieldBuilds, admits, later⟩ := inside.plain rfl
        have turn : Builds fieldTurn before (comma :: first) _ :=
          .take properComma separates rfl (.of_rule rfl fieldBuilds admits)
        exact turn.again later
      · -- nothing stands behind the comma, which ends the list
        cases inside
        exact .stop (.of_alternative List.mem_cons_self (.take properComma separates rfl (.nil _)))

end

/-! ### Building forests -/

/-- Suffixes build their invocations. -/
theorem RendersSuffixes.builds {suffixes : List Param} {taken : List Lexeme}
    (renders : RendersSuffixes suffixes taken) (proper : ∀ lexeme ∈ taken, lexeme.Proper)
    (frame : Frame) :
    Builds [.many [.rule .suffix]] frame taken (frame ++ suffixes) := by
  have admits : ∀ taken, RuleName.Admits .suffix taken :=
    RuleName.admits_of_ne (by decide) (by decide)
  induction renders generalizing frame with
  | nil => exact .stop (by simpa using Builds.nil frame)
  | @bare lexeme suffixes rest kind _ ih =>
      obtain ⟨properHere, properRest⟩ := List.forall_mem_cons.mp proper
      have keyword : lexeme.kind.isKeyword = true := by
        rcases kind with kind | kind <;> rw [kind] <;> rfl
      have inside : Builds (RuleName.definition .suffix).items [] [lexeme] [.token lexeme] := by
        refine .offered _ properHere (TokenKind.carriesValue_of_isKeyword keyword) ?_
        rcases kind with kind | kind <;> simp [kind]
      have suffix : Builds [.rule .suffix] frame [lexeme] _ :=
        .of_construct rfl inside (admits _)
          (congrArg (Option.map fun invocation => frame ++ [Param.validator invocation])
            (if_pos keyword))
      have further := ih properRest (frame ++ [Param.validator (.mk lexeme.value [] none)])
      rw [List.append_assoc] at further
      exact suffix.again further
  | @collecting lexeme index suffixes inside taken rest kind renders enclosed _ ih =>
      obtain ⟨properHere, proper⟩ := List.forall_mem_cons.mp proper
      obtain ⟨properTaken, properRest⟩ := List.forall_mem_append.mp proper
      have params : Builds (RuleName.definition .suffixArgs).items [] taken [.injection index] :=
        enclosed.builds properTaken (renders.builds [] ·)
      have inside : Builds (RuleName.definition .suffix).items [] (lexeme :: taken) _ :=
        .of_alternative List.mem_cons_self (params.headed properHere kind rfl rfl)
      have suffix : Builds [.rule .suffix] frame (lexeme :: taken) _ :=
        .of_construct rfl inside (admits _) rfl
      have further :=
        ih properRest (frame ++ [Param.validator (.mk lexeme.value [.injection index] none)])
      rw [List.append_assoc] at further
      exact suffix.again further

/-- **The lexemes of a forest build it.** -/
theorem Renders.builds {forest : List Param} {lexemes : List Lexeme}
    (renders : Renders forest lexemes) (proper : ∀ lexeme ∈ lexemes, lexeme.Proper) :
    Builds [.rule .program] [] lexemes forest := by
  obtain ⟨root, behind⟩ := renders
  obtain ⟨properRoot, properBehind⟩ := List.forall_mem_append.mp proper
  have chain : Builds [.rule .chain] [] _ _ :=
    .of_rule rfl (root.builds properRoot []) (RuleName.admits_of_ne (by decide) (by decide) _)
  exact .of_rule rfl (chain.append (behind.builds properBehind _))
    (RuleName.admits_of_ne (by decide) (by decide) _)

/-- The lexemes of a forest have that forest. -/
theorem Renders.interpret {forest : List Param} {lexemes : List Lexeme}
    (renders : Renders forest lexemes) (proper : ∀ lexeme ∈ lexemes, lexeme.Proper) :
    Grammar.interpret lexemes = .ok forest :=
  interpret_of_builds (renders.builds proper)

/-- **Interpreting gives a forest back**, however it is written: lexemes of the same kinds and
values as those of a forest, at any offsets, are interpreted as that forest up to the offsets of its
tokens. -/
theorem interpret_relocate_of_renders {forest : List Param} {lexemes others : List Lexeme}
    (renders : Renders forest lexemes) (proper : ∀ lexeme ∈ lexemes, lexeme.Proper)
    (properOther : ∀ lexeme ∈ others, lexeme.Proper)
    (same : others.map Lexeme.head = lexemes.map Lexeme.head) :
    (interpret others).map (Param.relocateAll fun _ => 0) =
      .ok (Param.relocateAll (fun _ => 0) forest) := by
  rw [interpret_relocate properOther proper same 0, renders.interpret proper]
  rfl

/-- An object whose field has a text of two runs as its name, no colon behind it and a comma at the
end, before a suffix. -/
theorem interpret_rendered_object :
    let comma := Lexeme.ofKind .comma "," 0
    let comparison : Invocation :=
      .mk "compare" [.comparison ⟨.atLeast, .injection 0⟩] (some (.positional 1))
    let chain : List Param := [.validator (.mk "number" [] none), .validator comparison]
    let forest : List Param :=
      [.validator (.mk "object" (.text "ab" :: (chain ++ [.token comma])) none),
        .validator (.mk "~error" [.injection 2] none)]
    let lexemes : List Lexeme :=
      [.ofKind .object "object" 0, .ofKind .leftParen "(" 0, .ofKind .quote "'" 0,
        .ofKind .text "a" 0,
        .ofKind .text "b" 0, .ofKind .quote "'" 0, .ofKind .primitive "number" 0,
        .ofKind .colon ":" 0,
        .ofKind .compare "compare" 0, .ofKind .leftParen "(" 0, .ofKind .operator ">=" 0,
        .ofKind .leftBrace "\x7b" 0, .ofKind .number "0" 0, .ofKind .rightBrace "\x7d" 0,
        .ofKind .rightParen ")" 0, .ofKind .bang "!" 0, .ofKind .number "1" 0, comma,
        .ofKind .rightParen ")" 0, .ofKind .errorSuffix "~error" 0, .ofKind .leftParen "(" 0,
        .ofKind .dollar "$" 0, .ofKind .number "2" 0, .ofKind .rightParen ")" 0]
    let others := lexemes.map (Lexeme.relocate fun _ => 7)
    Renders forest lexemes ∧ (∀ lexeme ∈ lexemes, lexeme.Proper) ∧
    (∀ lexeme ∈ others, lexeme.Proper) ∧
      others.map Lexeme.head = lexemes.map Lexeme.head ∧
      (interpret others).map (Param.relocateAll fun _ => 0) =
        .ok (Param.relocateAll (fun _ => 0) forest) := by
  intro comma comparison chain forest lexemes others
  have checked : ∀ lexeme ∈ lexemes ++ others, lexeme.carriesValue = lexeme.kind.carriesValue ∧
      (lexeme.kind = .operator → (Relation.ofSymbol? lexeme.value).isSome) ∧
      (lexeme.kind = .number → (Numeral.real? lexeme.value).isSome) := by decide
  have proper : ∀ lexeme ∈ lexemes ++ others, lexeme.Proper := by
    intro lexeme member
    obtain ⟨carries, operator, number⟩ := checked lexeme member
    exact ⟨carries, operator, number⟩
  obtain ⟨properHere, properOther⟩ := List.forall_mem_append.mp proper
  have same : others.map Lexeme.head = lexemes.map Lexeme.head := by decide
  have renders : Renders forest lexemes := by
    have bound : RendersOperand (.injection 0) (lexemes.extract 11 14) :=
      .injection (.braces rfl rfl (by decide) rfl)
    have compares : RendersHead "compare" comparison.params (lexemes.extract 8 15) :=
      @RendersHead.comparison (.ofKind .compare "compare" 0)
        (.ofKind .operator ">=" 0) .atLeast _ _ _ (.inl rfl) rfl (by decide) bound (.mk rfl rfl)
    have tagged : RendersTag comparison.tag (lexemes.extract 15 17) :=
      .positional rfl rfl (by decide)
    have number : RendersEntry (.mk "number" [] none) (lexemes.extract 6 7 ++ []) :=
      .mk (@RendersHead.bare (.ofKind .primitive "number" 0) (.inl rfl)) .untagged
    have written : RendersChain chain (lexemes.extract 6 17) :=
      .more number (.colon rfl) (.last (.mk compares tagged))
    have name : RendersName (.text "ab") (lexemes.extract 2 6) :=
      .text (@RendersText.mk _ _ (lexemes.extract 3 5) rfl (by decide) rfl)
    have fields : RendersFields (.text "ab" :: (chain ++ [.token comma])) (lexemes.extract 2 18) :=
      .more (.mk name .absent written) rfl .empty
    have object :
        RendersHead "object" (.text "ab" :: (chain ++ [.token comma])) (lexemes.extract 0 19) :=
      @RendersHead.object (.ofKind .object "object" 0) _ _ _ rfl fields (.mk rfl rfl)
    have suffix : RendersSuffixes [.validator (.mk "~error" [.injection 2] none)]
        (lexemes.extract 19 24) :=
      @RendersSuffixes.collecting (.ofKind .errorSuffix "~error" 0) 2 []
        (lexemes.extract 21 23) _ [] rfl (.dollar rfl rfl (by decide)) (.mk rfl rfl) .nil
    exact .mk (.last (.mk object .untagged)) suffix
  exact ⟨renders, properHere, properOther, same,
    interpret_relocate_of_renders renders properHere properOther same⟩

end Schemata.Grammar
