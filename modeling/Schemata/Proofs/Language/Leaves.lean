/-
**Forests and lexemes, read from left to right.**

Read from left to right, a forest names each lexeme that carries a value: keywords as the names of
invocations, numbers perhaps as what they stand for, and the runs between two quotes together as one
text.

* `Param.leaves` reads a forest, `Lexeme.pieces` reads lexemes, and `Leaf.StandsFor` says what a
  lexeme is read as in a forest;
* `Leaf.Becomes` compares leaves that stand for the same pieces;
* `operand?_becomes`, `comparison?_becomes` and `invocation?_becomes`: the nodes of a frame are read
  as the node that they are reduced to.
-/

import Mathlib.Data.List.Forall2
import Schemata.Proofs.Language.Nodes

namespace Schemata

/-! ### Reading a forest -/

/-- **What is read in a forest.** -/
inductive Leaf where
  | name (text : String)
  | token (lexeme : Lexeme)
  | bang
  | index (index : Nat)
  | text (text : String)
  | operator (relation : Relation)
  | number (datum : Binary64.Datum)
  | field (name : String)

/-- What an operand is read as. -/
def Operand.leaf : Operand → Leaf
  | number datum => .number datum
  | text content => .text content
  | injection index => .index index
  | field name => .field name

/-- What an error tag is read as. -/
def ErrorTag.leaf : ErrorTag → Leaf
  | positional index => .index index
  | literal text => .text text

/-- An error tag stands behind a bang. -/
def ErrorTag.leaves : Option ErrorTag → List Leaf
  | none => []
  | some tag => [.bang, tag.leaf]

mutual

/-- **A node from left to right**: a comparison as its operator and its operand, and a node without
parts as itself. -/
def Param.leaves : Param → List Leaf
  | .validator invocation => invocation.leaves
  | .token lexeme => [.token lexeme]
  | .text text => [.text text]
  | .injection index => [.index index]
  | .comparison comparison => [.operator comparison.relation, comparison.operand.leaf]

/-- An invocation from left to right: its name, its parameters, and its error tag. -/
def Invocation.leaves : Invocation → List Leaf
  | .mk name params tag => .name name :: (Param.leavesOfAll params ++ ErrorTag.leaves tag)

/-- **A forest from left to right.** -/
def Param.leavesOfAll : List Param → List Leaf
  | [] => []
  | param :: rest => param.leaves ++ Param.leavesOfAll rest

end

theorem Param.leavesOfAll_append (first second : List Param) :
    leavesOfAll (first ++ second) = leavesOfAll first ++ leavesOfAll second := by
  induction first with
  | nil => rfl
  | cons param rest ih => rw [List.cons_append, leavesOfAll, leavesOfAll, ih, List.append_assoc]

@[simp] theorem Param.leavesOfAll_singleton (param : Param) : leavesOfAll [param] = param.leaves :=
  List.append_nil _

/-! ### Reading lexemes -/

/-- **What is read in lexemes**: one that carries a value, or all that stands between two quotes. -/
inductive Piece where
  | lexeme (lexeme : Lexeme)
  | text (text : String)

namespace Lexeme

/-- **Lexemes from left to right**, perhaps behind an opening quote and the text that follows it. -/
def pieces : (opened : Option String) → List Lexeme → List Piece
  | none, [] => []
  | some text, [] => [.text text]
  | none, lexeme :: rest =>
    if lexeme.kind = .quote then pieces (some "") rest
    else if lexeme.carriesValue then .lexeme lexeme :: pieces none rest
    else pieces none rest
  | some text, lexeme :: rest =>
    if lexeme.kind = .quote then .text text :: pieces none rest
    else if lexeme.kind = .text then pieces (some (text ++ lexeme.value)) rest
    else .lexeme lexeme :: pieces (some text) rest

theorem pieces_of_carries {lexeme : Lexeme} (other : lexeme.kind ≠ .quote)
    (carries : lexeme.carriesValue = true) (rest : List Lexeme) :
    pieces none (lexeme :: rest) = .lexeme lexeme :: pieces none rest := by
  rw [pieces, if_neg other, if_pos carries]

theorem pieces_of_silent {lexeme : Lexeme} (other : lexeme.kind ≠ .quote)
    (silent : lexeme.carriesValue = false) (rest : List Lexeme) :
    pieces none (lexeme :: rest) = pieces none rest := by
  simp [pieces, other, silent]

theorem pieces_runs {runs : List Lexeme} (texts : ∀ run ∈ runs, run.kind = .text)
    (rest : List Lexeme) :
    ∀ text, pieces (some text) (runs ++ rest) =
      pieces (some (text ++ String.join (runs.map Lexeme.value))) rest := by
  induction runs with
  | nil =>
      intro text
      rw [List.map_nil, String.join_nil, String.append_empty, List.nil_append]
  | cons run runs ih =>
      intro text
      obtain ⟨isText, texts⟩ := List.forall_mem_cons.mp texts
      rw [List.cons_append, pieces, if_neg (by simp [isText]), if_pos isText, ih texts,
        List.map_cons, String.join_cons, String.append_assoc]

/-- **The runs between two quotes are read as one text.** -/
theorem pieces_rendersText {text : String} {taken : List Lexeme}
    (renders : Grammar.RendersText text taken) (rest : List Lexeme) :
    pieces none (taken ++ rest) = .text text :: pieces none rest := by
  obtain ⟨opens, texts, closes⟩ := renders
  rw [List.cons_append, pieces, if_pos opens, List.append_assoc, pieces_runs texts,
    String.empty_append, List.singleton_append, pieces, if_pos closes]

end Lexeme

/-! ### Leaves for pieces -/

/-- **What a piece is read as in a forest.** -/
inductive Leaf.StandsFor : Leaf → Piece → Prop
  | name {lexeme : Lexeme} (keyword : lexeme.kind.isKeyword = true) :
      StandsFor (.name lexeme.value) (.lexeme lexeme)
  | token (lexeme : Lexeme) : StandsFor (.token lexeme) (.lexeme lexeme)
  | bang {lexeme : Lexeme} (isBang : lexeme.kind = .bang) : StandsFor .bang (.lexeme lexeme)
  | index {lexeme : Lexeme} {index : Nat} (isNumber : lexeme.kind = .number)
      (reads : Numeral.natural? lexeme.value = some index) :
      StandsFor (.index index) (.lexeme lexeme)
  | text (text : String) : StandsFor (.text text) (.text text)
  | operator {lexeme : Lexeme} {relation : Relation} (isOperator : lexeme.kind = .operator)
      (reads : Relation.ofSymbol? lexeme.value = some relation) :
      StandsFor (.operator relation) (.lexeme lexeme)
  | number {lexeme : Lexeme} {datum : Binary64.Datum} (isNumber : lexeme.kind = .number)
      (reads : Numeral.real? lexeme.value = some datum) : StandsFor (.number datum) (.lexeme lexeme)
  | field {lexeme : Lexeme} (names : lexeme.kind = .identifier ∨ lexeme.kind.isKeyword = true) :
      StandsFor (.field lexeme.value) (.lexeme lexeme)

namespace Leaf

/-- **Leaves for pieces**, one for each, in their order. -/
def AllStandFor (leaves : List Leaf) (pieces : List Piece) : Prop :=
  List.Forall₂ StandsFor leaves pieces

theorem AllStandFor.append {first second : List Leaf} {before behind : List Piece}
    (stand : AllStandFor first before) (later : AllStandFor second behind) :
    AllStandFor (first ++ second) (before ++ behind) :=
  List.rel_append stand later

theorem AllStandFor.split {first second : List Leaf} : ∀ {pieces : List Piece},
    AllStandFor (first ++ second) pieces →
      ∃ before behind, pieces = before ++ behind ∧ AllStandFor first before ∧
        AllStandFor second behind := by
  induction first with
  | nil => exact fun {pieces} stand => ⟨[], pieces, rfl, .nil, stand⟩
  | cons leaf first ih =>
      rintro _ (_ | ⟨here, later⟩)
      obtain ⟨before, behind, rfl, standFirst, standSecond⟩ := ih later
      exact ⟨_ :: before, behind, rfl, .cons here standFirst, standSecond⟩

/-- **Some leaves become others**, which stand for the same pieces. -/
def Becomes (leaves others : List Leaf) : Prop :=
  ∀ pieces, AllStandFor leaves pieces → AllStandFor others pieces

namespace Becomes

theorem refl (leaves : List Leaf) : Becomes leaves leaves :=
  fun _ => id

theorem append {first second others more : List Leaf} (becomes : Becomes first others)
    (later : Becomes second more) : Becomes (first ++ second) (others ++ more) := by
  intro pieces stand
  obtain ⟨before, behind, rfl, standFirst, standSecond⟩ := stand.split
  exact (becomes before standFirst).append (later behind standSecond)

/-- A token becomes what stands for its lexeme. -/
theorem of_token {lexeme : Lexeme} {leaf : Leaf} (stands : leaf.StandsFor (.lexeme lexeme)) :
    Becomes [.token lexeme] [leaf] := by
  rintro _ (_ | ⟨⟨⟩, ⟨⟩⟩)
  exact .cons stands .nil

end Becomes

end Leaf

/-! ### Reductions -/

namespace Grammar

open Leaf (Becomes)

theorem token?_eq_some {kind : TokenKind} {node : Param} {lexeme : Lexeme}
    (token : node.token? kind = some lexeme) : node = .token lexeme ∧ lexeme.kind = kind := by
  cases node with
  | token other =>
      obtain ⟨same, ⟨⟩⟩ := Option.ite_none_right_eq_some.mp token
      exact ⟨rfl, same⟩
  | validator | text | injection | comparison => cases token

/-- An operand is read as its node. -/
theorem operand?_becomes {node : Param} {operand : Operand} (reads : operand? node = some operand) :
    Becomes node.leaves [operand.leaf] := by
  cases node with
  | token lexeme =>
      rw [operand?] at reads
      by_cases isNumber : lexeme.kind = .number
      · rw [if_pos isNumber] at reads
        obtain ⟨datum, real, rfl⟩ := Option.map_eq_some_iff.mp reads
        exact .of_token (.number isNumber real)
      · rw [if_neg isNumber] at reads
        obtain ⟨names, ⟨⟩⟩ := Option.ite_none_right_eq_some.mp reads
        exact .of_token (.field names)
  | text | injection =>
      cases reads
      exact .refl _
  | validator | comparison => cases reads

/-- An error tag is read as its node. -/
theorem errorTag?_becomes {node : Param} {tag : ErrorTag} (reads : errorTag? node = some tag) :
    Becomes node.leaves [tag.leaf] := by
  unfold errorTag? at reads
  split at reads
  · cases reads
    exact .refl _
  · obtain ⟨lexeme, token, inner⟩ := Option.bind_eq_some_iff.mp reads
    obtain ⟨index, natural, same⟩ := Option.bind_eq_some_iff.mp inner
    cases same
    obtain ⟨rfl, isNumber⟩ := token?_eq_some token
    exact .of_token (.index isNumber natural)

/-- **A comparison is read as the operator and the operand** that it is made of. -/
theorem comparison?_becomes {nodes : Frame} {comparison : Comparison}
    (reads : comparison? nodes = some comparison) :
    Becomes (Param.leavesOfAll nodes) (Param.comparison comparison).leaves := by
  unfold comparison? at reads
  split at reads
  · rename_i operator operand
    obtain ⟨lexeme, token, inner⟩ := Option.bind_eq_some_iff.mp reads
    obtain ⟨relation, symbol, inner⟩ := Option.bind_eq_some_iff.mp inner
    obtain ⟨made, makes, same⟩ := Option.bind_eq_some_iff.mp inner
    cases same
    obtain ⟨rfl, isOperator⟩ := token?_eq_some token
    have front : Becomes (Param.token lexeme).leaves [.operator relation] :=
      .of_token (.operator isOperator symbol)
    have whole := front.append (operand?_becomes makes)
    rwa [Param.leavesOfAll, Param.leavesOfAll_singleton]
  · cases reads

/-- A head is read as its node. -/
theorem head?_becomes {node : Param} {invocation : Invocation}
    (heads : head? node = some invocation) :
    Becomes node.leaves invocation.leaves := by
  cases node with
  | validator other =>
      cases heads
      exact .refl _
  | token lexeme =>
      obtain ⟨keyword, ⟨⟩⟩ := Option.ite_none_right_eq_some.mp heads
      exact .of_token (.name keyword)
  | text | injection | comparison => cases heads

/-- A node heads no invocation that has an error tag already. -/
def Untagged (node : Param) : Prop :=
  ∀ invocation, head? node = some invocation → invocation.tag = none

theorem Untagged.token (lexeme : Lexeme) : Untagged (.token lexeme) := by
  intro invocation heads
  obtain ⟨-, ⟨⟩⟩ := Option.ite_none_right_eq_some.mp heads
  rfl

theorem Untagged.validator (name : String) (params : List Param) :
    Untagged (.validator (.mk name params none)) := by
  rintro _ ⟨⟩
  rfl

/-- **An invocation is read as the head and the tag** that it is made of. A tag that the head had
before would be lost. -/
theorem invocation?_becomes {nodes : Frame} {invocation : Invocation}
    (untagged : ∀ node ∈ nodes.head?, Untagged node) (reads : invocation? nodes = some invocation) :
    Becomes (Param.leavesOfAll nodes) invocation.leaves := by
  unfold invocation? at reads
  split at reads
  · rw [Param.leavesOfAll_singleton]
    exact head?_becomes reads
  · rename_i node bang tag
    obtain ⟨⟨name, params, old⟩, heads, inner⟩ := Option.bind_eq_some_iff.mp reads
    obtain ⟨lexeme, token, inner⟩ := Option.bind_eq_some_iff.mp inner
    obtain ⟨made, makes, same⟩ := Option.bind_eq_some_iff.mp inner
    cases same
    have noTag : old = none := untagged node rfl _ heads
    subst noTag
    obtain ⟨rfl, isBang⟩ := token?_eq_some token
    have mark : Becomes (Param.token lexeme).leaves [.bang] := .of_token (.bang isBang)
    have whole := (head?_becomes heads).append (mark.append (errorTag?_becomes makes))
    have same : (Invocation.mk name params (some made)).leaves =
        (Invocation.mk name params none).leaves ++ ([Leaf.bang] ++ [made.leaf]) := by
      simp [Invocation.leaves, ErrorTag.leaves]
    rw [Param.leavesOfAll, Param.leavesOfAll, Param.leavesOfAll_singleton]
    exact same ▸ whole
  · cases reads

/-- Parameters are put on the keyword that ends the frame. -/
theorem applyParams?_eq_some {params around after : Frame}
    (applies : applyParams? params around = some after) :
    ∃ before lexeme, around = before ++ [.token lexeme] ∧ lexeme.kind.isKeyword = true ∧
      after = before ++ [.validator (.mk lexeme.value params none)] := by
  obtain ⟨last, ends, inner⟩ := Option.bind_eq_some_iff.mp applies
  cases last with
  | token lexeme =>
      obtain ⟨keyword, ⟨⟩⟩ := Option.ite_none_right_eq_some.mp inner
      exact ⟨_, lexeme, (List.dropLast_append_getLast? _ ends).symm, keyword, rfl⟩
  | validator | text | injection | comparison => cases inner

/-- **An invocation is read as its keyword and its parameters.** -/
theorem applyParams?_becomes {params around after : Frame}
    (applies : applyParams? params around = some after) :
    Becomes (Param.leavesOfAll around ++ Param.leavesOfAll params) (Param.leavesOfAll after) := by
  obtain ⟨before, lexeme, rfl, keyword, rfl⟩ := applyParams?_eq_some applies
  have named : Becomes [.token lexeme] [.name lexeme.value] := .of_token (.name keyword)
  have whole := (Becomes.refl (Param.leavesOfAll before)).append
    (named.append (.refl (Param.leavesOfAll params)))
  simpa [Param.leavesOfAll_append, Param.leaves, Invocation.leaves, ErrorTag.leaves] using whole

end Grammar

end Schemata
