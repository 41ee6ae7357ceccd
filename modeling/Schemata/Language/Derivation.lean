/-
**Deriving lexemes by the grammar.**

An attempt at an item starts from a frame, the nodes collected so far, and the lexemes that are
left. It answers the lexemes left after the item, or that the item does not derive, and in either
case the frame as it is then: what a failed attempt has collected stays, until the choice or the
repetition around it cuts the frame back.

* `deriveWithin` bounds the nesting of rules; `derive` gives it a bound that no derivation reaches,
  since every rule consumes a lexeme before it comes back to itself;
* `Construct.reduce?` turns the frame of a rule into one node of the frame around it;
* `interpret` derives a whole list of lexemes from the first rule.
-/

import Schemata.Language.Forest
import Schemata.Language.Grammar
import Schemata.Numeral.Reading

namespace Schemata.Grammar

/-- The nodes that a rule has collected. -/
abbrev Frame := List Param

/-- How an attempt ends: the lexemes left after it, if it derives, and the frame. -/
structure Attempt where
  rest? : Option (List Lexeme)
  frame : Frame

/-! ### Reductions -/

/-- The values of a frame of tokens, joined. -/
def joinValues? (nodes : Frame) : Option String :=
  (nodes.mapM fun
    | Param.token lexeme => some lexeme.value
    | _ => none).map String.join

/-- The operand that a node stands for. A bare keyword names a field. -/
def operand? : Param → Option Operand
  | .token lexeme =>
    if lexeme.kind = .number then (Numeral.real? lexeme.value).map .number
    else if lexeme.kind = .identifier ∨ lexeme.kind.isKeyword then some (.field lexeme.value)
    else none
  | .text text => some (.text text)
  | .injection index => some (.injection index)
  | _ => none

/-- An operator and an operand make a comparison. -/
def comparison? : Frame → Option Comparison
  | [operator, operand] => do
    let lexeme ← operator.token? .operator
    let relation ← Relation.ofSymbol? lexeme.value
    let operand ← operand? operand
    some ⟨relation, operand⟩
  | _ => none

/-- The error tag that a node stands for. -/
def errorTag? : Param → Option ErrorTag
  | .text text => some (.literal text)
  | node => do
    let lexeme ← node.token? .number
    let index ← Numeral.natural? lexeme.value
    some (.positional index)

/-- An invocation, or a keyword without parameters. -/
def head? : Param → Option Invocation
  | .validator invocation => some invocation
  | .token lexeme => if lexeme.kind.isKeyword then some (.mk lexeme.value [] none) else none
  | _ => none

/-- A head and an error tag, if there is one, make an invocation. -/
def invocation? : Frame → Option Invocation
  | [node] => head? node
  | [node, bang, tag] => do
    let invocation ← head? node
    let _ ← bang.token? .bang
    let tag ← errorTag? tag
    some (.mk invocation.name invocation.params (some tag))
  | _ => none

/-- Put parameters on the keyword that ends a frame. -/
def applyParams? (params : Frame) (around : Frame) : Option Frame := do
  let last ← around.getLast?
  match last with
  | .token lexeme =>
    if lexeme.kind.isKeyword then
      some (around.dropLast ++ [.validator (.mk lexeme.value params none)])
    else none
  | _ => none

/-- **Reduce the frame of a rule into the frame around it.** Parameters replace the keyword before
them; every other construct adds one node. -/
def Construct.reduce? (construct : Construct) (nodes around : Frame) : Option Frame :=
  match construct with
  | .text => (joinValues? nodes).map fun text => around ++ [.text text]
  | .injection => do
    let text ← joinValues? nodes
    let index ← Numeral.natural? text
    some (around ++ [.injection index])
  | .comparator => (comparison? nodes).map fun comparison => around ++ [.comparison comparison]
  | .params => applyParams? nodes around
  | .entry => (invocation? nodes).map fun invocation => around ++ [.validator invocation]

/-! ### Attempts -/

/-- A lexeme of this kind. If it carries a value, it joins the frame. -/
def deriveToken (kind : TokenKind) (frame : Frame) : List Lexeme → Attempt
  | [] => ⟨none, frame⟩
  | lexeme :: rest =>
    if lexeme.kind = kind then
      ⟨some rest, if lexeme.carriesValue then frame ++ [.token lexeme] else frame⟩
    else ⟨none, frame⟩

/-- Repeat a step as long as it derives and consumes. The frame of the step that ends the repetition
is cut back; `fuel` bounds the number of steps. -/
def repeatStep (step : Frame → List Lexeme → Attempt) : Nat → Frame → List Lexeme → Attempt
  | 0, frame, rest => ⟨some rest, frame⟩
  | fuel + 1, frame, rest =>
    match step frame rest with
    | ⟨some next, after⟩ =>
      if next.length < rest.length then repeatStep step fuel after next
      else ⟨some rest, after.take frame.length⟩
    | ⟨none, after⟩ => ⟨some rest, after.take frame.length⟩

/-- How a rule is derived. -/
abbrev RuleDeriver := RuleName → Frame → List Lexeme → Attempt

mutual

/-- One item. -/
def deriveItem (rules : RuleDeriver) : Item → Frame → List Lexeme → Attempt
  | .token kind, frame, rest => deriveToken kind frame rest
  | .rule name, frame, rest => rules name frame rest
  | .choice alternatives, frame, rest =>
    deriveChoice rules alternatives frame.length frame rest
  | .many body, frame, rest => repeatStep (deriveItems rules body) (rest.length + 1) frame rest

/-- The items of a sequence, one after the other. -/
def deriveItems (rules : RuleDeriver) : List Item → Frame → List Lexeme → Attempt
  | [], frame, rest => ⟨some rest, frame⟩
  | item :: items, frame, rest =>
    match deriveItem rules item frame rest with
    | ⟨some next, after⟩ => deriveItems rules items after next
    | failed => failed

/-- **The first alternative that derives.** After each one that does not, the frame is cut back to
the length `kept` that it had before. -/
def deriveChoice (rules : RuleDeriver) :
    List (List Item) → (kept : Nat) → Frame → List Lexeme → Attempt
  | [], _, frame, _ => ⟨none, frame⟩
  | items :: others, kept, frame, rest =>
    match deriveItems rules items frame rest with
    | ⟨none, after⟩ => deriveChoice rules others kept (after.take kept) rest
    | derived => derived

end

/-- A rule, with at most `depth` rules open inside one another. A rule with a construct that does
not derive, or whose frame cannot be reduced, leaves the frame around it as it was. -/
def deriveWithin : (depth : Nat) → RuleDeriver
  | 0, _, frame, _ => ⟨none, frame⟩
  | depth + 1, name, frame, rest =>
    match name.definition.construct with
    | none => deriveItems (deriveWithin depth) name.definition.items frame rest
    | some construct =>
      match deriveItems (deriveWithin depth) name.definition.items [] rest with
      | ⟨none, _⟩ => ⟨none, frame⟩
      | ⟨some next, nodes⟩ =>
        match construct.reduce? nodes frame with
        | some reduced => ⟨some next, reduced⟩
        | none => ⟨none, frame⟩

/-- How many rules may open inside one another before one of them consumes a lexeme. -/
def rankCount : Nat := 4

/-- **A rule.** -/
def derive : RuleDeriver := fun name frame rest =>
  deriveWithin (rankCount * (rest.length + 1)) name frame rest

/-- **The forest of a list of lexemes**, which the first rule has to derive in full. -/
def interpret (lexemes : List Lexeme) : Except ParseError (List Param) :=
  match derive .program [] lexemes with
  | ⟨some [], forest⟩ => .ok forest
  | _ => .error .underivable

/-- The forest of a schema text. -/
def parse (text : String) : Except ParseError (List Param) := do
  interpret (← Lexeme.tokenize text)

end Schemata.Grammar
