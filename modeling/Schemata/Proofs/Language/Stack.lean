/-
**Deriving with a stack of open frames.**

A rule with a construct opens a frame of its own. When it has been attempted, the frame is closed,
and if the items have derived it is reduced to a node of the frame below. A choice and a repetition
note how many frames are open and how much the innermost one holds, and a failure cuts the stack
back to that.

`Grammar.derive` has no stack, since it hands to each attempt the one frame that it may change. Here
the derivation keeps all open frames, goes from offset to offset, and has no bound on its depth.

* `Snapshot` is what is noted of a stack, and `Snapshot.restore` cuts a stack back to it;
* `reduce` puts a closed frame into the one below;
* `rule` and its companions derive on a `Context`. They are fixed points, with no outcome where the
  recursion does not end, and they record every call of a rule and every cut;
* `Holds` says that a stack has what a derivation without a stack has collected, and
  `Place.restore_stack` that cuts restore it if the derivation has only added nodes.
-/

import Schemata.Proofs.Language.Growth
import Schemata.Proofs.Language.Nodes
import Schemata.Proofs.Language.Scanning

namespace Schemata.Grammar

open LexicalUnit (byteCount)

/-- Whether the frame of a construct collects one text, and not nodes. -/
def Construct.collectsText : Construct → Bool
  | .text | .injection => true
  | .comparator | .params | .entry => false

namespace Stacked

/-! ### Open frames -/

/-- What an open frame has collected: nodes, or the values of tokens as one text. -/
inductive Buffer where
  | nodes (nodes : Frame)
  | text (text : String)

namespace Buffer

/-- How much there is: the number of nodes, or of bytes. -/
def length : Buffer → Nat
  | .nodes held => held.length
  | .text held => byteCount held.toList

/-- The characters at the front that have at most so many bytes together. -/
def front : Nat → List Char → List Char
  | _, [] => []
  | bytes, c :: characters =>
    if c.utf8Size ≤ bytes then c :: front (bytes - c.utf8Size) characters else []

/-- Keep so many nodes or bytes. -/
def truncate (length : Nat) : Buffer → Buffer
  | .nodes held => .nodes (held.take length)
  | .text held => .text (String.ofList (front length held.toList))

/-- Collect a lexeme: as a token, or by its value. -/
def push (lexeme : Lexeme) : Buffer → Buffer
  | .nodes held => .nodes (held ++ [.token lexeme])
  | .text held => .text (held ++ lexeme.value)

end Buffer

/-- An open frame with the construct that it is reduced to. The frame at the bottom has none. -/
structure OpenFrame where
  construct? : Option Construct
  buffer : Buffer

/-- The frame that a construct opens. -/
def OpenFrame.ofConstruct (construct : Construct) : OpenFrame :=
  ⟨some construct, if construct.collectsText then .text "" else .nodes []⟩

/-- The open frames, the innermost first. -/
abbrev Stack := List OpenFrame

/-! ### Snapshots -/

/-- How many frames are open, and how much the innermost one holds. -/
structure Snapshot where
  depth : Nat
  length : Nat

namespace Snapshot

/-- The snapshot of a stack. -/
def of (stack : Stack) : Snapshot :=
  ⟨stack.length, (stack.head?.map fun frame => frame.buffer.length).getD 0⟩

/-- **Cut a stack back**: close the frames that are too many, and truncate what is then the
innermost. -/
def restore (snapshot : Snapshot) (stack : Stack) : Stack :=
  match stack.drop (stack.length - snapshot.depth) with
  | [] => []
  | frame :: below => { frame with buffer := frame.buffer.truncate snapshot.length } :: below

end Snapshot

/-! ### Reductions -/

/-- Add a node to the innermost frame, if that collects nodes. -/
def splice (node : Param) : Stack → Bool × Stack
  | ⟨construct?, .nodes nodes⟩ :: below => (true, ⟨construct?, .nodes (nodes ++ [node])⟩ :: below)
  | stack => (false, stack)

/-- Invoke the keyword that ends the innermost frame. The keyword is taken off. -/
def invokeKeyword (params : Frame) : Stack → Option Param × Stack
  | ⟨construct?, .nodes nodes⟩ :: below =>
    match nodes.getLast? with
    | some (.token keyword) =>
      if keyword.kind.isKeyword then
        (some (.validator (.mk keyword.value params none)),
          ⟨construct?, .nodes nodes.dropLast⟩ :: below)
      else (none, ⟨construct?, .nodes nodes⟩ :: below)
    | _ => (none, ⟨construct?, .nodes nodes⟩ :: below)
  | stack => (none, stack)

/-- The node that a closed frame is reduced to, with the stack below as that leaves it. -/
def reduceToNode (frame : OpenFrame) (below : Stack) : Option Param × Stack :=
  match frame.construct?, frame.buffer with
  | some .text, .text text => (some (.text text), below)
  | some .injection, .text text => ((Numeral.natural? text).map .injection, below)
  | some .comparator, .nodes nodes => ((comparison? nodes).map .comparison, below)
  | some .params, .nodes nodes => invokeKeyword nodes below
  | some .entry, .nodes nodes => ((invocation? nodes).map .validator, below)
  | _, _ => (none, below)

/-- **Reduce a closed frame into the one below.** Whether it could be reduced decides whether the
rule derives. -/
def reduce (frame : OpenFrame) (below : Stack) : Bool × Stack :=
  match reduceToNode frame below with
  | (some node, below) => splice node below
  | (none, below) => (false, below)

/-! ### Contexts -/

/-- A call of a rule: where it starts, the stack before, where it ends if it derives, and the stack
after. -/
structure Call where
  name : RuleName
  offset : Nat
  before : Stack
  next? : Option Nat
  after : Stack

/-- What is recorded: a call that has ended, or a cut, with the stack of which the snapshot had been
taken and the stack that the cut has left. -/
inductive Record where
  | call (call : Call)
  | cut (taken left : Stack)

/-- The open frames, and the records so far, the latest last. No derivation reads the records. -/
structure Context where
  stack : Stack
  records : List Record

namespace Context

/-- One frame is open. -/
def start : Context :=
  ⟨[⟨none, .nodes []⟩], []⟩

/-- Open a frame. -/
def opened (context : Context) (construct : Construct) : Context :=
  { context with stack := OpenFrame.ofConstruct construct :: context.stack }

/-- **Cut the stack back** to the snapshot that was taken of it. -/
def cutBack (taken : Context) (context : Context) : Context :=
  let left := (Snapshot.of taken.stack).restore context.stack
  ⟨left, context.records ++ [Record.cut taken.stack left]⟩

end Context

/-- How an attempt ends: the offset behind it, if it derives, and the context. -/
structure Outcome where
  next? : Option Nat
  context : Context

namespace Outcome

/-- **Close the innermost frame**, and reduce it if the items in it have derived. -/
def closed (outcome : Outcome) : Outcome :=
  match outcome.context.stack with
  | [] => ⟨none, outcome.context⟩
  | frame :: below =>
    match outcome.next? with
    | none => ⟨none, { outcome.context with stack := below }⟩
    | some next =>
      match reduce frame below with
      | (true, reduced) => ⟨some next, { outcome.context with stack := reduced }⟩
      | (false, left) => ⟨none, { outcome.context with stack := left }⟩

/-- The call that ends with an outcome. -/
def call (outcome : Outcome) (name : RuleName) (offset : Nat) (before : Context) : Call :=
  ⟨name, offset, before.stack, outcome.next?, outcome.context.stack⟩

/-- Record a call that ends. -/
def recorded (outcome : Outcome) (call : Call) : Outcome :=
  { outcome with
    context := { outcome.context with records := outcome.context.records ++ [.call call] } }

end Outcome

/-! ### Deriving -/

/-- A lexeme of this kind. If it carries a value, the innermost frame collects it. -/
def token (lexemes : List Lexeme) (kind : TokenKind) (offset : Nat) (context : Context) : Outcome :=
  match lexemes[offset]? with
  | none => ⟨none, context⟩
  | some lexeme =>
    if lexeme.kind = kind then
      if lexeme.carriesValue then
        match context.stack with
        | [] => ⟨none, context⟩
        | frame :: below =>
          ⟨some (offset + 1),
            { context with stack := { frame with buffer := frame.buffer.push lexeme } :: below }⟩
      else ⟨some (offset + 1), context⟩
    else ⟨none, context⟩

/-- A derivation without bounds, from an offset and a context. -/
abbrev Derivation := Nat → Context → Option Outcome

-- The functions are called through `by apply`, so their fixed point does not hold the places of the
-- calls.
mutual

/-- One item. -/
def item (lexemes : List Lexeme) : Item → Nat → Context → Option Outcome
  | .token kind, offset, context => some (token lexemes kind offset context)
  | .rule name, offset, context =>
    (by apply rule : List Lexeme → RuleName → Derivation) lexemes name offset context
  | .choice alternatives, offset, context =>
    (by apply choice : List Lexeme → List (List Item) → Context → Derivation) lexemes
      alternatives context offset context
  | .many body, offset, context =>
    (by apply many : List Lexeme → List Item → Derivation) lexemes body offset context
partial_fixpoint

/-- The items of a sequence, one after the other. -/
def items (lexemes : List Lexeme) : List Item → Nat → Context → Option Outcome
  | [], offset, context => some ⟨some offset, context⟩
  | first :: others, offset, context => do
    match ← (by apply item : List Lexeme → Item → Derivation) lexemes first offset context with
    | ⟨some next, after⟩ =>
      (by apply items : List Lexeme → List Item → Derivation) lexemes others next after
    | failed => some failed
partial_fixpoint

/-- **The first alternative that derives.** After each one that does not, the stack is cut back to
the snapshot that was taken before the first. -/
def choice (lexemes : List Lexeme) :
    List (List Item) → (taken : Context) → Nat → Context → Option Outcome
  | [], _, _, context => some ⟨none, context⟩
  | first :: others, taken, offset, context => do
    match ← (by apply items : List Lexeme → List Item → Derivation) lexemes first offset
      context with
    | ⟨none, after⟩ =>
      (by apply choice : List Lexeme → List (List Item) → Context → Derivation) lexemes others
        taken offset (taken.cutBack after)
    | derived => some derived
partial_fixpoint

/-- Repeat a sequence for as long as it derives and takes a lexeme. The stack is cut back to the
snapshot that was taken before the repetition that ends it. -/
def many (lexemes : List Lexeme) (body : List Item) (offset : Nat) (context : Context) :
    Option Outcome := do
  match ← (by apply items : List Lexeme → List Item → Derivation) lexemes body offset context with
  | ⟨some next, after⟩ =>
    if offset < next then
      (by apply many : List Lexeme → List Item → Derivation) lexemes body next after
    else some ⟨some offset, context.cutBack after⟩
  | ⟨none, after⟩ => some ⟨some offset, context.cutBack after⟩
partial_fixpoint

/-- **A rule.** The frame that it opens is closed in any case. -/
def rule (lexemes : List Lexeme) (name : RuleName) (offset : Nat) (context : Context) :
    Option Outcome :=
  match name.definition.construct with
  | none => do
    let outcome ← (by apply items : List Lexeme → List Item → Derivation) lexemes
        name.definition.items
      offset context
    some (outcome.recorded (outcome.call name offset context))
  | some construct => do
    let inside ← (by apply items : List Lexeme → List Item → Derivation) lexemes
        name.definition.items
      offset (context.opened construct)
    some (inside.closed.recorded (inside.closed.call name offset context))
partial_fixpoint

end

/-- Rules that are called one after the other, each at an offset of its own. -/
def calls (lexemes : List Lexeme) : List (RuleName × Nat) → Context → Option Context
  | [], context => some context
  | (name, offset) :: others, context => do
    let outcome ← rule lexemes name offset context
    calls lexemes others outcome.context

/-- **The forest of a list of lexemes**, which the first rule has to derive in full: what the frame
at the bottom has collected. -/
def interpret (lexemes : List Lexeme) : Option (Except ParseError (List Param)) := do
  let outcome ← rule lexemes .program 0 .start
  if outcome.next? = some lexemes.length then
    match outcome.context.stack.getLast? with
    | some ⟨_, .nodes nodes⟩ => some (.ok nodes)
    | _ => some (.ok [])
  else some (.error .underivable)

/-! ### What a stack holds -/

theorem Buffer.front_append (first second : List Char) :
    front (byteCount first) (first ++ second) = first := by
  induction first with
  | nil =>
      cases second with
      | nil => rfl
      | cons c second => exact if_neg (Nat.not_le_of_lt c.utf8Size_pos)
  | cons c first ih =>
      have counts : byteCount (c :: first) = c.utf8Size + byteCount first := rfl
      rw [counts, List.cons_append, front, if_pos (Nat.le_add_right _ _),
        Nat.add_sub_cancel_left, ih]

/-- A buffer has what a derivation has collected: the same nodes, or if only tokens may be
collected, their values as one text. -/
inductive Buffer.Holds : (literal : Bool) → Buffer → Frame → Prop
  | nodes (frame : Frame) : Holds false (.nodes frame) frame
  | text {frame : Frame} {text : String} (joins : joinValues? frame = some text) :
      Holds true (.text text) frame

namespace Buffer.Holds

variable {literal : Bool} {buffer grown : Buffer} {frame more : Frame}

theorem push (holds : Holds literal buffer frame) (lexeme : Lexeme) :
    Holds literal (buffer.push lexeme) (frame ++ [Param.token lexeme]) := by
  cases holds with
  | nodes => exact .nodes _
  | text joins =>
      refine .text ?_
      rw [joinValues?_append joins, joinValues?_singleton]
      rfl

/-- **Truncating a buffer to an earlier length restores it**, if it has only been added to. -/
theorem truncate (holds : Holds literal buffer frame) (after : Holds literal grown more)
    (grows : frame <+: more) : grown.truncate buffer.length = buffer := by
  obtain ⟨added, rfl⟩ := grows
  cases holds with
  | nodes =>
      cases after
      show Buffer.nodes ((frame ++ added).take frame.length) = _
      rw [List.take_left]
  | @text _ text joins =>
      obtain _ | joinsMore := after
      rw [joinValues?_append joins] at joinsMore
      obtain ⟨addedText, -, rfl⟩ := Option.map_eq_some_iff.mp joinsMore
      -- the cut is between characters, since the text in front of it is whole
      show Buffer.text
        (String.ofList (front (byteCount text.toList) (text ++ addedText).toList)) = _
      rw [String.toList_append, front_append, String.ofList_toList]

end Buffer.Holds

/-- Where a derivation collects: in a frame with this construct, above these frames. The frame of a
literal place collects a text. -/
structure Place where
  literal : Bool
  construct? : Option Construct
  below : Stack

/-- The innermost frame of a stack is at a place, and holds what a derivation has collected. -/
def Place.Holds (place : Place) (stack : Stack) (frame : Frame) : Prop :=
  ∃ buffer, Buffer.Holds place.literal buffer frame ∧
    stack = ⟨place.construct?, buffer⟩ :: place.below

/-- **Cutting a stack back restores it**, if its innermost frame has only been added to. -/
theorem Place.restore_stack {place : Place} {stack grown : Stack} {frame more : Frame}
    (holds : place.Holds stack frame) (after : place.Holds grown more) (grows : frame <+: more) :
    (Snapshot.of stack).restore grown = stack := by
  obtain ⟨buffer, held, rfl⟩ := holds
  obtain ⟨added, heldAfter, rfl⟩ := after
  simp [Snapshot.restore, Snapshot.of, held.truncate heldAfter grows]

end Stacked

end Schemata.Grammar
