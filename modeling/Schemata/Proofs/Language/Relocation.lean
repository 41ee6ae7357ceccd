/-
**The place of a text does not matter.**

A text that stands behind another has the same lexemes with larger offsets. Nothing that lexemes
build depends on their offsets, nor on the nodes before it.

* `Lexeme.relocate` and `Param.relocate` move offsets;
* `Lexeme.Lexes.shift`: the lexemes of a text that stands further behind;
* `Builds.relocate` and `Builds.behind`: what lexemes build with other offsets, and behind other
  nodes;
-/

import Schemata.Proofs.Language.Lookahead
import Schemata.Proofs.Language.Scanning

namespace Schemata

/-! ### Other offsets -/

/-- A lexeme at another place. -/
def Lexeme.relocate (move : Nat → Nat) (lexeme : Lexeme) : Lexeme :=
  { lexeme with offset := move lexeme.offset }

mutual

/-- **A node whose lexemes stand elsewhere.** -/
def Param.relocate (move : Nat → Nat) : Param → Param
  | .token lexeme => .token (lexeme.relocate move)
  | .validator invocation => .validator (invocation.relocate move)
  | .text text => .text text
  | .injection index => .injection index
  | .comparison comparison => .comparison comparison

/-- An invocation whose lexemes stand elsewhere. -/
def Invocation.relocate (move : Nat → Nat) : Invocation → Invocation
  | .mk name params tag => .mk name (Param.relocateAll move params) tag

/-- Nodes whose lexemes stand elsewhere. -/
def Param.relocateAll (move : Nat → Nat) : List Param → List Param
  | [] => []
  | param :: rest => param.relocate move :: Param.relocateAll move rest

end

theorem Param.relocateAll_eq_map (move : Nat → Nat) (params : List Param) :
    relocateAll move params = params.map (relocate move) := by
  induction params with
  | nil => rfl
  | cons param rest ih => rw [relocateAll, ih, List.map_cons]

/-! ### Scanning -/

namespace LexicalUnit

/-- A unit with its offset, further behind. -/
def shift (distance : Nat) (unit : Nat × LexicalUnit) : Nat × LexicalUnit :=
  (distance + unit.1, unit.2)

/-- **A text that stands further behind is scanned alike.** -/
theorem scan_shift (distance : Nat) {text : List Char} : ∀ {offset : Nat},
    scan (distance + offset) text = (scan offset text).map (List.map (shift distance)) := by
  induction length : text.length using Nat.strongRecOn generalizing text with
  | ind _ ih =>
      subst length
      intro offset
      rw [scan_eq, scan_eq offset]
      split
      · rfl
      · rename_i c more remaining
        split
        · rfl
        · rename_i unit rest read
          have shorter := length_lt_of_next read
          have fewer := (List.dropWhile_suffix isBlank (l := text)).length_le
          rw [remaining] at fewer
          dsimp only
          rw [Nat.add_assoc, Nat.add_assoc, ih rest.length (by omega) rfl]
          cases scan _ rest <;> rfl

end LexicalUnit

namespace Lexeme

theorem ofQuotedParts_shift (distance : Nat) (parts : List QuotedPart) : ∀ offset,
    ofQuotedParts (distance + offset) parts =
      (ofQuotedParts offset parts).map (relocate (distance + ·)) := by
  induction parts with
  | nil => exact fun _ => rfl
  | cons part parts ih =>
      intro offset
      rw [ofQuotedParts, ofQuotedParts, Nat.add_assoc, ih, List.map_cons]
      cases part <;> rfl

/-- A unit that is scanned further behind has the same lexemes. -/
theorem ofUnit_shift (distance offset : Nat) {unit : LexicalUnit} {lexemes : List Lexeme}
    (classifies : ofUnit offset unit = .ok lexemes) :
    ofUnit (distance + offset) unit = .ok (lexemes.map (relocate (distance + ·))) := by
  cases unit with
  | quoted parts =>
      cases classifies
      rw [ofUnit, Nat.add_assoc, ofQuotedParts_shift]
      rfl
  | suffix word | keyword word =>
      unfold ofUnit at classifies ⊢
      dsimp only at classifies ⊢
      split at classifies
      · cases classifies
        rfl
      · cases classifies
  | word text =>
      cases classifies
      rw [ofUnit]
      unfold ofWord
      split
      · rfl
      · split <;> rfl
  | _ =>
      cases classifies
      rfl

/-- **Units that are scanned further behind have the same lexemes.** -/
theorem ofUnits_shift (distance : Nat) {units : List (Nat × LexicalUnit)} :
    ∀ {lexemes : List Lexeme}, ofUnits units = .ok lexemes →
      ofUnits (units.map (LexicalUnit.shift distance)) =
        .ok (lexemes.map (relocate (distance + ·))) := by
  induction units with
  | nil =>
      intro lexemes classifies
      cases classifies
      rfl
  | cons unit units ih =>
      intro lexemes classifies
      obtain ⟨offset, unit⟩ := unit
      rw [ofUnits] at classifies
      cases here : ofUnit offset unit with
      | error _ => simp [here, bind, Except.bind] at classifies
      | ok first =>
          cases later : ofUnits units with
          | error _ => simp [here, later, bind, Except.bind] at classifies
          | ok others =>
              rw [here, later] at classifies
              cases classifies
              rw [List.map_cons, ofUnits, LexicalUnit.shift, ofUnit_shift distance offset here,
                ih later, List.map_append]
              rfl

/-- **A text that stands further behind has the same lexemes.** -/
theorem Lexes.shift (distance : Nat) {offset : Nat} {text : List Char} {lexemes : List Lexeme}
    (lexes : Lexes offset text lexemes) :
    Lexes (distance + offset) text (lexemes.map (relocate (distance + ·))) := by
  obtain ⟨units, scans, classifies⟩ := lexes
  exact ⟨units.map (LexicalUnit.shift distance),
    (LexicalUnit.scan_shift distance).trans (by rw [scans]; rfl), ofUnits_shift distance classifies⟩

end Lexeme

/-! ### Building -/

namespace Grammar

section Relocation

variable (move : Nat → Nat)

theorem joinValues?_relocate (nodes : Frame) :
    joinValues? (nodes.map (Param.relocate move)) = joinValues? nodes := by
  unfold joinValues?
  rw [List.mapM_map]
  congr 2
  funext node
  cases node <;> rfl

theorem token?_relocate (kind : TokenKind) (node : Param) :
    (node.relocate move).token? kind = (node.token? kind).map (Lexeme.relocate move) := by
  cases node with
  | token lexeme =>
      rw [Param.relocate, Param.token?, Param.token?, Lexeme.relocate]
      split <;> rfl
  | _ => rfl

theorem operand?_relocate (node : Param) : operand? (node.relocate move) = operand? node := by
  cases node <;> rfl

theorem errorTag?_relocate (node : Param) : errorTag? (node.relocate move) = errorTag? node := by
  cases node with
  | token lexeme =>
      by_cases number : lexeme.kind = .number <;>
        simp [errorTag?, Param.relocate, Param.token?, Lexeme.relocate, number]
  | _ => rfl

theorem head?_relocate (node : Param) :
    head? (node.relocate move) = (head? node).map (Invocation.relocate move) := by
  cases node with
  | token lexeme =>
      rw [Param.relocate, head?, head?, Lexeme.relocate]
      split <;> rfl
  | _ => rfl

theorem comparison?_relocate (nodes : Frame) :
    comparison? (nodes.map (Param.relocate move)) = comparison? nodes := by
  match nodes with
  | [operator, operand] =>
      simp only [List.map_cons, List.map_nil, comparison?, token?_relocate, operand?_relocate]
      cases operator.token? .operator <;> rfl
  | [] | [_] | _ :: _ :: _ :: _ => rfl

theorem invocation?_relocate (nodes : Frame) :
    invocation? (nodes.map (Param.relocate move)) =
      (invocation? nodes).map (Invocation.relocate move) := by
  match nodes with
  | [node] => exact head?_relocate move node
  | [node, bang, tag] =>
      simp only [List.map_cons, List.map_nil, invocation?, head?_relocate, token?_relocate,
        errorTag?_relocate]
      cases head? node with
      | none => rfl
      | some invocation =>
          cases bang.token? .bang with
          | none => rfl
          | some _ =>
              cases errorTag? tag with
              | none => rfl
              | some _ =>
                  cases invocation
                  rfl
  | [] | [_, _] | _ :: _ :: _ :: _ :: _ => rfl

theorem applyParams?_relocate (params around : Frame) :
    applyParams? (params.map (Param.relocate move)) (around.map (Param.relocate move)) =
      (applyParams? params around).map (List.map (Param.relocate move)) := by
  unfold applyParams?
  rw [List.getLast?_map]
  cases around.getLast? with
  | none => rfl
  | some last =>
      cases last with
      | token lexeme =>
          simp only [Option.map_some, Option.bind_eq_bind, Option.bind_some, Param.relocate,
            Lexeme.relocate]
          split
          · simp [Param.relocate, Invocation.relocate, Param.relocateAll_eq_map]
          · rfl
      | _ => rfl

/-- **Constructs reduce lexemes with other offsets alike.** -/
theorem Construct.reduce?_relocate (construct : Construct) (nodes frame : Frame) :
    construct.reduce? (nodes.map (Param.relocate move)) (frame.map (Param.relocate move)) =
      (construct.reduce? nodes frame).map (List.map (Param.relocate move)) := by
  cases construct with
  | text =>
      simp only [reduce?, joinValues?_relocate]
      cases joinValues? nodes with
      | none => rfl
      | some text => simp [Param.relocate]
  | injection =>
      simp only [reduce?, joinValues?_relocate]
      cases joinValues? nodes with
      | none => rfl
      | some text =>
          cases index : Numeral.natural? text <;> simp [index, Param.relocate]
  | comparator =>
      simp only [reduce?, comparison?_relocate]
      cases comparison? nodes with
      | none => rfl
      | some comparison => simp [Param.relocate]
  | params => exact applyParams?_relocate move nodes frame
  | entry =>
      simp only [reduce?, invocation?_relocate]
      cases invocation? nodes with
      | none => rfl
      | some invocation => simp [Param.relocate]

theorem pushed_relocate (lexeme : Lexeme) (frame : Frame) :
    pushed (lexeme.relocate move) (frame.map (Param.relocate move)) =
      (pushed lexeme frame).map (Param.relocate move) := by
  unfold pushed
  cases carries : lexeme.carriesValue <;> simp [Lexeme.relocate, Param.relocate, carries]

theorem RuleName.Admits.relocate {name : RuleName} {taken : List Lexeme}
    (admits : name.Admits taken) :
    name.Admits (taken.map (Lexeme.relocate move)) := by
  intro either lexeme member number
  obtain ⟨original, there, rfl⟩ := List.mem_map.mp member
  exact admits either original there number

/-- **Lexemes with other offsets build the same nodes.** -/
theorem Builds.relocate {items : List Item} {frame result : Frame} {taken : List Lexeme}
    (builds : Builds items frame taken result) :
    Builds items (frame.map (Param.relocate move)) (taken.map (Lexeme.relocate move))
      (result.map (Param.relocate move)) := by
  induction builds with
  | nil => exact .nil _
  | token same _ ih => exact .token same (pushed_relocate move _ _ ▸ ih)
  | rule plain _ admits _ ih ihLater =>
      rw [List.map_append]
      exact .rule plain ih (admits.relocate move) ihLater
  | construct constructs _ admits reduces _ ih ihLater =>
      rw [List.map_append]
      refine .construct constructs ih (admits.relocate move) ?_ ihLater
      rw [Construct.reduce?_relocate, reduces]
      rfl
  | choice member _ _ ih ihLater =>
      rw [List.map_append]
      exact .choice member ih ihLater
  | stop _ ih => exact .stop ih
  | again _ _ ih ihLater =>
      rw [List.map_append]
      exact .again ih ihLater

end Relocation

/-! ### Behind other nodes -/

theorem applyParams?_behind (before : Frame) {params around middle : Frame}
    (applies : applyParams? params around = some middle) :
    applyParams? params (before ++ around) = some (before ++ middle) := by
  obtain ⟨last, ends, inner⟩ := Option.bind_eq_some_iff.mp applies
  have nonempty : around ≠ [] := by
    rintro rfl
    cases ends
  unfold applyParams?
  rw [List.getLast?_append, ends]
  cases last with
  | token lexeme =>
      dsimp only at inner
      simp only [Option.some_or, Option.bind_eq_bind, Option.bind_some]
      split at inner
      · rename_i keyword
        cases inner
        rw [if_pos keyword, List.dropLast_append_of_ne_nil nonempty, List.append_assoc]
      · cases inner
  | _ => cases inner

/-- Constructs reduce alike behind other nodes. -/
theorem Construct.reduce?_behind (construct : Construct) (before : Frame)
    {nodes frame middle : Frame} (reduces : construct.reduce? nodes frame = some middle) :
    construct.reduce? nodes (before ++ frame) = some (before ++ middle) := by
  cases construct with
  | params => exact applyParams?_behind before reduces
  | injection =>
      obtain ⟨text, joins, inner⟩ := Option.bind_eq_some_iff.mp reduces
      obtain ⟨index, reads, same⟩ := Option.bind_eq_some_iff.mp inner
      cases same
      simp [reduce?, joins, reads]
  | _ =>
      obtain ⟨made, makes, rfl⟩ := Option.map_eq_some_iff.mp reduces
      simp [reduce?, makes]

/-- **What items build behind other nodes.** -/
theorem Builds.behind (before : Frame) {items : List Item} {frame result : Frame}
    {taken : List Lexeme} (builds : Builds items frame taken result) :
    Builds items (before ++ frame) taken (before ++ result) := by
  induction builds with
  | nil => exact .nil _
  | @token _ lexeme _ frame _ _ same _ ih =>
      have pushes : pushed lexeme (before ++ frame) = before ++ pushed lexeme frame := by
        unfold pushed
        split <;> simp
      exact .token same (pushes ▸ ih)
  | rule plain _ admits _ ih ihLater => exact .rule plain ih admits ihLater
  | construct constructs inside admits reduces _ _ ihLater =>
      exact .construct constructs inside admits (Construct.reduce?_behind _ before reduces) ihLater
  | choice member _ _ ih ihLater => exact .choice member ih ihLater
  | stop _ ih => exact .stop ih
  | again _ _ ih ihLater => exact .again ih ihLater

end Grammar

end Schemata
