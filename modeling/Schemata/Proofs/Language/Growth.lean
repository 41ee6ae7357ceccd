/-
**What a failed attempt has collected stands behind the frame it started from.**

A choice and a repetition cut a frame back to the length that it had. That restores the frame, since
an attempt only adds nodes behind it. Parameters do replace a node, the keyword before them; but
they end the sequence in which they stand, so no failure comes behind them.

* `Item.adds` says that an item only adds nodes, and `Item.keeps` that every failure inside it
  leaves the frame in front of what has been collected;
* `RuleName.definition_keeps` and `RuleName.definition_adds`: the rules of the table do so;
* `deriveWithin_growing`: attempts leave the frame in front, so cutting it back restores it
  (`Frame.take_of_grown`).
-/

import Schemata.Language.Derivation

namespace Schemata.Grammar

/-! ### Frames that grow -/

/-- **Cutting a grown frame back restores it.** -/
theorem Frame.take_of_grown {frame after : Frame} (grown : frame <+: after) :
    after.take frame.length = frame :=
  (List.prefix_iff_eq_take.mp grown).symm

/-- A rule only adds nodes. Those of parameters replace a keyword, which the rule of heads adds
itself. -/
def RuleName.adds (name : RuleName) : Bool :=
  name ≠ .validator && name.definition.construct ≠ some .params

mutual

/-- An item only adds nodes to the frame. -/
def Item.adds : Item → Bool
  | .token _ => true
  | .rule name => name.adds
  | .choice alternatives => Item.allAdd alternatives
  | .many body => Item.sequenceAdds body

/-- A sequence only adds nodes to the frame. -/
def Item.sequenceAdds : List Item → Bool
  | [] => true
  | item :: items => item.adds && Item.sequenceAdds items

/-- Each of some sequences only adds nodes to the frame. -/
def Item.allAdd : List (List Item) → Bool
  | [] => true
  | items :: others => Item.sequenceAdds items && Item.allAdd others

end

mutual

/-- Failures inside an item leave the frame in front: what replaces a node stands last in its
sequence, and is not repeated. -/
def Item.keeps : Item → Bool
  | .token _ | .rule _ => true
  | .choice alternatives => Item.allKeep alternatives
  | .many body => Item.sequenceKeeps body && Item.sequenceAdds body

/-- Failures inside a sequence leave the frame in front. -/
def Item.sequenceKeeps : List Item → Bool
  | [] => true
  | item :: items => item.keeps && (item.adds || items.isEmpty) && Item.sequenceKeeps items

/-- Failures inside some sequences leave the frame in front. -/
def Item.allKeep : List (List Item) → Bool
  | [] => true
  | items :: others => Item.sequenceKeeps items && Item.allKeep others

end

theorem Item.sequenceKeeps_cons {item : Item} {items : List Item} :
    Item.sequenceKeeps (item :: items) = true ↔
      item.keeps = true ∧ (item.adds = true ∨ items = []) ∧ Item.sequenceKeeps items = true := by
  simp [Item.sequenceKeeps, and_assoc]

/-- **Failures inside a rule leave the frame in front.** In an entry there is a tag behind a head,
but the head stands first in the frame of the entry. -/
theorem RuleName.definition_keeps {name : RuleName} (other : name ≠ .entry) :
    Item.sequenceKeeps name.definition.items = true := by
  cases name <;> first | rfl | exact absurd rfl other

/-- In every rule the choices and the repetitions leave the frame in front when they fail, an entry
included. -/
theorem RuleName.definition_all_keep (name : RuleName) :
    ∀ item ∈ name.definition.items, item.keeps = true := by
  rw [← List.all_eq_true]
  cases name <;> rfl

theorem Item.keeps_of_sequenceKeeps : ∀ {items : List Item}, Item.sequenceKeeps items = true →
    ∀ item ∈ items, item.keeps = true
  | [], _ => nofun
  | _ :: _, keeps => by
      obtain ⟨here, -, later⟩ := Item.sequenceKeeps_cons.mp keeps
      exact List.forall_mem_cons.mpr ⟨here, Item.keeps_of_sequenceKeeps later⟩

/-- **Rules that only add nodes to the frame around them** have items that do. -/
theorem RuleName.definition_adds {name : RuleName} (plain : name.definition.construct = none)
    (adds : name.adds = true) : Item.sequenceAdds name.definition.items = true := by
  cases name <;> first | rfl | exact absurd adds (by decide) | cases plain

/-! ### Attempts -/

/-- An attempt leaves the frame in front if it fails, and if `adds` also if it derives. -/
def Attempt.Grows (attempt : Attempt) (frame : Frame) (adds : Bool) : Prop :=
  attempt.rest? = none ∨ adds = true → frame <+: attempt.frame

/-- **Rules leave the frame in front if they fail**, and if they only add nodes. -/
def RuleDeriver.Growing (rules : RuleDeriver) : Prop :=
  ∀ name frame rest, (rules name frame rest).Grows frame name.adds

namespace Attempt.Grows

variable {frame : Frame} {adds : Bool}

theorem same (rest? : Option (List Lexeme)) : Grows ⟨rest?, frame⟩ frame adds :=
  fun _ => List.prefix_rfl

/-- An attempt that goes on behind one that derives. -/
theorem trans {attempt last : Attempt} {first second : Bool} (grows : attempt.Grows frame first)
    (later : last.Grows attempt.frame second) (kept : first = true ∨ last.rest? ≠ none) :
    last.Grows frame (first && second) := by
  intro either
  have adds : first = true := by
    rcases kept with adds | derivesLast
    · exact adds
    · exact (Bool.and_eq_true_iff.mp (either.resolve_left derivesLast)).1
  exact (grows (.inr adds)).trans
    (later (either.imp_right fun both => (Bool.and_eq_true_iff.mp both).2))

end Attempt.Grows

theorem deriveToken_grows (kind : TokenKind) (frame : Frame) (rest : List Lexeme) :
    frame <+: (deriveToken kind frame rest).frame := by
  cases rest with
  | nil => exact List.prefix_rfl
  | cons lexeme rest =>
      rw [deriveToken]
      split
      · dsimp only
        split
        · exact List.prefix_append _ _
        · exact List.prefix_rfl
      · exact List.prefix_rfl

/-- A repetition of a step that only adds nodes only adds nodes, and cuts nothing else off. -/
theorem repeatStep_grows {step : Frame → List Lexeme → Attempt}
    (grows : ∀ frame rest, frame <+: (step frame rest).frame) (fuel : Nat) :
    ∀ frame rest, frame <+: (repeatStep step fuel frame rest).frame := by
  induction fuel with
  | zero => exact fun _ _ => List.prefix_rfl
  | succ fuel ih =>
      intro frame rest
      have grown := grows frame rest
      have cut : frame <+: (step frame rest).frame.take frame.length :=
        (Frame.take_of_grown grown).symm ▸ List.prefix_rfl
      rw [repeatStep]
      rcases derives : step frame rest with ⟨_ | next, after⟩
      · rwa [derives] at cut
      · dsimp only
        rw [derives] at grown cut
        split
        · exact grown.trans (ih after next)
        · exact cut

section Grows

variable {rules : RuleDeriver}

mutual

/-- **Attempts at an item leave the frame in front.** -/
theorem deriveItem_grows (growing : rules.Growing) : (item : Item) → item.keeps = true →
    ∀ (frame : Frame) (rest : List Lexeme), (deriveItem rules item frame rest).Grows frame item.adds
  | .token kind => fun _ frame rest _ => deriveToken_grows kind frame rest
  | .rule name => fun _ frame rest => growing name frame rest
  | .choice alternatives =>
      fun keeps frame rest => deriveChoice_grows growing alternatives keeps frame rest
  | .many body => by
      intro keeps frame rest _
      obtain ⟨bodyKeeps, adds⟩ := Bool.and_eq_true_iff.mp keeps
      exact repeatStep_grows
        (fun frame rest => deriveItems_grows growing body bodyKeeps frame rest (.inr adds))
        _ frame rest

/-- **Attempts at a sequence leave the frame in front.** -/
theorem deriveItems_grows (growing : rules.Growing) :
    (items : List Item) → Item.sequenceKeeps items = true → ∀ (frame : Frame) (rest : List Lexeme),
      (deriveItems rules items frame rest).Grows frame (Item.sequenceAdds items)
  | [] => fun _ _ _ => .same _
  | item :: items => by
      intro keeps frame rest
      obtain ⟨itemKeeps, order, laterKeeps⟩ := Item.sequenceKeeps_cons.mp keeps
      have first := deriveItem_grows growing item itemKeeps frame rest
      rw [deriveItems]
      rcases derives : deriveItem rules item frame rest with ⟨_ | next, after⟩
      · rw [derives] at first
        exact fun _ => first (.inl rfl)
      · rw [derives] at first
        refine .trans first (deriveItems_grows growing items laterKeeps after next) ?_
        -- what does not only add nodes stands last, and nothing fails behind it
        rcases order with adds | rfl
        · exact .inl adds
        · exact .inr (Option.some_ne_none _)

/-- **Attempts at some alternatives leave the frame in front**, since it is restored after each. -/
theorem deriveChoice_grows (growing : rules.Growing) : (alternatives : List (List Item)) →
    Item.allKeep alternatives = true → ∀ (frame : Frame) (rest : List Lexeme),
      (deriveChoice rules alternatives frame.length frame rest).Grows frame
        (Item.allAdd alternatives)
  | [] => fun _ _ _ => .same _
  | items :: others => by
      intro keeps frame rest
      obtain ⟨here, later⟩ := Bool.and_eq_true_iff.mp keeps
      have first := deriveItems_grows growing items here frame rest
      rw [deriveChoice]
      rcases derives : deriveItems rules items frame rest with ⟨_ | next, after⟩
      · rw [derives] at first
        show (deriveChoice rules others frame.length (after.take frame.length) rest).Grows frame _
        rw [Frame.take_of_grown (first (.inl rfl))]
        exact fun either => deriveChoice_grows growing others later frame rest
          (either.imp_right fun both => (Bool.and_eq_true_iff.mp both).2)
      · rw [derives] at first
        exact fun either => first (either.imp_right fun both => (Bool.and_eq_true_iff.mp both).1)

end

end Grows

/-- Reductions add one node, apart from that of parameters. -/
theorem Construct.reduce?_grows {construct : Construct} (other : construct ≠ .params)
    {nodes frame : Frame} {reduced : Frame}
    (reduces : construct.reduce? nodes frame = some reduced) :
    ∃ node, reduced = frame ++ [node] := by
  cases construct with
  | params => exact absurd rfl other
  | text | comparator | entry =>
      obtain ⟨_, -, rfl⟩ := Option.map_eq_some_iff.mp reduces
      exact ⟨_, rfl⟩
  | injection =>
      obtain ⟨_, -, stands⟩ := Option.bind_eq_some_iff.mp reduces
      obtain ⟨_, -, same⟩ := Option.bind_eq_some_iff.mp stands
      cases same
      exact ⟨_, rfl⟩

/-- **Rules leave the frame in front**, whatever the lexemes are. -/
theorem deriveWithin_growing (depth : Nat) : (deriveWithin depth).Growing := by
  induction depth with
  | zero => exact fun _ _ _ => .same _
  | succ depth ih =>
      intro name frame rest
      rw [deriveWithin]
      cases constructs : name.definition.construct with
      | none =>
          have other : name ≠ .entry := by
            rintro rfl
            cases constructs
          have grows := deriveItems_grows ih _ (RuleName.definition_keeps other) frame rest
          exact fun either => grows (either.imp_right (RuleName.definition_adds constructs))
      | some construct =>
          dsimp only
          rcases deriveItems (deriveWithin depth) name.definition.items [] rest with
            ⟨_ | next, nodes⟩
          · exact .same _
          · dsimp only
            cases reduces : construct.reduce? nodes frame with
            | none => exact .same _
            | some reduced =>
                intro either
                have adds : name.adds = true := either.resolve_left (Option.some_ne_none _)
                have other : construct ≠ .params := by
                  rintro rfl
                  simp [RuleName.adds, constructs] at adds
                obtain ⟨node, rfl⟩ := Construct.reduce?_grows other reduces
                exact List.prefix_append _ _

theorem derive_growing : RuleDeriver.Growing derive :=
  fun name frame rest => deriveWithin_growing _ name frame rest

end Schemata.Grammar
