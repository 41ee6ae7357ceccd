/-
**Rules consume lexemes, so the bound of a derivation is never reached.**

Every rule of the table takes a lexeme before it ends, and before it comes back to itself. How deep
rules open inside one another is thereby bounded by the number of lexemes that are left.

* `Item.consumes` reads off an item that it takes a lexeme, and `deriveWithin_consuming` says that
  rules do;
* `RuleName.rank` orders the rules by which of them open others before they consume;
* `deriveWithin_eq`: all bounds on the depth that are large enough give the same attempt.
-/

import Schemata.Language.Derivation

namespace Schemata.Grammar

/-! ### Items that consume -/

mutual

/-- An item takes a lexeme whenever it derives, if the rules in it do. -/
def Item.consumes : Item → Bool
  | .token _ | .rule _ => true
  | .choice alternatives => Item.allConsume alternatives
  | .many _ => false

/-- Some item of a sequence takes a lexeme. -/
def Item.anyConsumes : List Item → Bool
  | [] => false
  | item :: items => item.consumes || Item.anyConsumes items

/-- Each of some sequences takes a lexeme. -/
def Item.allConsume : List (List Item) → Bool
  | [] => true
  | items :: others => Item.anyConsumes items && Item.allConsume others

end

/-- An attempt leaves a part of the lexemes, and a proper one if it has to take a lexeme. -/
def Attempt.Leaves (attempt : Attempt) (rest : List Lexeme) (proper : Bool) : Prop :=
  ∀ next, attempt.rest? = some next → next <:+ rest ∧ (proper → next.length < rest.length)

/-- **Rules that take a lexeme whenever they derive.** -/
def RuleDeriver.Consuming (rules : RuleDeriver) : Prop :=
  ∀ name frame rest, (rules name frame rest).Leaves rest true

namespace Attempt.Leaves

variable {rest : List Lexeme} {frame : Frame} {proper : Bool}

theorem failed : Leaves ⟨none, frame⟩ rest proper := nofun

theorem same : Leaves ⟨some rest, frame⟩ rest false := by
  intro next leaves
  cases leaves
  exact ⟨List.suffix_rfl, nofun⟩

theorem weaken {attempt : Attempt} {less : Bool} (leaves : attempt.Leaves rest proper)
    (weaker : less → proper) : attempt.Leaves rest less :=
  fun next derives =>
    ⟨(leaves next derives).1, fun proper => (leaves next derives).2 (weaker proper)⟩

/-- What is left after two attempts is left after the second. -/
theorem trans {middle : List Lexeme} {attempt : Attempt} {first second : Bool}
    (suffix : middle <:+ rest) (less : first → middle.length < rest.length)
    (leaves : attempt.Leaves middle second) : attempt.Leaves rest (first || second) := by
  intro next derives
  obtain ⟨nextSuffix, nextLess⟩ := leaves next derives
  refine ⟨nextSuffix.trans suffix, fun either => ?_⟩
  have le := nextSuffix.length_le
  have upper := suffix.length_le
  cases first with
  | true =>
      have := less rfl
      omega
  | false =>
      have := nextLess either
      omega

end Attempt.Leaves

theorem deriveToken_leaves (kind : TokenKind) (frame : Frame) (rest : List Lexeme) :
    (deriveToken kind frame rest).Leaves rest true := by
  cases rest with
  | nil => exact .failed
  | cons lexeme rest =>
      rw [deriveToken]
      split
      · intro next derives
        cases derives
        exact ⟨List.suffix_cons _ _, fun _ => Nat.lt_succ_self _⟩
      · exact .failed

theorem repeatStep_leaves {step : Frame → List Lexeme → Attempt}
    (leaves : ∀ frame rest, (step frame rest).Leaves rest false) (fuel : Nat) :
    ∀ frame rest, (repeatStep step fuel frame rest).Leaves rest false := by
  induction fuel with
  | zero => exact fun _ _ => .same
  | succ fuel ih =>
      intro frame rest
      rw [repeatStep]
      split
      · rename_i next after derives
        split
        · have both : Attempt.Leaves _ rest (false || false) :=
            .trans (leaves frame rest next (by rw [derives])).1 nofun (ih after next)
          exact both
        · exact .same
      · exact .same

section Consuming

variable {rules : RuleDeriver}

mutual

theorem deriveItem_leaves (consuming : rules.Consuming) :
    (item : Item) → ∀ (frame : Frame) (rest : List Lexeme),
    (deriveItem rules item frame rest).Leaves rest item.consumes
  | .token kind => fun frame rest => deriveToken_leaves kind frame rest
  | .rule name => fun frame rest => consuming name frame rest
  | .choice alternatives => fun frame rest =>
      deriveChoice_leaves consuming alternatives frame.length frame rest
  | .many body => fun frame rest => repeatStep_leaves
      (fun frame rest => (deriveItems_leaves consuming body frame rest).weaken nofun) _ frame rest

theorem deriveItems_leaves (consuming : rules.Consuming) :
    (items : List Item) → ∀ (frame : Frame) (rest : List Lexeme),
    (deriveItems rules items frame rest).Leaves rest (Item.anyConsumes items)
  | [] => fun _ _ => .same
  | item :: items => by
      intro frame rest
      have first := deriveItem_leaves consuming item frame rest
      rw [deriveItems]
      rcases derives : deriveItem rules item frame rest with ⟨_ | next, after⟩
      · exact .failed
      · obtain ⟨suffix, less⟩ := first next (by rw [derives])
        exact .trans suffix less (deriveItems_leaves consuming items after next)

theorem deriveChoice_leaves (consuming : rules.Consuming) : (alternatives : List (List Item)) →
    ∀ (kept : Nat) (frame : Frame) (rest : List Lexeme),
      (deriveChoice rules alternatives kept frame rest).Leaves rest (Item.allConsume alternatives)
  | [] => fun _ _ _ => .failed
  | items :: others => by
      intro kept frame rest
      have first := deriveItems_leaves consuming items frame rest
      rw [deriveChoice]
      rcases derives : deriveItems rules items frame rest with ⟨_ | next, after⟩
      · refine (deriveChoice_leaves consuming others kept (after.take kept) rest).weaken
          fun both => ?_
        exact (Bool.and_eq_true_iff.mp both).2
      · rw [derives] at first
        exact first.weaken fun both => (Bool.and_eq_true_iff.mp both).1

end

end Consuming

/-- Every rule takes a lexeme. -/
theorem RuleName.definition_consumes (name : RuleName) :
    Item.anyConsumes name.definition.items = true := by
  cases name <;> rfl

/-- **Rules take a lexeme whenever they derive.** -/
theorem deriveWithin_consuming (depth : Nat) : (deriveWithin depth).Consuming := by
  induction depth with
  | zero => exact fun _ _ _ => .failed
  | succ depth ih =>
      intro name frame rest
      have inside := fun frame => deriveItems_leaves ih name.definition.items frame rest
      simp only [RuleName.definition_consumes] at inside
      rw [deriveWithin]
      cases name.definition.construct with
      | none => exact inside frame
      | some construct =>
          dsimp only
          have inside := inside []
          rcases derives : deriveItems (deriveWithin depth) name.definition.items [] rest with
            ⟨_ | next, nodes⟩
          · exact .failed
          · dsimp only
            cases construct.reduce? nodes frame with
            | none => exact .failed
            | some reduced =>
                intro other same
                cases same
                exact inside next (by rw [derives])

/-! ### Rules that open others -/

/-- How many rules a rule may open inside one another before it takes a lexeme. -/
def RuleName.rank : RuleName → Nat
  | .program => 3
  | .chain => 2
  | .entry | .field | .value => 1
  | _ => 0

mutual

/-- An item opens only rules of lower ranks before it takes a lexeme. -/
def Item.opensBelow (limit : Nat) : Item → Bool
  | .token _ => true
  | .rule name => name.rank < limit
  | .choice alternatives => Item.allOpenBelow limit alternatives
  | .many body => Item.sequenceOpensBelow limit body

/-- A sequence opens only rules of lower ranks before it takes a lexeme. -/
def Item.sequenceOpensBelow (limit : Nat) : List Item → Bool
  | [] => true
  | item :: items =>
    item.opensBelow limit && (item.consumes || Item.sequenceOpensBelow limit items)

/-- Each of some sequences opens only rules of lower ranks before it takes a lexeme. -/
def Item.allOpenBelow (limit : Nat) : List (List Item) → Bool
  | [] => true
  | items :: others => Item.sequenceOpensBelow limit items && Item.allOpenBelow limit others

end

/-- **Rules open only rules of lower ranks before they take a lexeme.** -/
theorem RuleName.definition_opensBelow (name : RuleName) :
    Item.sequenceOpensBelow name.rank name.definition.items = true := by
  cases name <;> rfl

theorem RuleName.rank_lt (name : RuleName) : name.rank < rankCount := by
  cases name <;> decide

/-! ### Bounds on the depth -/

/-- Where a derivation is bounded on some lexemes, it is bounded on fewer. -/
theorem below_of_le {shorter rest : List Lexeme} {count : Nat} {opens : Prop}
    (le : shorter.length ≤ rest.length)
    (below : rest.length < count ∨ rest.length = count ∧ opens) :
    shorter.length < count ∨ shorter.length = count ∧ opens := by
  rcases below with less | ⟨same, opens⟩
  · exact .inl (Nat.lt_of_le_of_lt le less)
  · exact (Nat.lt_or_eq_of_le (same ▸ le)).imp_right fun equal => ⟨equal, opens⟩

/-- **Behind an item that takes a lexeme any rule may be opened**, and behind others those of lower
ranks. -/
theorem Item.opensBelow_behind {item : Item} {items : List Item} {count limit : Nat}
    {rest next : List Lexeme}
    (below : rest.length < count ∨
      rest.length = count ∧ Item.sequenceOpensBelow limit (item :: items) = true)
    (suffix : next <:+ rest) (less : item.consumes = true → next.length < rest.length) :
    next.length < count ∨ next.length = count ∧ Item.sequenceOpensBelow limit items = true := by
  obtain shorter | ⟨same, opens⟩ := below
  · exact .inl (Nat.lt_of_le_of_lt suffix.length_le shorter)
  · rcases Bool.or_eq_true_iff.mp (Bool.and_eq_true_iff.mp opens).2 with consumes | opens
    · exact .inl (same ▸ less consumes)
    · exact below_of_le suffix.length_le (.inr ⟨same, opens⟩)

/-- Two derivers agree on shorter lexemes, and on lexemes of this number for rules of lower
ranks. -/
def AgreeBelow (rules others : RuleDeriver) (count limit : Nat) : Prop :=
  ∀ name frame rest, rest.length < count ∨ rest.length = count ∧ name.rank < limit →
    rules name frame rest = others name frame rest

theorem repeatStep_congr {step other : Frame → List Lexeme → Attempt} {count : Nat}
    (agree : ∀ frame rest, rest.length ≤ count → step frame rest = other frame rest) (fuel : Nat) :
    ∀ frame rest, rest.length ≤ count →
      repeatStep step fuel frame rest = repeatStep other fuel frame rest := by
  induction fuel with
  | zero => exact fun _ _ _ => rfl
  | succ fuel ih =>
      intro frame rest le
      rw [repeatStep, repeatStep, agree frame rest le]
      rcases other frame rest with ⟨_ | next, after⟩
      · rfl
      · dsimp only
        split
        · exact ih after next (by omega)
        · rfl

section Agree

variable {rules others : RuleDeriver} {count limit : Nat}

mutual

theorem deriveItem_congr (consuming : others.Consuming)
    (agree : AgreeBelow rules others count limit) : (item : Item) →
    ∀ (frame : Frame) (rest : List Lexeme),
      rest.length < count ∨ rest.length = count ∧ item.opensBelow limit = true →
      deriveItem rules item frame rest = deriveItem others item frame rest
  | .token _ => fun _ _ _ => rfl
  | .rule name => by
      intro frame rest below
      exact agree name frame rest
        (below.imp_right fun ⟨same, opens⟩ => ⟨same, of_decide_eq_true opens⟩)
  | .choice alternatives => fun frame rest below =>
      deriveChoice_congr consuming agree alternatives frame.length frame rest below
  | .many body => by
      intro frame rest below
      refine repeatStep_congr (fun frame shorter le => ?_) _ frame rest (Nat.le_refl _)
      exact deriveItems_congr consuming agree body frame shorter (below_of_le le below)

theorem deriveItems_congr (consuming : others.Consuming)
    (agree : AgreeBelow rules others count limit) : (items : List Item) →
    ∀ (frame : Frame) (rest : List Lexeme),
      rest.length < count ∨ rest.length = count ∧ Item.sequenceOpensBelow limit items = true →
      deriveItems rules items frame rest = deriveItems others items frame rest
  | [] => fun _ _ _ => rfl
  | item :: items => by
      intro frame rest below
      have first := deriveItem_congr consuming agree item frame rest
        (below.imp_right fun ⟨same, opens⟩ => ⟨same, (Bool.and_eq_true_iff.mp opens).1⟩)
      rw [deriveItems, deriveItems, first]
      have leaves := deriveItem_leaves consuming item frame rest
      rcases derives : deriveItem others item frame rest with ⟨_ | next, after⟩
      · rfl
      · obtain ⟨suffix, less⟩ := leaves next (by rw [derives])
        exact deriveItems_congr consuming agree items after
          next (Item.opensBelow_behind below suffix less)

theorem deriveChoice_congr (consuming : others.Consuming)
    (agree : AgreeBelow rules others count limit) : (alternatives : List (List Item)) →
    ∀ (kept : Nat) (frame : Frame) (rest : List Lexeme),
      rest.length < count ∨ rest.length = count ∧ Item.allOpenBelow limit alternatives = true →
      deriveChoice rules alternatives kept frame rest =
        deriveChoice others alternatives kept frame rest
  | [] => fun _ _ _ _ => rfl
  | items :: alternatives => by
      intro kept frame rest below
      have first := deriveItems_congr consuming agree items frame rest
        (below.imp_right fun ⟨same, opens⟩ => ⟨same, (Bool.and_eq_true_iff.mp opens).1⟩)
      rw [deriveChoice, deriveChoice, first]
      rcases deriveItems others items frame rest with ⟨_ | next, after⟩
      · exact deriveChoice_congr consuming agree alternatives kept (after.take kept) rest
          (below.imp_right fun ⟨same, opens⟩ => ⟨same, (Bool.and_eq_true_iff.mp opens).2⟩)
      · rfl

end

end Agree

/-- The depth that a rule needs at most. -/
def depthFor (name : RuleName) (rest : List Lexeme) : Nat :=
  rankCount * rest.length + name.rank + 1

/-- **All bounds that are large enough give the same attempt.** -/
theorem deriveWithin_eq (depth : Nat) : ∀ {other : Nat} {name : RuleName} {frame : Frame}
    {rest : List Lexeme}, depthFor name rest ≤ depth → depthFor name rest ≤ other →
    deriveWithin depth name frame rest = deriveWithin other name frame rest := by
  induction depth with
  | zero => exact fun enough _ => absurd enough (Nat.not_succ_le_zero _)
  | succ depth ih =>
      intro other name frame rest enough enough'
      cases other with
      | zero => exact absurd enough' (Nat.not_succ_le_zero _)
      | succ other =>
          have agree : AgreeBelow (deriveWithin depth) (deriveWithin other) rest.length
              name.rank := by
            intro inner frame shorter below
            have lower := inner.rank_lt
            have needed : depthFor inner shorter ≤ depthFor name rest - 1 := by
              unfold depthFor rankCount at *
              omega
            exact ih (by omega) (by omega)
          have inside := fun frame => deriveItems_congr (deriveWithin_consuming other) agree
            name.definition.items frame rest (.inr ⟨rfl, name.definition_opensBelow⟩)
          rw [deriveWithin, deriveWithin]
          cases name.definition.construct with
          | none => exact inside frame
          | some construct => rw [inside []]

/-- **The bound that derivations use is large enough.** -/
theorem derive_eq_deriveWithin {depth : Nat} {name : RuleName} {frame : Frame} {rest : List Lexeme}
    (enough : depthFor name rest ≤ depth) :
    derive name frame rest = deriveWithin depth name frame rest := by
  refine deriveWithin_eq _ ?_ enough
  have lower := name.rank_lt
  unfold depthFor rankCount at *
  omega

end Schemata.Grammar
