/-
**Derivations end, and take lexemes.**

`Grammar.derive` bounds how deep rules open inside one another, and how often a repetition goes on.
Here the same derivation is made without any bound, so that it has no outcome where it would go on
for ever. It always has one: every rule takes a lexeme before it opens a rule of the same or of a
higher rank, and every body of a repetition takes one whenever it derives.

* `Unbounded.rule` and its companions derive without bounds; they are fixed points, with no outcome
  where the recursion does not end;
* `Unbounded.rule_eq`: they have the outcome of the bounded derivation, by induction on the lexemes
  that are left and on the rank;
* `RuleName.definition_repeated`: the body of each repetition of the table takes a lexeme;
* `derivations_end`: so rules and bodies of repetitions end and advance at every offset of every
  list of lexemes, and `interpret` ends.
-/

import Schemata.Proofs.Language.Lookahead

namespace Schemata.Grammar

/-! ### Deriving without bounds -/

namespace Unbounded

/-- A derivation without bounds, from a frame and the lexemes that are left. -/
abbrev Derivation := Frame → List Lexeme → Option Attempt

-- The functions are called through `by apply`, so their fixed point does not hold the places of the
-- calls.
mutual

/-- One item. -/
def item : Item → Frame → List Lexeme → Option Attempt
  | .token kind, frame, rest => some (deriveToken kind frame rest)
  | .rule name, frame, rest => (by apply rule : RuleName → Derivation) name frame rest
  | .choice alternatives, frame, rest =>
    (by apply choice : List (List Item) → Nat → Derivation) alternatives frame.length frame rest
  | .many body, frame, rest => (by apply many : List Item → Derivation) body frame rest
partial_fixpoint

/-- The items of a sequence, one after the other. -/
def items : List Item → Frame → List Lexeme → Option Attempt
  | [], frame, rest => some ⟨some rest, frame⟩
  | first :: others, frame, rest => do
    match ← (by apply item : Item → Derivation) first frame rest with
    | ⟨some next, after⟩ => (by apply items : List Item → Derivation) others after next
    | failed => some failed
partial_fixpoint

/-- The first alternative that derives. -/
def choice : List (List Item) → (kept : Nat) → Frame → List Lexeme → Option Attempt
  | [], _, frame, _ => some ⟨none, frame⟩
  | first :: others, kept, frame, rest => do
    match ← (by apply items : List Item → Derivation) first frame rest with
    | ⟨none, after⟩ =>
      (by apply choice : List (List Item) → Nat → Derivation) others kept (after.take kept) rest
    | derived => some derived
partial_fixpoint

/-- Repeat a sequence for as long as it derives and takes a lexeme. -/
def many (body : List Item) (frame : Frame) (rest : List Lexeme) : Option Attempt := do
  match ← (by apply items : List Item → Derivation) body frame rest with
  | ⟨some next, after⟩ =>
    if next.length < rest.length then (by apply many : List Item → Derivation) body after next
    else some ⟨some rest, after.take frame.length⟩
  | ⟨none, after⟩ => some ⟨some rest, after.take frame.length⟩
partial_fixpoint

/-- **A rule**, with any number of rules open inside one another. -/
def rule (name : RuleName) (frame : Frame) (rest : List Lexeme) : Option Attempt :=
  match name.definition.construct with
  | none => (by apply items : List Item → Derivation) name.definition.items frame rest
  | some construct => do
    match ← (by apply items : List Item → Derivation) name.definition.items [] rest with
    | ⟨none, _⟩ => some ⟨none, frame⟩
    | ⟨some next, nodes⟩ =>
      match construct.reduce? nodes frame with
      | some reduced => some ⟨some next, reduced⟩
      | none => some ⟨none, frame⟩
partial_fixpoint

end

/-- **The forest of a list of lexemes**, derived without bounds. -/
def interpret (lexemes : List Lexeme) : Option (Except ParseError (List Param)) := do
  match ← rule .program [] lexemes with
  | ⟨some [], forest⟩ => some (.ok forest)
  | _ => some (.error .underivable)

end Unbounded

/-! ### The bounds are never met -/

theorem derive_consuming : RuleDeriver.Consuming derive :=
  fun name frame rest => deriveWithin_consuming _ name frame rest

/-- Rules derive without bounds what they derive within them: on fewer lexemes than this, and on
this many if their rank is lower. -/
def SettledBelow (count limit : Nat) : Prop :=
  ∀ name frame rest, rest.length < count ∨ rest.length = count ∧ name.rank < limit →
    Unbounded.rule name frame rest = some (derive name frame rest)

/-- A repetition ends, since each step of it takes a lexeme. -/
theorem Unbounded.many_eq {body : List Item} {count : Nat}
    (settled : ∀ frame rest, rest.length ≤ count →
      items body frame rest = some (deriveItems derive body frame rest)) (fuel : Nat) :
    ∀ frame rest, rest.length ≤ count → rest.length < fuel →
      many body frame rest = some (repeatStep (deriveItems derive body) fuel frame rest) := by
  induction fuel with
  | zero => exact fun _ _ _ none => absurd none (Nat.not_lt_zero _)
  | succ fuel ih =>
      intro frame rest le enough
      rw [many, settled frame rest le, repeatStep]
      rcases deriveItems derive body frame rest with ⟨_ | next, after⟩
      · rfl
      · show (if next.length < rest.length then many body after next else _) =
            some (if _ then _ else _)
        by_cases takes : next.length < rest.length
        · rw [if_pos takes, if_pos takes]
          exact ih after next (by omega) (by omega)
        · rw [if_neg takes, if_neg takes]

section Settled

variable {count limit : Nat}

mutual

/-- An item ends if the rules do that it opens before it takes a lexeme. -/
theorem Unbounded.item_eq (settled : SettledBelow count limit) : (item : Item) →
    ∀ (frame : Frame) (rest : List Lexeme),
      rest.length < count ∨ rest.length = count ∧ item.opensBelow limit = true →
      Unbounded.item item frame rest = some (deriveItem derive item frame rest)
  | .token _ => by
      intro frame rest _
      rw [Unbounded.item, deriveItem]
  | .rule name => by
      intro frame rest below
      rw [Unbounded.item, deriveItem]
      exact settled name frame rest
        (below.imp_right fun ⟨same, opens⟩ => ⟨same, of_decide_eq_true opens⟩)
  | .choice alternatives => by
      intro frame rest below
      rw [Unbounded.item, deriveItem]
      exact Unbounded.choice_eq settled alternatives frame.length frame rest below
  | .many body => by
      intro frame rest below
      rw [Unbounded.item, deriveItem]
      refine Unbounded.many_eq (fun frame shorter le => ?_) _ frame rest (Nat.le_refl _)
        (Nat.lt_succ_self _)
      exact Unbounded.items_eq settled body frame shorter (below_of_le le below)

theorem Unbounded.items_eq (settled : SettledBelow count limit) : (items : List Item) →
    ∀ (frame : Frame) (rest : List Lexeme),
      rest.length < count ∨ rest.length = count ∧ Item.sequenceOpensBelow limit items = true →
      Unbounded.items items frame rest = some (deriveItems derive items frame rest)
  | [] => by
      intro frame rest _
      rw [Unbounded.items, deriveItems]
  | item :: others => by
      intro frame rest below
      have first := Unbounded.item_eq settled item frame rest
        (below.imp_right fun ⟨same, opens⟩ => ⟨same, (Bool.and_eq_true_iff.mp opens).1⟩)
      have leaves := deriveItem_leaves derive_consuming item frame rest
      rw [Unbounded.items, deriveItems, first]
      rcases derives : deriveItem derive item frame rest with ⟨_ | next, after⟩
      · rfl
      · obtain ⟨suffix, less⟩ := leaves next (by rw [derives])
        exact Unbounded.items_eq settled others after
          next (Item.opensBelow_behind below suffix less)

theorem Unbounded.choice_eq (settled : SettledBelow count limit) :
    (alternatives : List (List Item)) → ∀ (kept : Nat) (frame : Frame) (rest : List Lexeme),
      rest.length < count ∨ rest.length = count ∧ Item.allOpenBelow limit alternatives = true →
      Unbounded.choice alternatives kept frame rest =
        some (deriveChoice derive alternatives kept frame rest)
  | [] => by
      intro kept frame rest _
      rw [Unbounded.choice, deriveChoice]
  | items :: others => by
      intro kept frame rest below
      have first := Unbounded.items_eq settled items frame rest
        (below.imp_right fun ⟨same, opens⟩ => ⟨same, (Bool.and_eq_true_iff.mp opens).1⟩)
      rw [Unbounded.choice, deriveChoice, first]
      rcases deriveItems derive items frame rest with ⟨_ | next, after⟩
      · exact Unbounded.choice_eq settled others kept (after.take kept) rest
          (below.imp_right fun ⟨same, opens⟩ => ⟨same, (Bool.and_eq_true_iff.mp opens).2⟩)
      · rfl

end

end Settled

/-- **A rule ends without bounds, as it does within them.** -/
theorem Unbounded.rule_eq (name : RuleName) (frame : Frame) (rest : List Lexeme) :
    rule name frame rest = some (derive name frame rest) := by
  -- rules are opened with fewer lexemes left, or with as many and a lower rank
  induction needed : depthFor name rest using Nat.strongRecOn generalizing name frame rest with
  | ind needed ih =>
    have settled : SettledBelow rest.length name.rank := by
      intro inner frame shorter below
      have lower := inner.rank_lt
      refine ih (depthFor inner shorter) ?_ inner frame shorter rfl
      unfold depthFor rankCount at *
      omega
    have inside := fun frame => items_eq settled name.definition.items frame rest
      (.inr ⟨rfl, name.definition_opensBelow⟩)
    rw [rule, derive_eq]
    cases name.definition.construct with
    | none => exact inside frame
    | some construct =>
        dsimp only
        rw [inside []]
        rcases deriveItems derive name.definition.items [] rest with ⟨_ | next, nodes⟩
        · rfl
        · simp only [Option.bind_eq_bind, Option.bind_some]
          cases construct.reduce? nodes frame with
          | none => rfl
          | some reduced => rfl

/-- All items end without bounds. -/
theorem Unbounded.items_eq_deriveItems (items : List Item) (frame : Frame) (rest : List Lexeme) :
    Unbounded.items items frame rest = some (deriveItems derive items frame rest) :=
  @items_eq (rest.length + 1) 0 (fun name frame rest _ => rule_eq name frame rest) items frame rest
    (.inl (Nat.lt_succ_self _))

/-! ### Repetitions -/

mutual

/-- The bodies of the repetitions inside an item. -/
def Item.repeated : Item → List (List Item)
  | .token _ | .rule _ => []
  | .choice alternatives => Item.repeatedInAny alternatives
  | .many body => body :: Item.repeatedIn body

/-- The bodies of the repetitions inside a sequence. -/
def Item.repeatedIn : List Item → List (List Item)
  | [] => []
  | item :: items => item.repeated ++ Item.repeatedIn items

/-- The bodies of the repetitions inside some sequences. -/
def Item.repeatedInAny : List (List Item) → List (List Item)
  | [] => []
  | items :: others => Item.repeatedIn items ++ Item.repeatedInAny others

end

/-- **Every body of a repetition takes a lexeme.** -/
theorem RuleName.definition_repeated (name : RuleName) :
    (Item.repeatedIn name.definition.items).all Item.anyConsumes = true := by
  cases name <;> rfl

/-! ### Offsets -/

/-- An attempt that starts at an offset fails, or ends behind the offset and not behind all
lexemes. -/
def Attempt.Advances (attempt : Attempt) (lexemes : List Lexeme) (offset : Nat) : Prop :=
  ∀ rest, attempt.rest? = some rest →
    ∃ next, offset < next ∧ next ≤ lexemes.length ∧ rest = lexemes.drop next

theorem Attempt.Leaves.advances {attempt : Attempt} {lexemes : List Lexeme} {offset : Nat}
    (leaves : attempt.Leaves (lexemes.drop offset) true) : attempt.Advances lexemes offset := by
  intro rest derives
  obtain ⟨suffix, less⟩ := leaves rest derives
  have shorter := less rfl
  rw [List.length_drop] at shorter
  refine ⟨lexemes.length - rest.length, by omega, by omega, ?_⟩
  exact List.suffix_iff_eq_drop.mp (suffix.trans (List.drop_suffix _ _))

/-- **Derivations end and advance.** On every list of lexemes, from every offset and every frame, a
rule of the table and a body of a repetition have an outcome without any bound, which is that of the
derivation within bounds; if they derive, they end behind the offset and not behind the last lexeme.
So whole lists of lexemes are interpreted without bounds. -/
theorem derivations_end (lexemes : List Lexeme) :
    (∀ name frame offset,
      Unbounded.rule name frame (lexemes.drop offset) =
        some (derive name frame (lexemes.drop offset)) ∧
      (derive name frame (lexemes.drop offset)).Advances lexemes offset) ∧
    (∀ name, ∀ body ∈ Item.repeatedIn (RuleName.definition name).items, ∀ frame offset,
      ∃ attempt, Unbounded.items body frame (lexemes.drop offset) = some attempt ∧
        attempt.Advances lexemes offset) ∧
    Unbounded.interpret lexemes = some (interpret lexemes) := by
  refine ⟨fun name frame offset => ?_, fun name body member frame offset => ?_, ?_⟩
  · exact ⟨Unbounded.rule_eq name frame _, (derive_consuming name frame _).advances⟩
  · have takes : Item.anyConsumes body = true :=
      List.all_eq_true.mp name.definition_repeated body member
    have leaves := deriveItems_leaves derive_consuming body frame (lexemes.drop offset)
    rw [takes] at leaves
    exact ⟨_, Unbounded.items_eq_deriveItems body frame _, leaves.advances⟩
  · rw [Unbounded.interpret, Unbounded.rule_eq, interpret]
    rcases derive .program [] lexemes with ⟨_ | _ | _, forest⟩ <;> rfl

end Schemata.Grammar
