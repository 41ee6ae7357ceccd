/-
**Suffixes behind a schema leave the derivation of the schema as it is.**

Only the first rule and the rule for suffixes look for a suffix. Every other rule takes the same
lexemes whether suffixes follow or not, and so does the rule for suffixes while lexemes are left for
it.

* `Item.ignoresSuffixes` reads off an item that it looks for no suffix;
* `deriveWithin_followedBy`: such rules derive alike with suffixes behind their lexemes;
* `interpret_append`: the first rule goes on with the suffixes from the forest of what stands
  before.
-/

import Schemata.Proofs.Language.Consumption

namespace Schemata.Grammar

/-- An attempt with more lexemes behind those that are left. -/
def Attempt.followedBy (attempt : Attempt) (tail : List Lexeme) : Attempt :=
  ⟨attempt.rest?.map (· ++ tail), attempt.frame⟩

/-- Whether lexemes of this kind head a suffix. -/
def isSuffixKind (kind : TokenKind) : Bool :=
  kind = .errorSuffix || kind = .metaSuffix

/-- Lexemes that start with a suffix, if there are any. -/
def Trailing (tail : List Lexeme) : Prop :=
  ∀ lexeme ∈ tail.head?, isSuffixKind lexeme.kind = true

/-! ### Items that look for no suffix -/

/-- Whether a rule looks for no suffix behind it. -/
def RuleName.ignoresSuffixes (name : RuleName) : Bool :=
  name ≠ .program && name ≠ .suffix

mutual

/-- Whether an item looks for no suffix. -/
def Item.ignoresSuffixes : Item → Bool
  | .token kind => !isSuffixKind kind
  | .rule name => name.ignoresSuffixes
  | .choice alternatives => Item.allIgnoreSuffixes alternatives
  | .many body => Item.sequenceIgnoresSuffixes body

/-- Whether no item of a sequence looks for a suffix. -/
def Item.sequenceIgnoresSuffixes : List Item → Bool
  | [] => true
  | item :: items => item.ignoresSuffixes && Item.sequenceIgnoresSuffixes items

/-- Whether no item of some sequences looks for a suffix. -/
def Item.allIgnoreSuffixes : List (List Item) → Bool
  | [] => true
  | items :: others => Item.sequenceIgnoresSuffixes items && Item.allIgnoreSuffixes others

end

/-- **Only two rules look for suffixes.** -/
theorem RuleName.definition_ignoresSuffixes {name : RuleName}
    (ignores : name.ignoresSuffixes = true) :
    Item.sequenceIgnoresSuffixes name.definition.items = true := by
  cases name <;> first | rfl | cases ignores

/-! ### Items with suffixes behind them -/

section Followed

variable {tail : List Lexeme} {step : Frame → List Lexeme → Attempt} {rules : RuleDeriver}

theorem deriveToken_followedBy {kind : TokenKind} {rest : List Lexeme}
    (plain : Trailing tail ∧ isSuffixKind kind = false ∨ rest ≠ []) (frame : Frame) :
    deriveToken kind frame (rest ++ tail) = (deriveToken kind frame rest).followedBy tail := by
  cases rest with
  | cons lexeme rest =>
      rw [List.cons_append, deriveToken, deriveToken]
      split <;> rfl
  | nil =>
      obtain ⟨trailing, other⟩ := plain.resolve_right (absurd rfl)
      cases tail with
      | nil => rfl
      | cons lexeme tail =>
          have suffix := trailing lexeme rfl
          show deriveToken kind frame (lexeme :: tail) = ⟨none, frame⟩
          rw [deriveToken, if_neg]
          · rintro rfl
            rw [other] at suffix
            cases suffix

/-- **A step that ignores the suffixes is repeated alike before them**, whatever the bounds on the
number of steps, if they are large enough. -/
theorem repeatStep_followedBy
    (ignores : ∀ frame rest, step frame (rest ++ tail) = (step frame rest).followedBy tail)
    (fuel : Nat) :
    ∀ (other : Nat) (frame : Frame) (rest : List Lexeme), rest.length < fuel → rest.length < other →
      repeatStep step fuel frame (rest ++ tail) =
        (repeatStep step other frame rest).followedBy tail := by
  induction fuel with
  | zero => exact fun _ _ _ less => absurd less (Nat.not_lt_zero _)
  | succ fuel ih =>
      intro other frame rest less lessOther
      cases other with
      | zero => exact absurd lessOther (Nat.not_lt_zero _)
      | succ other =>
          rw [repeatStep, repeatStep, ignores]
          rcases step frame rest with ⟨_ | next, after⟩
          · rfl
          · dsimp only [Attempt.followedBy, Option.map_some]
            by_cases shorter : next.length < rest.length
            · rw [if_pos (by simpa using shorter), if_pos shorter]
              exact ih other after next (by omega) (by omega)
            · rw [if_neg (by simpa using shorter), if_neg shorter]
              rfl

/-- Rules that look for no suffix derive alike before the suffixes. -/
def RuleDeriver.IgnoresSuffixes (rules : RuleDeriver) (tail : List Lexeme) : Prop :=
  ∀ name frame rest, name.ignoresSuffixes = true →
    rules name frame (rest ++ tail) = (rules name frame rest).followedBy tail

mutual

theorem deriveItem_followedBy (trailing : Trailing tail) (ignore : rules.IgnoresSuffixes tail) :
    (item : Item) → item.ignoresSuffixes = true → ∀ (frame : Frame) (rest : List Lexeme),
      deriveItem rules item frame (rest ++ tail) =
        (deriveItem rules item frame rest).followedBy tail
  | .token kind => fun plain frame _ =>
      deriveToken_followedBy (.inl ⟨trailing, by simpa [Item.ignoresSuffixes] using plain⟩) frame
  | .rule name => fun plain frame rest => ignore name frame rest plain
  | .choice alternatives => fun plain frame rest =>
      deriveChoice_followedBy trailing ignore alternatives plain frame.length frame rest
  | .many body => fun plain frame rest =>
      repeatStep_followedBy (deriveItems_followedBy trailing ignore body plain) _ _ frame rest
        (by rw [List.length_append]; omega) (Nat.lt_succ_self _)

theorem deriveItems_followedBy (trailing : Trailing tail) (ignore : rules.IgnoresSuffixes tail) :
    (items : List Item) → Item.sequenceIgnoresSuffixes items = true →
    ∀ (frame : Frame) (rest : List Lexeme),
      deriveItems rules items frame (rest ++ tail) =
        (deriveItems rules items frame rest).followedBy tail
  | [] => fun _ _ _ => rfl
  | item :: items => by
      intro plain frame rest
      obtain ⟨first, others⟩ := Bool.and_eq_true_iff.mp plain
      rw [deriveItems, deriveItems, deriveItem_followedBy trailing ignore item first]
      rcases deriveItem rules item frame rest with ⟨_ | next, after⟩
      · rfl
      · exact deriveItems_followedBy trailing ignore items others after next

theorem deriveChoice_followedBy (trailing : Trailing tail) (ignore : rules.IgnoresSuffixes tail) :
    (alternatives : List (List Item)) → Item.allIgnoreSuffixes alternatives = true →
    ∀ (kept : Nat) (frame : Frame) (rest : List Lexeme),
      deriveChoice rules alternatives kept frame (rest ++ tail) =
        (deriveChoice rules alternatives kept frame rest).followedBy tail
  | [] => fun _ _ _ _ => rfl
  | items :: others => by
      intro plain kept frame rest
      obtain ⟨first, later⟩ := Bool.and_eq_true_iff.mp plain
      rw [deriveChoice, deriveChoice, deriveItems_followedBy trailing ignore items first]
      rcases deriveItems rules items frame rest with ⟨_ | next, after⟩
      · exact deriveChoice_followedBy trailing ignore others later kept (after.take kept) rest
      · rfl

end

end Followed

/-! ### Rules with suffixes behind them -/

section Rules

variable {tail : List Lexeme}

/-- A rule with a construct derives alike before the suffixes if its items do. -/
theorem deriveWithin_succ_followedBy {depth : Nat} {name : RuleName} {rest : List Lexeme}
    (items : ∀ frame, deriveItems (deriveWithin depth) name.definition.items frame (rest ++ tail) =
      (deriveItems (deriveWithin depth) name.definition.items frame rest).followedBy tail)
    (frame : Frame) : deriveWithin (depth + 1) name frame (rest ++ tail) =
      (deriveWithin (depth + 1) name frame rest).followedBy tail := by
  rw [deriveWithin, deriveWithin]
  cases name.definition.construct with
  | none => exact items frame
  | some construct =>
      dsimp only
      rw [items]
      rcases deriveItems (deriveWithin depth) name.definition.items [] rest with ⟨_ | next, nodes⟩
      · rfl
      · dsimp only [Attempt.followedBy, Option.map_some]
        cases construct.reduce? nodes frame <;> rfl

/-- **Rules that look for no suffix derive alike before the suffixes.** -/
theorem deriveWithin_followedBy (trailing : Trailing tail) (depth : Nat) :
    (deriveWithin depth).IgnoresSuffixes tail := by
  induction depth with
  | zero => exact fun _ _ _ _ => rfl
  | succ depth ih =>
      intro name frame rest ignores
      exact deriveWithin_succ_followedBy (fun frame => deriveItems_followedBy trailing ih _
        (RuleName.definition_ignoresSuffixes ignores) frame rest) frame

/-- A sequence that a token leads looks for a suffix only at its front. -/
theorem deriveItems_token_followedBy {rules : RuleDeriver} (trailing : Trailing tail)
    (ignore : rules.IgnoresSuffixes tail) {kind : TokenKind} {items : List Item}
    (plain : Item.sequenceIgnoresSuffixes items = true) {rest : List Lexeme} (left : rest ≠ [])
    (frame : Frame) : deriveItems rules (.token kind :: items) frame (rest ++ tail) =
      (deriveItems rules (.token kind :: items) frame rest).followedBy tail := by
  rw [deriveItems, deriveItems, deriveItem, deriveItem, deriveToken_followedBy (.inr left)]
  rcases deriveToken kind frame rest with ⟨_ | next, after⟩
  · rfl
  · exact deriveItems_followedBy trailing ignore items plain after next

/-- A choice derives alike before the suffixes if its alternatives do. -/
theorem deriveChoice_followedBy_of {rules : RuleDeriver} {rest : List Lexeme}
    {alternatives : List (List Item)} (each : ∀ items ∈ alternatives, ∀ frame,
      deriveItems rules items frame (rest ++ tail) =
        (deriveItems rules items frame rest).followedBy tail) (kept : Nat) :
    ∀ frame, deriveChoice rules alternatives kept frame (rest ++ tail) =
      (deriveChoice rules alternatives kept frame rest).followedBy tail := by
  induction alternatives with
  | nil => exact fun _ => rfl
  | cons items others ih =>
      intro frame
      obtain ⟨first, later⟩ := List.forall_mem_cons.mp each
      rw [deriveChoice, deriveChoice, first]
      rcases deriveItems rules items frame rest with ⟨_ | next, after⟩
      · exact ih later (after.take kept)
      · rfl

/-- A sequence of one item is that item. -/
theorem deriveItems_singleton (rules : RuleDeriver) (item : Item) (frame : Frame)
    (rest : List Lexeme) :
    deriveItems rules [item] frame rest = deriveItem rules item frame rest := by
  rw [deriveItems]
  rcases deriveItem rules item frame rest with ⟨_ | next, after⟩ <;> rfl

/-- **A suffix derives alike with other suffixes behind it.** -/
theorem deriveWithin_suffix_followedBy (trailing : Trailing tail) (depth : Nat) (frame : Frame)
    {rest : List Lexeme} (left : rest ≠ []) : deriveWithin depth .suffix frame (rest ++ tail) =
      (deriveWithin depth .suffix frame rest).followedBy tail := by
  cases depth with
  | zero => rfl
  | succ depth =>
      refine deriveWithin_succ_followedBy (fun frame => ?_) frame
      have ignore := deriveWithin_followedBy trailing depth
      simp only [RuleName.definition, deriveItems_singleton, deriveItem]
      refine deriveChoice_followedBy_of ?_ _ frame
      simp only [List.forall_mem_cons]
      exact ⟨deriveItems_token_followedBy trailing ignore rfl left,
        deriveItems_token_followedBy trailing ignore rfl left,
        deriveItems_token_followedBy trailing ignore rfl left, nofun⟩

/-! ### Whole schemas -/

/-- **A repetition that takes every lexeme goes on with what follows them.** -/
theorem repeatStep_append {step : Frame → List Lexeme → Attempt}
    (stops : ∀ frame, step frame [] = ⟨none, frame⟩)
    (follows : ∀ frame rest,
      rest ≠ [] → step frame (rest ++ tail) = (step frame rest).followedBy tail)
    {forest : Frame} (fuel : Nat) : ∀ (frame : Frame) (rest : List Lexeme),
    repeatStep step fuel frame rest = ⟨some [], forest⟩ →
    ∀ more, (rest ++ tail).length < more → ∃ less, tail.length < less ∧
      repeatStep step more frame (rest ++ tail) = repeatStep step less forest tail := by
  induction fuel with
  | zero =>
      intro frame rest repeats more enough
      cases repeats
      exact ⟨more, enough, rfl⟩
  | succ fuel ih =>
      intro frame rest repeats more enough
      cases rest with
      | nil =>
          rw [repeatStep, stops] at repeats
          obtain rfl : frame = forest := by simpa using repeats
          exact ⟨more, enough, rfl⟩
      | cons lexeme rest =>
          have first := follows frame (lexeme :: rest) (List.cons_ne_nil _ _)
          rw [repeatStep] at repeats
          rcases derives : step frame (lexeme :: rest) with ⟨_ | next, after⟩
          · rw [derives] at repeats
            cases repeats
          · rw [derives] at repeats first
            dsimp only at repeats
            split at repeats
            · rename_i shorter
              cases more with
              | zero => exact absurd enough (Nat.not_lt_zero _)
              | succ more =>
                  obtain ⟨less, enoughLess, same⟩ := ih after next repeats more (by
                    simp only [List.length_append] at enough ⊢
                    omega)
                  refine ⟨less, enoughLess, ?_⟩
                  rw [repeatStep, first]
                  dsimp only [Attempt.followedBy, Option.map_some]
                  rw [if_pos (by simp only [List.length_append]; omega), same]
            · cases repeats

/-- Nothing is no suffix. -/
theorem deriveWithin_suffix_nil (depth : Nat) (frame : Frame) :
    deriveWithin depth .suffix frame [] = ⟨none, frame⟩ := by
  cases depth <;> rfl

/-- The first rule takes a chain, and then suffixes. -/
theorem deriveWithin_program (depth : Nat) (frame : Frame) (rest : List Lexeme) :
    deriveWithin (depth + 1) .program frame rest =
      match deriveWithin depth .chain frame rest with
      | ⟨some next, after⟩ =>
        repeatStep (deriveWithin depth .suffix) (next.length + 1) after next
      | failed => failed := by
  show deriveItems (deriveWithin depth) [.rule .chain, .many [.rule .suffix]] frame rest = _
  have step : deriveItems (deriveWithin depth) [.rule .suffix] = deriveWithin depth .suffix :=
    funext fun frame => funext fun rest => deriveItems_singleton _ _ frame rest
  rw [deriveItems, deriveItem]
  rcases deriveWithin depth .chain frame rest with ⟨_ | next, after⟩
  · rfl
  · show deriveItems (deriveWithin depth) [.many [.rule .suffix]] after next = _
    rw [deriveItems_singleton, deriveItem, step]

/-- **The first rule goes on with the suffixes** from the forest of what stands before them. -/
theorem interpret_append (trailing : Trailing tail) {lexemes : List Lexeme} {forest all : Frame}
    (interprets : interpret lexemes = .ok forest)
    (suffixes : ∀ depth fuel, 3 ≤ depth → tail.length < fuel →
      repeatStep (deriveWithin depth .suffix) fuel forest tail = ⟨some [], all⟩) :
    interpret (lexemes ++ tail) = .ok all := by
  have derives : derive .program [] lexemes = ⟨some [], forest⟩ := by
    unfold interpret at interprets
    split at interprets
    · rename_i derives
      cases interprets
      exact derives
    · cases interprets
  obtain ⟨depth, bound⟩ : ∃ depth, rankCount * ((lexemes ++ tail).length + 1) = depth + 1 :=
    Nat.exists_eq_add_one.mpr (Nat.mul_pos (by decide) (Nat.succ_pos _))
  have least : 3 ≤ depth := by
    unfold rankCount at bound
    omega
  -- both derivations may run with the bound of the longer one
  have enough : depthFor .program lexemes ≤ depth + 1 := by
    rw [← bound, List.length_append]
    simp only [depthFor, rankCount, RuleName.rank]
    omega
  rw [derive_eq_deriveWithin enough, deriveWithin_program] at derives
  have derivesAll : derive .program [] (lexemes ++ tail) = ⟨some [], all⟩ := by
    rw [derive, bound, deriveWithin_program,
      deriveWithin_followedBy trailing depth .chain [] lexemes rfl]
    generalize deriveWithin depth .chain [] lexemes = chain at derives ⊢
    rcases chain with ⟨_ | next, after⟩
    · cases derives
    · obtain ⟨less, enough, same⟩ := repeatStep_append (deriveWithin_suffix_nil depth)
        (fun frame _ left => deriveWithin_suffix_followedBy trailing depth frame left)
        _ after next derives _ (Nat.lt_succ_self _)
      show repeatStep (deriveWithin depth .suffix) ((next ++ tail).length + 1) after
          (next ++ tail) = _
      rw [same]
      exact suffixes depth less least enough
  rw [interpret, derivesAll]

end Rules

end Schemata.Grammar
