/-
**Lookahead decides every choice of the grammar.**

A derivation commits itself to the first alternative that derives, and repeats as often as it can.
That loses nothing where the lexemes at hand decide: an alternative that derives is not preceded by
one that could derive there too, and a repetition stops where its body cannot go on.

* `RuleName.first` and `RuleName.follow` list the kinds of lexemes with which a rule starts, and
  those that may stand behind it; `Item.sequenceDecided` checks that they decide every choice inside
  some items;
* `RuleName.definition_decided`: they do so in every rule of the table;
* `deriveItems_of_builds`: so what is built is derived, and `interpret_of_builds` says it of whole
  schemas.
-/

import Schemata.Proofs.Language.Sentences

namespace Schemata.Grammar

/-! ### First lexemes -/

/-- The kinds of the lexemes that head an entry of a chain. -/
def headKinds : List TokenKind :=
  nameKeywords ++ [TokenKind.define, .reference]

/-- **The kinds of lexemes with which a rule starts.** -/
def RuleName.first : RuleName → List TokenKind
  | .program | .chain | .entry | .validator => headKinds
  | .suffix => [.errorSuffix, .metaSuffix]
  | .errorTag => [.bang]
  | .field => [.identifier, .quote, .constant] ++ nameKeywords
  | .comparator => [.operator]
  | .injection => [.dollar, .leftBrace]
  | .string => [.quote]
  | .value => [.number, .constant, .quote, .dollar, .leftBrace]
  | .defineParams | .referenceParams => [.identifier]
  | .suffixArgs | .objectParams | .arrayParams | .compareParams | .regexParams | .valueParams
  | .listParams => [.leftParen]

mutual

/-- The kinds of lexemes with which an item starts, if it takes any. -/
def Item.first : Item → List TokenKind
  | .token kind => [kind]
  | .rule name => name.first
  | .choice alternatives => Item.allFirst alternatives
  | .many body => Item.sequenceFirst body

/-- The kinds of lexemes with which a sequence starts, if it takes any. -/
def Item.sequenceFirst : List Item → List TokenKind
  | [] => []
  | item :: items => item.first ++ if item.consumes then [] else Item.sequenceFirst items

/-- The kinds of lexemes with which any of some sequences starts, if it takes any. -/
def Item.allFirst : List (List Item) → List TokenKind
  | [] => []
  | items :: others => Item.sequenceFirst items ++ Item.allFirst others

end

/-- **Rules start with their first lexemes.** -/
theorem RuleName.definition_first (name : RuleName) :
    Item.sequenceFirst name.definition.items ⊆ name.first := by
  cases name <;> decide

theorem Item.anyConsumes_of_mem {alternatives : List (List Item)} {alternative : List Item}
    (all : Item.allConsume alternatives = true) (member : alternative ∈ alternatives) :
    Item.anyConsumes alternative = true := by
  induction alternatives with
  | nil => cases member
  | cons items others ih =>
      obtain ⟨here, later⟩ := Bool.and_eq_true_iff.mp all
      rcases List.mem_cons.mp member with rfl | member
      · exact here
      · exact ih later member

theorem Item.sequenceFirst_subset {alternatives : List (List Item)} {alternative : List Item}
    (member : alternative ∈ alternatives) :
    Item.sequenceFirst alternative ⊆ Item.allFirst alternatives := by
  induction alternatives with
  | nil => cases member
  | cons items others ih =>
      rw [Item.allFirst]
      rcases List.mem_cons.mp member with rfl | member
      · exact List.subset_append_left _ _
      · exact List.subset_append_of_subset_right _ (ih member)

/-- Lexemes start with one of some kinds, if there are any. -/
def Meets (rest : List Lexeme) (kinds : List TokenKind) : Prop :=
  ∀ lexeme ∈ rest.head?, lexeme.kind ∈ kinds

/-- Lexemes start with none of some kinds. -/
def Misses (rest : List Lexeme) (kinds : List TokenKind) : Prop :=
  ∀ lexeme ∈ rest.head?, lexeme.kind ∉ kinds

theorem Misses.append {rest : List Lexeme} {first second : List TokenKind}
    (misses : Misses rest (first ++ second)) : Misses rest first ∧ Misses rest second :=
  ⟨fun lexeme front member => misses lexeme front (List.mem_append_left _ member),
    fun lexeme front member => misses lexeme front (List.mem_append_right _ member)⟩

/-- What takes a lexeme has taken one. -/
theorem Builds.taken_ne_nil {items : List Item} {frame result : Frame} {taken : List Lexeme}
    (builds : Builds items frame taken result) : Item.anyConsumes items = true → taken ≠ [] := by
  induction builds with
  | nil => exact nofun
  | token => exact fun _ => List.cons_ne_nil _ _
  | rule _ _ _ _ ih | construct _ _ _ _ _ ih =>
      exact fun _ => List.append_ne_nil_of_left_ne_nil (ih (RuleName.definition_consumes _)) _
  | choice member _ _ ih ihLater =>
      intro consumes
      rcases Bool.or_eq_true_iff.mp consumes with all | later
      · exact List.append_ne_nil_of_left_ne_nil (ih (Item.anyConsumes_of_mem all member)) _
      · exact List.append_ne_nil_of_right_ne_nil _ (ihLater later)
  | stop _ ih => exact ih
  | again _ _ _ ihLater =>
      exact fun consumes => List.append_ne_nil_of_right_ne_nil _ (ihLater consumes)

/-- Lexemes in front decide with which kind it starts. -/
theorem Meets.append {taken rest : List Lexeme} {kinds : List TokenKind} (front : Meets taken kinds)
    (some : taken ≠ []) : Meets (taken ++ rest) kinds := by
  cases taken with
  | nil => exact absurd rfl some
  | cons lexeme taken => exact front

theorem Meets.mono {rest : List Lexeme} {kinds others : List TokenKind} (meets : Meets rest kinds)
    (subset : kinds ⊆ others) : Meets rest others :=
  fun lexeme front => subset (meets lexeme front)

/-- **What is taken starts with a first lexeme of the items.** -/
theorem Builds.meets_first {items : List Item} {frame result : Frame} {taken : List Lexeme}
    (builds : Builds items frame taken result) : Meets taken (Item.sequenceFirst items) := by
  induction builds with
  | nil => exact nofun
  | token same =>
      rintro _ ⟨⟩
      exact List.mem_append_left _ (List.mem_singleton.mpr same)
  | rule _ inside _ _ ih | construct _ inside _ _ _ ih =>
      refine Meets.append (ih.mono fun kind member => ?_)
        (inside.taken_ne_nil (RuleName.definition_consumes _))
      exact List.mem_append_left _ (RuleName.definition_first _ member)
  | @choice alternatives alternative items _ _ _ taken _ member inside later ih ihLater =>
      cases taken with
      | nil =>
          have skips : (Item.choice alternatives).consumes = false := by
            rw [Bool.eq_false_iff]
            exact fun all => inside.taken_ne_nil (Item.anyConsumes_of_mem all member) rfl
          rw [Item.sequenceFirst, skips]
          exact ihLater.mono (List.subset_append_right _ _)
      | cons lexeme taken =>
          refine Meets.append (ih.mono fun kind here => ?_) (List.cons_ne_nil _ _)
          exact List.mem_append_left _ (Item.sequenceFirst_subset member here)
  | stop _ ih => exact ih.mono (List.subset_append_right _ _)
  | @again _ _ _ _ _ taken _ inside _ ih ihLater =>
      cases taken with
      | nil => exact ihLater
      | cons lexeme taken =>
          exact Meets.append (ih.mono (List.subset_append_left _ _)) (List.cons_ne_nil _ _)

/-- The kinds of lexemes with which items and what follows them start. -/
def Item.firstBefore (follow : List TokenKind) (items : List Item) : List TokenKind :=
  Item.sequenceFirst items ++ if Item.anyConsumes items then [] else follow

theorem Builds.meets {items : List Item} {frame result : Frame} {taken tail : List Lexeme}
    {follow : List TokenKind} (builds : Builds items frame taken result)
    (behind : Meets tail follow) :
    Meets (taken ++ tail) (Item.firstBefore follow items) := by
  cases taken with
  | nil =>
      have skips : Item.anyConsumes items = false := by
        rw [Bool.eq_false_iff]
        exact fun consumes => builds.taken_ne_nil consumes rfl
      rw [Item.firstBefore, skips]
      exact behind.mono (List.subset_append_right _ _)
  | cons lexeme taken =>
      exact Meets.append (builds.meets_first.mono (List.subset_append_left _ _))
        (List.cons_ne_nil _ _)

/-! ### Items that cannot start -/

section Misses

variable {rules : RuleDeriver}

/-- Rules fail, and leave their frame, on lexemes with which they cannot start. -/
def RuleDeriver.Blocked (rules : RuleDeriver) : Prop :=
  ∀ name frame rest, Misses rest name.first → rules name frame rest = ⟨none, frame⟩

mutual

/-- On lexemes with which it cannot start, an item fails if it takes any, and takes none
otherwise. -/
theorem deriveItem_of_misses (blocked : rules.Blocked) : (item : Item) →
    ∀ (frame : Frame) (rest : List Lexeme), Misses rest item.first →
      deriveItem rules item frame rest = ⟨if item.consumes then none else some rest, frame⟩
  | .token kind => by
      intro frame rest misses
      cases rest with
      | nil => rfl
      | cons lexeme rest =>
          have other : lexeme.kind ≠ kind :=
            fun same => misses lexeme rfl (List.mem_singleton.mpr same)
          rw [deriveItem, deriveToken, if_neg other]
          rfl
  | .rule name => fun frame rest misses => blocked name frame rest misses
  | .choice alternatives => fun frame rest misses =>
      deriveChoice_of_misses blocked alternatives frame rest misses
  | .many body => by
      intro frame rest misses
      rw [deriveItem, repeatStep, deriveItems_of_misses blocked body frame rest misses]
      cases Item.anyConsumes body with
      | true =>
          show (⟨some rest, frame.take frame.length⟩ : Attempt) = ⟨some rest, frame⟩
          rw [List.take_length]
      | false =>
          show (if rest.length < rest.length then _ else _ : Attempt) = _
          rw [if_neg (Nat.lt_irrefl _), List.take_length]
          rfl

theorem deriveItems_of_misses (blocked : rules.Blocked) : (items : List Item) →
    ∀ (frame : Frame) (rest : List Lexeme), Misses rest (Item.sequenceFirst items) →
      deriveItems rules items frame rest =
        ⟨if Item.anyConsumes items then none else some rest, frame⟩
  | [] => fun _ _ _ => rfl
  | item :: items => by
      intro frame rest misses
      obtain ⟨here, later⟩ := misses.append
      rw [deriveItems, deriveItem_of_misses blocked item frame rest here]
      rw [Item.anyConsumes]
      cases consumes : item.consumes with
      | true => rfl
      | false =>
          rw [consumes] at later
          exact deriveItems_of_misses blocked items frame rest later

theorem deriveChoice_of_misses (blocked : rules.Blocked) : (alternatives : List (List Item)) →
    ∀ (frame : Frame) (rest : List Lexeme), Misses rest (Item.allFirst alternatives) →
      deriveChoice rules alternatives frame.length frame rest =
        ⟨if Item.allConsume alternatives then none else some rest, frame⟩
  | [] => fun _ _ _ => rfl
  | items :: others => by
      intro frame rest misses
      obtain ⟨here, later⟩ := misses.append
      rw [deriveChoice, deriveItems_of_misses blocked items frame rest here, Item.allConsume]
      cases Item.anyConsumes items with
      | true =>
          show deriveChoice rules others frame.length (frame.take frame.length) rest = _
          rw [List.take_length, deriveChoice_of_misses blocked others frame rest later]
          rfl
      | false => rfl

end

end Misses

theorem deriveWithin_blocked (depth : Nat) : (deriveWithin depth).Blocked := by
  induction depth with
  | zero => exact fun _ _ _ _ => rfl
  | succ depth ih =>
      intro name frame rest misses
      have fails : ∀ frame, deriveItems (deriveWithin depth) name.definition.items frame rest =
          ⟨none, frame⟩ := by
        intro frame
        rw [deriveItems_of_misses ih _ _ _
          fun lexeme front member => misses lexeme front (name.definition_first member),
          name.definition_consumes]
        rfl
      rw [deriveWithin]
      cases name.definition.construct with
      | none => exact fails frame
      | some construct =>
          dsimp only
          rw [fails]

/-- **A rule fails on lexemes with which it cannot start.** -/
theorem derive_blocked : RuleDeriver.Blocked derive :=
  fun name frame rest => deriveWithin_blocked _ name frame rest

/-! ### Rules by their definitions -/

/-- **A rule derives what its items derive**, and reduces it if it has a construct. -/
theorem derive_eq (name : RuleName) (frame : Frame) (rest : List Lexeme) :
    derive name frame rest = match name.definition.construct with
      | none => deriveItems derive name.definition.items frame rest
      | some construct => match deriveItems derive name.definition.items [] rest with
        | ⟨none, _⟩ => ⟨none, frame⟩
        | ⟨some next, nodes⟩ => match construct.reduce? nodes frame with
          | some reduced => ⟨some next, reduced⟩
          | none => ⟨none, frame⟩ := by
  have bound : depthFor name rest ≤ rankCount * (rest.length + 1) + 1 := by
    have lower := name.rank_lt
    unfold depthFor rankCount at *
    omega
  have agree : AgreeBelow (deriveWithin (rankCount * (rest.length + 1))) derive rest.length
      name.rank := by
    intro inner frame shorter below
    have lower := inner.rank_lt
    have limit := name.rank_lt
    refine (derive_eq_deriveWithin ?_).symm
    unfold depthFor rankCount at *
    omega
  have consuming : RuleDeriver.Consuming derive :=
    fun name frame rest => deriveWithin_consuming _ name frame rest
  have inside := fun frame => deriveItems_congr consuming agree name.definition.items frame rest
    (.inr ⟨rfl, name.definition_opensBelow⟩)
  rw [derive_eq_deriveWithin bound, deriveWithin]
  cases name.definition.construct with
  | none => exact inside frame
  | some construct =>
      have same := inside []
      generalize deriveItems derive name.definition.items [] rest = derived at same ⊢
      subst same
      rcases deriveItems _ name.definition.items [] rest with ⟨_ | next, nodes⟩ <;> rfl

/-- **A rule with a construct fails and leaves the frame as it was**, or derives and has reduced its
nodes into the frame. -/
theorem derive_of_construct {name : RuleName} {construct : Construct}
    (constructs : name.definition.construct = some construct) (frame : Frame) (rest : List Lexeme) :
    derive name frame rest = ⟨none, frame⟩ ∨ ∃ next nodes reduced,
      derive name frame rest = ⟨some next, reduced⟩ ∧
        construct.reduce? nodes frame = some reduced := by
  rw [derive_eq, constructs]
  dsimp only
  rcases deriveItems derive name.definition.items [] rest with ⟨_ | next, nodes⟩
  · exact .inl rfl
  · dsimp only
    cases reduces : construct.reduce? nodes frame with
    | none => exact .inl rfl
    | some reduced => exact .inr ⟨next, nodes, reduced, rfl, reduces⟩

/-! ### Decided choices -/

/-- **Some items fail on whatever other items derive**, with something that follows them: the first
lexemes tell them apart, perhaps behind lexemes with which both of them start. -/
def Item.fails (follow : List TokenKind) : List Item → List Item → Bool
  | .token kind :: items, .token other :: others =>
    kind ≠ other || Item.fails follow items others
  | items, others => Item.anyConsumes items &&
    (Item.sequenceFirst items).all fun kind => kind ∉ Item.firstBefore follow others

/-- The sequences that a sequence stands for if it starts with a choice. -/
def Item.openings : List Item → List (List Item)
  | .choice alternatives :: items => alternatives.map (· ++ items)
  | items => [items]

/-- Some items fail on whatever other items derive, which may start with a choice. -/
def Item.failsBefore (follow : List TokenKind) (items others : List Item) : Bool :=
  (Item.openings others).all (Item.fails follow items)

/-- **The kinds of lexemes that may stand behind a rule.** -/
def RuleName.follow : RuleName → List TokenKind
  | .program => []
  | .suffix | .suffixArgs => [.errorSuffix, .metaSuffix]
  | .chain => [.comma, .rightParen, .errorSuffix, .metaSuffix]
  | .field | .value | .injection => [.comma, .rightParen]
  | .comparator => [.rightParen]
  | .entry | .errorTag | .string =>
    headKinds ++ [.colon, .comma, .rightParen, .errorSuffix, .metaSuffix]
  | .validator | .objectParams | .arrayParams | .compareParams | .regexParams | .valueParams
  | .listParams | .defineParams | .referenceParams =>
    headKinds ++ [.bang, .colon, .comma, .rightParen, .errorSuffix, .metaSuffix]

mutual

/-- Lookahead decides every choice inside an item, where some items and then lexemes of some kinds
follow it. -/
def Item.decided (follow : List TokenKind) (later : List Item) : Item → Bool
  | .token _ => true
  | .rule name => (Item.firstBefore follow later).all fun kind => kind ∈ name.follow
  | .choice alternatives => Item.allDecided follow later alternatives
  | .many body => Item.anyConsumes body && Item.failsBefore follow body later &&
    Item.sequenceDecided (Item.sequenceFirst body ++ Item.firstBefore follow later) body

/-- **Lookahead decides every choice inside a sequence**, where lexemes of some kinds follow it. -/
def Item.sequenceDecided (follow : List TokenKind) : List Item → Bool
  | [] => true
  | item :: items => item.decided follow items && Item.sequenceDecided follow items

/-- Lookahead decides which of some alternatives derives, and every choice inside them. -/
def Item.allDecided (follow : List TokenKind) (later : List Item) : List (List Item) → Bool
  | [] => true
  | items :: others => Item.sequenceDecided (Item.firstBefore follow later) items &&
    others.all (fun other => Item.failsBefore follow items (other ++ later)) &&
    Item.allDecided follow later others

end

/-- **Lookahead decides every choice of the table.** -/
theorem RuleName.definition_decided (name : RuleName) :
    Item.sequenceDecided name.follow name.definition.items = true := by
  cases name <;> decide

/-! ### Derivations of what is built -/

theorem pushed_eq_append (lexeme : Lexeme) (frame : Frame) :
    ∃ extra, pushed lexeme frame = frame ++ extra := by
  unfold pushed
  split
  · exact ⟨_, rfl⟩
  · exact ⟨[], (List.append_nil _).symm⟩

theorem Builds.opening {items : List Item} {frame result : Frame} {taken : List Lexeme}
    (builds : Builds items frame taken result) :
    ∃ opening ∈ Item.openings items, Builds opening frame taken result := by
  cases builds with
  | choice member inside later =>
      exact ⟨_, List.mem_map_of_mem member, inside.append later⟩
  | nil => exact ⟨_, List.mem_singleton_self _, .nil _⟩
  | token same later => exact ⟨_, List.mem_singleton_self _, .token same later⟩
  | rule plain inside admits later =>
      exact ⟨_, List.mem_singleton_self _, .rule plain inside admits later⟩
  | construct constructs inside admits reduces later =>
      exact ⟨_, List.mem_singleton_self _, .construct constructs inside admits reduces later⟩
  | stop later => exact ⟨_, List.mem_singleton_self _, .stop later⟩
  | again inside later => exact ⟨_, List.mem_singleton_self _, .again inside later⟩

/-- Items that fail on what others derive leave their frame in front of what they have collected. -/
theorem deriveItems_of_fails {follow : List TokenKind} {items others : List Item}
    (fails : Item.fails follow items others = true) {frame result : Frame}
    {taken tail : List Lexeme}
    (builds : Builds others frame taken result) (behind : Meets tail follow) :
    ∃ extra, deriveItems derive items frame (taken ++ tail) = ⟨none, frame ++ extra⟩ := by
  fun_induction Item.fails follow items others generalizing frame taken with
  | case1 kind items other others ih =>
      cases builds with
      | @token _ lexeme _ _ _ rest same later =>
          rw [List.cons_append, deriveItems, deriveItem, deriveToken]
          by_cases here : lexeme.kind = kind
          · rw [if_pos here]
            have further := (Bool.or_eq_true_iff.mp fails).resolve_left
              (by simpa using here.symm.trans same)
            obtain ⟨extra, derives⟩ := ih further later
            obtain ⟨first, pushes⟩ := pushed_eq_append lexeme frame
            refine ⟨first ++ extra, ?_⟩
            rw [← List.append_assoc, ← pushes]
            exact derives
          · rw [if_neg here]
            exact ⟨[], by rw [List.append_nil]⟩
  | case2 items others =>
      obtain ⟨consumes, apart⟩ := Bool.and_eq_true_iff.mp fails
      have misses : Misses (taken ++ tail) (Item.sequenceFirst items) := by
        intro lexeme front member
        have other := List.all_eq_true.mp apart _ member
        exact of_decide_eq_true other (builds.meets behind lexeme front)
      refine ⟨[], ?_⟩
      rw [deriveItems_of_misses derive_blocked items frame _ misses, consumes, List.append_nil]
      rfl

theorem deriveItems_of_failsBefore {follow : List TokenKind} {items others : List Item}
    (fails : Item.failsBefore follow items others = true) {frame result : Frame}
    {taken tail : List Lexeme} (builds : Builds others frame taken result)
    (behind : Meets tail follow) :
    ∃ extra, deriveItems derive items frame (taken ++ tail) = ⟨none, frame ++ extra⟩ := by
  obtain ⟨opening, member, opened⟩ := builds.opening
  exact deriveItems_of_fails (List.all_eq_true.mp fails opening member) opened behind

/-- An alternative that derives is taken if those before it fail. -/
theorem deriveChoice_of_derives {rules : RuleDeriver} {follow : List TokenKind} {later : List Item}
    {alternatives : List (List Item)} {alternative : List Item} {frame middle : Frame}
    {rest next : List Lexeme} (decided : Item.allDecided follow later alternatives = true)
    (member : alternative ∈ alternatives)
    (derives : deriveItems rules alternative frame rest = ⟨some next, middle⟩)
    (others : ∀ items, Item.failsBefore follow items (alternative ++ later) = true →
      ∃ extra, deriveItems rules items frame rest = ⟨none, frame ++ extra⟩) :
    deriveChoice rules alternatives frame.length frame rest = ⟨some next, middle⟩ := by
  induction alternatives with
  | nil => cases member
  | cons items alternatives ih =>
      obtain ⟨front, further⟩ := Bool.and_eq_true_iff.mp decided
      obtain ⟨-, apart⟩ := Bool.and_eq_true_iff.mp front
      rw [deriveChoice]
      rcases List.mem_cons.mp member with rfl | member
      · rw [derives]
      · obtain ⟨extra, fails⟩ := others items (List.all_eq_true.mp apart alternative member)
        rw [fails]
        dsimp only
        rw [List.take_left, ih further member]

theorem Item.sequenceDecided_of_mem {follow : List TokenKind} {later : List Item}
    {alternatives : List (List Item)} {alternative : List Item}
    (decided : Item.allDecided follow later alternatives = true)
    (member : alternative ∈ alternatives) :
    Item.sequenceDecided (Item.firstBefore follow later) alternative = true := by
  induction alternatives with
  | nil => cases member
  | cons items alternatives ih =>
      obtain ⟨front, further⟩ := Bool.and_eq_true_iff.mp decided
      rcases List.mem_cons.mp member with rfl | member
      · exact (Bool.and_eq_true_iff.mp front).1
      · exact ih further member

/-- The number of steps does not matter if it is large enough. -/
theorem repeatStep_fuel (step : Frame → List Lexeme → Attempt) {fuel other : Nat} (frame : Frame)
    {rest : List Lexeme} (enough : rest.length < fuel) (enoughOther : rest.length < other) :
    repeatStep step fuel frame rest = repeatStep step other frame rest := by
  have unchanged : ∀ attempt : Attempt, attempt.followedBy [] = attempt := by
    rintro ⟨_ | next, after⟩
    · rfl
    · exact congrArg (Attempt.mk · after) (congrArg some (List.append_nil next))
  have alike := @repeatStep_followedBy [] step
    (fun frame rest => by rw [List.append_nil, unchanged]) fuel other frame rest enough enoughOther
  rwa [List.append_nil, unchanged] at alike

/-- **What is built is derived**, where lookahead decides every choice. -/
theorem deriveItems_of_builds {items : List Item} {frame result : Frame} {taken : List Lexeme}
    (builds : Builds items frame taken result) : ∀ {follow : List TokenKind} {tail : List Lexeme},
    Item.sequenceDecided follow items = true → Meets tail follow →
      deriveItems derive items frame (taken ++ tail) = ⟨some tail, result⟩ := by
  induction builds with
  | nil => exact fun _ _ => rfl
  | @token kind lexeme items frame result rest same later ih =>
      intro follow tail decided behind
      rw [List.cons_append, deriveItems, deriveItem, deriveToken, if_pos same]
      exact ih (Bool.and_eq_true_iff.mp decided).2 behind
  | rule plain inside _ later ihInside ihLater =>
      intro follow tail decided behind
      obtain ⟨here, further⟩ := Bool.and_eq_true_iff.mp decided
      have next := (later.meets behind).mono fun kind member =>
        of_decide_eq_true (List.all_eq_true.mp here kind member)
      rw [List.append_assoc, deriveItems, deriveItem, derive_eq, plain]
      dsimp only
      rw [ihInside (RuleName.definition_decided _) next]
      exact ihLater further behind
  | construct constructs inside _ reduces later ihInside ihLater =>
      intro follow tail decided behind
      obtain ⟨here, further⟩ := Bool.and_eq_true_iff.mp decided
      have next := (later.meets behind).mono fun kind member =>
        of_decide_eq_true (List.all_eq_true.mp here kind member)
      rw [List.append_assoc, deriveItems, deriveItem, derive_eq, constructs]
      dsimp only
      rw [ihInside (RuleName.definition_decided _) next]
      dsimp only
      rw [reduces]
      exact ihLater further behind
  | choice member inside later ihInside ihLater =>
      intro follow tail decided behind
      obtain ⟨here, further⟩ := Bool.and_eq_true_iff.mp decided
      have derives := ihInside (Item.sequenceDecided_of_mem here member) (later.meets behind)
      rw [List.append_assoc, deriveItems, deriveItem, deriveChoice_of_derives here member derives]
      · exact ihLater further behind
      · intro items fails
        rw [← List.append_assoc]
        exact deriveItems_of_failsBefore fails (inside.append later) behind
  | stop later ih =>
      intro follow tail decided behind
      obtain ⟨here, further⟩ := Bool.and_eq_true_iff.mp decided
      obtain ⟨front, -⟩ := Bool.and_eq_true_iff.mp here
      obtain ⟨extra, fails⟩ :=
        deriveItems_of_failsBefore (Bool.and_eq_true_iff.mp front).2 later behind
      rw [deriveItems, deriveItem, repeatStep, fails]
      dsimp only
      rw [List.take_left]
      exact ih further behind
  | @again body items frame middle result taken rest inside later ihInside ihLater =>
      intro follow tail decided behind
      have here := (Bool.and_eq_true_iff.mp decided).1
      obtain ⟨front, bodyDecided⟩ := Bool.and_eq_true_iff.mp here
      have consumes := (Bool.and_eq_true_iff.mp front).1
      have either : Item.firstBefore follow (.many body :: items) =
          Item.sequenceFirst body ++ Item.firstBefore follow items := List.append_assoc _ _ _
      have derives := ihInside bodyDecided (either ▸ later.meets behind)
      have shorter : (rest ++ tail).length < (taken ++ (rest ++ tail)).length := by
        have some := List.length_pos_iff.mpr (inside.taken_ne_nil consumes)
        simp only [List.length_append]
        omega
      have goesOn := ihLater decided behind
      rw [deriveItems, deriveItem] at goesOn
      rw [List.append_assoc, deriveItems, deriveItem, repeatStep, derives]
      dsimp only
      rw [if_pos shorter, repeatStep_fuel _ middle shorter (Nat.lt_succ_self _)]
      exact goesOn

/-- **What the first rule builds is the forest of its lexemes.** -/
theorem interpret_of_builds {lexemes : List Lexeme} {forest : Frame}
    (builds : Builds [.rule .program] [] lexemes forest) : interpret lexemes = .ok forest := by
  have derives : deriveItems derive [.rule .program] [] (lexemes ++ []) = ⟨some [], forest⟩ :=
    deriveItems_of_builds builds
      (show Item.sequenceDecided [] [.rule .program] = true from rfl) nofun
  rw [List.append_nil, deriveItems_singleton, deriveItem] at derives
  rw [interpret, derives]

end Schemata.Grammar
