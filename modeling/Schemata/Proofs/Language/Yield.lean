/-
**A forest says what its lexemes say, in their order.**

What a failed attempt has collected is cut off again, and a reduction only puts together what stands
side by side. So nothing that carries a value is lost, doubled or moved on the way from the lexemes
to their forest.

* `Tells` says that an attempt has added to a frame what it has taken;
* `deriveItems_tells`: sequences do so if the rules do, since cutting a frame back restores it;
* `deriveItems_rendersText` and `deriveItems_rendersInjection` say which lexemes a text and an index
  are made of, and `deriveChoice_headed` that a head has no error tag before it gets one;
* `deriveWithin_telling`: so rules tell what they have taken, and `allStandFor_of_interpret` says it
  of whole forests.
-/

import Schemata.Proofs.Language.Growth
import Schemata.Proofs.Language.Leaves

namespace Schemata.Grammar

open Leaf (AllStandFor Becomes)
open Lexeme (ofKind pieces)

/-- Lexemes that carry a value if those of their kind do. -/
def CarryByKind (lexemes : List Lexeme) : Prop :=
  ∀ lexeme ∈ lexemes, lexeme.carriesValue = lexeme.kind.carriesValue

theorem CarryByKind.front {first second : List Lexeme} (carry : CarryByKind (first ++ second)) :
    CarryByKind first :=
  fun lexeme member => carry lexeme (List.mem_append_left _ member)

theorem CarryByKind.behind {first second : List Lexeme} (carry : CarryByKind (first ++ second)) :
    CarryByKind second :=
  fun lexeme member => carry lexeme (List.mem_append_right _ member)

theorem CarryByKind.tail {lexeme : Lexeme} {rest : List Lexeme}
    (carry : CarryByKind (lexeme :: rest)) :
    CarryByKind rest :=
  (List.forall_mem_cons.mp carry).2

/-- A lexeme of a kind that carries values joins the frame. -/
theorem CarryByKind.pushed_eq {lexeme : Lexeme} {rest : List Lexeme}
    (carry : CarryByKind (lexeme :: rest)) (frame : Frame) :
    pushed lexeme frame = if lexeme.kind.carriesValue then
      frame ++ [Param.token lexeme] else frame := by
  rw [pushed, (List.forall_mem_cons.mp carry).1]

/-! ### What an attempt adds to a frame -/

/-- **Behind the frame there is what has been taken**, read from left to right. -/
def Tells (frame : Frame) (taken : List Lexeme) (after : Frame) : Prop :=
  ∃ told, (∀ rest, pieces none (taken ++ rest) = told ++ pieces none rest) ∧
    ∀ before, AllStandFor (Param.leavesOfAll frame) before →
      AllStandFor (Param.leavesOfAll after) (before ++ told)

namespace Tells

variable {frame middle after nodes : Frame} {taken more : List Lexeme}

theorem refl (frame : Frame) : Tells frame [] frame :=
  ⟨[], fun _ => rfl, fun before stand => (List.append_nil before).symm ▸ stand⟩

theorem trans (first : Tells frame taken middle) (second : Tells middle more after) :
    Tells frame (taken ++ more) after := by
  obtain ⟨told, reads, stand⟩ := first
  obtain ⟨toldMore, readsMore, standMore⟩ := second
  refine ⟨told ++ toldMore, fun rest => ?_, fun before stands => ?_⟩
  · rw [List.append_assoc, reads, readsMore, List.append_assoc]
  · rw [← List.append_assoc]
    exact standMore _ (stand before stands)

/-- A lexeme between quotes and texts is told by itself, if it carries a value. -/
theorem token {lexeme : Lexeme} (other : lexeme.kind ≠ .quote) :
    Tells frame [lexeme] (pushed lexeme frame) := by
  unfold pushed
  by_cases carries : lexeme.carriesValue = true
  · rw [if_pos carries]
    refine ⟨[.lexeme lexeme], Lexeme.pieces_of_carries other carries, fun before stand => ?_⟩
    rw [Param.leavesOfAll_append]
    exact stand.append (.cons (.token lexeme) .nil)
  · rw [if_neg carries]
    refine ⟨[], Lexeme.pieces_of_silent other (Bool.eq_false_iff.mpr carries),
      fun before stand => ?_⟩
    rwa [List.append_nil]

/-- A node that is a leaf by itself. -/
theorem leaf {node : Param} {leaf : Leaf} {piece : Piece} (single : node.leaves = [leaf])
    (reads : ∀ rest, pieces none (taken ++ rest) = piece :: pieces none rest)
    (stands : leaf.StandsFor piece) :
    Tells frame taken (frame ++ [node]) := by
  refine ⟨[piece], reads, fun before stand => ?_⟩
  rw [Param.leavesOfAll_append, Param.leavesOfAll_singleton, single]
  exact stand.append (.cons stands .nil)

/-- What has been taken in a frame of its own is told by what the nodes of that frame become. -/
theorem reduced (inside : Tells [] taken nodes)
    (becomes : Becomes (Param.leavesOfAll frame ++ Param.leavesOfAll nodes)
      (Param.leavesOfAll after)) :
    Tells frame taken after := by
  obtain ⟨told, reads, stand⟩ := inside
  exact ⟨told, reads, fun before stands => becomes _ (stands.append (stand [] .nil))⟩

/-- One node that has been made of the nodes of a frame. -/
theorem node {node : Param} (inside : Tells [] taken nodes)
    (becomes : Becomes (Param.leavesOfAll nodes) node.leaves) :
    Tells frame taken (frame ++ [node]) := by
  refine inside.reduced ?_
  rw [Param.leavesOfAll_append, Param.leavesOfAll_singleton]
  exact (Becomes.refl _).append becomes

end Tells

/-! ### Attempts at items -/

mutual

/-- The kinds of the tokens in an item. -/
def Item.tokens : Item → List TokenKind
  | .token kind => [kind]
  | .rule _ => []
  | .choice alternatives => Item.allTokens alternatives
  | .many body => Item.sequenceTokens body

/-- The kinds of the tokens in a sequence. -/
def Item.sequenceTokens : List Item → List TokenKind
  | [] => []
  | item :: items => item.tokens ++ Item.sequenceTokens items

/-- The kinds of the tokens in some sequences. -/
def Item.allTokens : List (List Item) → List TokenKind
  | [] => []
  | items :: others => Item.sequenceTokens items ++ Item.allTokens others

end

/-- Quotes stand around texts only. -/
theorem RuleName.definition_quoteless {name : RuleName} (other : name ≠ .string) :
    .quote ∉ Item.sequenceTokens name.definition.items := by
  revert other
  cases name <;> decide

/-- An attempt that derives has told what it has taken. -/
def Attempt.TellsFrom (attempt : Attempt) (frame : Frame) (rest : List Lexeme) : Prop :=
  ∀ ⦃next after⦄, attempt = ⟨some next, after⟩ → ∃ taken, rest = taken ++ next ∧
    Tells frame taken after

/-- An attempt that takes nothing and adds nothing. -/
theorem Attempt.TellsFrom.stay (frame : Frame) (rest : List Lexeme) :
    Attempt.TellsFrom ⟨some rest, frame⟩ frame rest := by
  rintro _ _ ⟨⟩
  exact ⟨[], rfl, .refl frame⟩

/-- An attempt that goes on where another ended. -/
theorem Attempt.TellsFrom.behind {attempt : Attempt} {frame between : Frame}
    {taken middle : List Lexeme} (tells : attempt.TellsFrom between middle)
    (here : Tells frame taken between) :
    attempt.TellsFrom frame (taken ++ middle) := by
  intro next after derives
  obtain ⟨more, rfl, later⟩ := tells derives
  exact ⟨taken ++ more, (List.append_assoc _ _ _).symm, here.trans later⟩

/-- **Rules tell what they have taken.** -/
def RuleDeriver.Telling (rules : RuleDeriver) : Prop :=
  ∀ name frame rest, CarryByKind rest → (rules name frame rest).TellsFrom frame rest

theorem deriveToken_tells {kind : TokenKind} (other : kind ≠ .quote) (frame : Frame)
    (rest : List Lexeme) :
    (deriveToken kind frame rest).TellsFrom frame rest := by
  intro next after derives
  obtain ⟨lexeme, rfl, same, rfl⟩ := deriveToken_eq_some derives
  exact ⟨[lexeme], rfl, .token (same ▸ other)⟩

/-- A repetition tells what its steps have taken. The step that ends it leaves nothing. -/
theorem repeatStep_tells {step : Frame → List Lexeme → Attempt}
    (tells : ∀ frame rest, CarryByKind rest → (step frame rest).TellsFrom frame rest)
    (grows : ∀ frame rest, frame <+: (step frame rest).frame) (fuel : Nat) :
    ∀ frame rest, CarryByKind rest → (repeatStep step fuel frame rest).TellsFrom frame rest := by
  induction fuel with
  | zero => exact fun frame rest _ => .stay frame rest
  | succ fuel ih =>
      intro frame rest carry
      have restored := Frame.take_of_grown (grows frame rest)
      rw [repeatStep]
      rcases derives : step frame rest with ⟨_ | middle, between⟩
      · rw [derives] at restored
        dsimp only at restored ⊢
        rw [restored]
        exact .stay frame rest
      · obtain ⟨taken, rfl, here⟩ := tells frame rest carry derives
        rw [derives] at restored
        dsimp only at restored ⊢
        split
        · exact (ih between middle carry.behind).behind here
        · rw [restored]
          exact .stay frame _

section Items

variable {rules : RuleDeriver}

mutual

/-- **Items tell what they have taken**, if rules do. -/
theorem deriveItem_tells (telling : rules.Telling) (growing : rules.Growing) : (item : Item) →
    item.keeps = true → .quote ∉ item.tokens → ∀ frame rest, CarryByKind rest →
      (deriveItem rules item frame rest).TellsFrom frame rest
  | .token kind => by
      intro _ quoteless frame rest _
      exact deriveToken_tells (fun same => quoteless (List.mem_singleton.mpr same.symm)) frame rest
  | .rule name => fun _ _ frame rest carry => telling name frame rest carry
  | .choice alternatives => fun keeps quoteless frame rest carry =>
      deriveChoice_tells telling growing alternatives keeps quoteless frame rest carry
  | .many body => by
      intro keeps quoteless frame rest carry
      obtain ⟨bodyKeeps, adds⟩ := Bool.and_eq_true_iff.mp keeps
      exact repeatStep_tells (deriveItems_tells telling growing body bodyKeeps quoteless)
        (fun frame rest => deriveItems_grows growing body bodyKeeps frame rest (.inr adds)) _
        frame rest carry

/-- **Sequences tell what they have taken**, if rules do. -/
theorem deriveItems_tells (telling : rules.Telling) (growing : rules.Growing) :
    (items : List Item) →
    Item.sequenceKeeps items = true → .quote ∉ Item.sequenceTokens items →
    ∀ frame rest, CarryByKind rest →
      (deriveItems rules items frame rest).TellsFrom frame rest
  | [] => fun _ _ frame rest _ => .stay frame rest
  | item :: items => by
      intro keeps quoteless frame rest carry next after derives
      obtain ⟨itemKeeps, -, laterKeeps⟩ := Item.sequenceKeeps_cons.mp keeps
      obtain ⟨here, later⟩ := not_or.mp (mt List.mem_append.mpr quoteless)
      obtain ⟨middle, between, first, second⟩ := deriveItems_cons_eq_some derives
      obtain ⟨taken, rfl, told⟩ :=
        deriveItem_tells telling growing item itemKeeps here frame rest carry first
      have tells :=
        deriveItems_tells telling growing items laterKeeps later between middle carry.behind
      exact tells.behind told second

/-- **A choice tells what the alternative has taken that derives.** -/
theorem deriveChoice_tells (telling : rules.Telling) (growing : rules.Growing) :
    (alternatives : List (List Item)) → Item.allKeep alternatives = true →
    .quote ∉ Item.allTokens alternatives → ∀ frame rest, CarryByKind rest →
      (deriveChoice rules alternatives frame.length frame rest).TellsFrom frame rest
  | [] => fun _ _ _ _ _ => nofun
  | items :: others => by
      intro keeps quoteless frame rest carry next after derives
      obtain ⟨itemsKeep, othersKeep⟩ := Bool.and_eq_true_iff.mp keeps
      obtain ⟨here, later⟩ := not_or.mp (mt List.mem_append.mpr quoteless)
      rcases deriveChoice_cons_eq_some derives with first | ⟨failed, fails, second⟩
      · exact deriveItems_tells telling growing items itemsKeep here frame rest carry first
      · -- what the alternative has left behind the frame is cut off
        have grows := deriveItems_grows growing items itemsKeep frame rest
        rw [fails] at grows
        rw [Frame.take_of_grown (grows (.inl rfl))] at second
        exact deriveChoice_tells telling growing others othersKeep later frame rest carry second

end

end Items

/-! ### Texts and injections -/

section Literals

variable {rules : RuleDeriver} {frame nodes : Frame} {rest next : List Lexeme}

/-- A repetition of text takes runs of text. -/
theorem repeatStep_text (fuel : Nat) : ∀ {frame : Frame} {rest : List Lexeme}, CarryByKind rest →
    repeatStep (deriveItems rules [.token .text]) fuel frame rest = ⟨some next, nodes⟩ →
      ∃ runs, rest = runs ++ next ∧ (∀ run ∈ runs, run.kind = .text) ∧
        nodes = frame ++ runs.map Param.token := by
  induction fuel with
  | zero =>
      rintro frame rest _ ⟨⟩
      exact ⟨[], rfl, nofun, (List.append_nil _).symm⟩
  | succ fuel ih =>
      intro frame rest carry derives
      have restored := Frame.take_of_grown (deriveToken_grows .text frame rest)
      rw [repeatStep, deriveItems_singleton, deriveItem] at derives
      rcases step : deriveToken .text frame rest with ⟨_ | middle, between⟩
      · rw [step] at restored derives
        dsimp only at restored derives
        rw [restored] at derives
        cases derives
        exact ⟨[], rfl, nofun, (List.append_nil _).symm⟩
      · rw [step] at derives
        obtain ⟨run, rfl, isText, rfl⟩ := deriveToken_eq_some step
        simp only [List.length_cons, Nat.lt_succ_self, if_true, carry.pushed_eq, isText,
          TokenKind.carriesValue] at derives
        obtain ⟨runs, rfl, texts, rfl⟩ := ih carry.tail derives
        exact ⟨run :: runs, rfl, List.forall_mem_cons.mpr ⟨isText, texts⟩, by simp⟩

/-- **A text is made of the runs between two quotes.** -/
theorem deriveItems_rendersText (carry : CarryByKind rest)
    (derives : deriveItems rules (RuleName.definition .string).items [] rest = ⟨some next, nodes⟩)
    {text : String} (joins : joinValues? nodes = some text) :
    ∃ taken, rest = taken ++ next ∧ RendersText text taken := by
  obtain ⟨_, _, first, second⟩ := deriveItems_cons_eq_some derives
  obtain ⟨opening, rfl, opens, rfl⟩ := deriveToken_eq_some first
  obtain ⟨_, _, middle, last⟩ := deriveItems_cons_eq_some second
  obtain ⟨runs, rfl, texts, rfl⟩ := repeatStep_text _ carry.tail middle
  rw [deriveItems_singleton] at last
  obtain ⟨closing, rfl, closes, rfl⟩ := deriveToken_eq_some last
  rw [carry.tail.behind.pushed_eq, closes, carry.pushed_eq, opens] at joins
  have same : joinValues? (runs.map Param.token) = some text := joins
  rw [joinValues?_tokens] at same
  cases same
  exact ⟨opening :: (runs ++ [closing]), by simp, .mk opens texts closes⟩

/-- **An index is made of a number** behind a dollar or in braces. -/
theorem deriveItems_rendersInjection (carry : CarryByKind rest)
    (derives : deriveItems rules (RuleName.definition .injection).items [] rest =
      ⟨some next, nodes⟩)
    {text : String} (joins : joinValues? nodes = some text) {index : Nat}
    (natural : Numeral.natural? text = some index) :
    ∃ taken, rest = taken ++ next ∧ RendersInjection index taken := by
  obtain ⟨_, _, choice, ⟨⟩⟩ := deriveItems_cons_eq_some derives
  rcases deriveChoice_cons_eq_some choice with byDollar | ⟨failed, -, byBraces⟩
  · obtain ⟨_, _, first, second⟩ := deriveItems_cons_eq_some byDollar
    obtain ⟨dollar, rfl, opens, rfl⟩ := deriveToken_eq_some first
    rw [deriveItems_singleton] at second
    obtain ⟨number, rfl, isNumber, rfl⟩ := deriveToken_eq_some second
    rw [carry.tail.pushed_eq, isNumber, carry.pushed_eq, opens] at joins
    cases (joinValues?_singleton number).symm.trans joins
    exact ⟨[dollar, number], rfl, .dollar opens isNumber natural⟩
  · rw [show failed.take ([] : Frame).length = [] from List.take_zero] at byBraces
    rcases deriveChoice_cons_eq_some byBraces with braced | ⟨_, -, ⟨⟩⟩
    obtain ⟨_, _, first, second⟩ := deriveItems_cons_eq_some braced
    obtain ⟨left, rfl, opens, rfl⟩ := deriveToken_eq_some first
    obtain ⟨_, _, second, third⟩ := deriveItems_cons_eq_some second
    obtain ⟨number, rfl, isNumber, rfl⟩ := deriveToken_eq_some second
    rw [deriveItems_singleton] at third
    obtain ⟨right, rfl, closes, rfl⟩ := deriveToken_eq_some third
    rw [carry.tail.tail.pushed_eq, closes, carry.tail.pushed_eq, isNumber, carry.pushed_eq,
      opens] at joins
    cases (joinValues?_singleton number).symm.trans joins
    exact ⟨[left, number, right], rfl, .braces opens isNumber natural closes⟩

/-- An index is read as its number. -/
theorem RendersInjection.exists_number {index : Nat} {taken : List Lexeme}
    (renders : RendersInjection index taken) (carry : CarryByKind taken) :
    ∃ number : Lexeme, number.kind = .number ∧ Numeral.natural? number.value = some index ∧
      ∀ rest, pieces none (taken ++ rest) = .lexeme number :: pieces none rest := by
  have carries : ∀ lexeme ∈ taken, lexeme.carriesValue = lexeme.kind.carriesValue := carry
  cases renders with
  | @dollar dollar number _ opens isNumber reads =>
      refine ⟨number, isNumber, reads, fun rest => ?_⟩
      simp [pieces, carries, opens, isNumber, TokenKind.carriesValue]
  | @braces left number right _ opens isNumber reads closes =>
      refine ⟨number, isNumber, reads, fun rest => ?_⟩
      simp [pieces, carries, opens, isNumber, closes, TokenKind.carriesValue]

end Literals

/-! ### Heads -/

/-- The rules of parameters put what they collect on a keyword. -/
theorem deriveWithin_params {depth : Nat} {name : RuleName}
    (constructs : name.definition.construct = some .params) {frame after : Frame}
    {rest next : List Lexeme} (derives : deriveWithin depth name frame rest = ⟨some next, after⟩) :
    ∃ params, applyParams? params frame = some after := by
  cases depth with
  | zero => cases derives
  | succ depth =>
      obtain ⟨params, -, applies⟩ := deriveWithin_eq_some constructs derives
      exact ⟨params, applies⟩

/-- An alternative for a head leaves one node, which has no error tag. -/
theorem deriveItems_headed {depth : Nat} {alternative : List Item} {rest next : List Lexeme}
    {nodes : Frame} (headed : Item.isHeaded alternative = true) (carry : CarryByKind rest)
    (derives : deriveItems (deriveWithin depth) alternative [] rest = ⟨some next, nodes⟩) :
    ∃ node, nodes = [node] ∧ Untagged node := by
  revert headed
  fun_cases Item.isHeaded alternative with
  | case1 kind =>
      intro headed
      rw [deriveItems_singleton] at derives
      obtain ⟨lexeme, rfl, same, rfl⟩ := deriveToken_eq_some derives
      rw [carry.pushed_eq, same, TokenKind.carriesValue_of_isKeyword headed]
      exact ⟨.token lexeme, rfl, .token lexeme⟩
  | case2 kind name =>
      intro headed
      obtain ⟨keyword, constructs⟩ := Bool.and_eq_true_iff.mp headed
      obtain ⟨_, _, first, second⟩ := deriveItems_cons_eq_some derives
      obtain ⟨lexeme, rfl, same, rfl⟩ := deriveToken_eq_some first
      rw [carry.pushed_eq, same, TokenKind.carriesValue_of_isKeyword keyword,
        deriveItems_singleton] at second
      obtain ⟨params, applies⟩ := deriveWithin_params (of_decide_eq_true constructs) second
      obtain ⟨before, last, around, -, rfl⟩ := applyParams?_eq_some applies
      obtain rfl : before = [] := by
        simpa using congrArg List.length around
      exact ⟨_, rfl, .validator last.value params⟩
  | case3 =>
      intro headed
      cases headed

/-- A choice of heads leaves one node, which has no error tag. -/
theorem deriveChoice_headed {depth : Nat} {alternatives : List (List Item)}
    {rest next : List Lexeme} {nodes : Frame} (heads : alternatives.all Item.isHeaded = true)
    (carry : CarryByKind rest)
    (derives : deriveChoice (deriveWithin depth) alternatives 0 [] rest = ⟨some next, nodes⟩) :
    ∃ node, nodes = [node] ∧ Untagged node := by
  induction alternatives with
  | nil => cases derives
  | cons alternative others ih =>
      obtain ⟨here, later⟩ := Bool.and_eq_true_iff.mp heads
      rcases deriveChoice_cons_eq_some derives with first | ⟨failed, -, second⟩
      · exact deriveItems_headed here carry first
      · rw [List.take_zero] at second
        exact ih later second

/-- The rule of heads leaves one node, which has no error tag. -/
theorem deriveWithin_validator {depth : Nat} {rest next : List Lexeme} {nodes : Frame}
    (carry : CarryByKind rest)
    (derives : deriveWithin depth .validator [] rest = ⟨some next, nodes⟩) :
    ∃ node, nodes = [node] ∧ Untagged node := by
  cases depth with
  | zero => cases derives
  | succ depth =>
      obtain ⟨_, _, choice, ⟨⟩⟩ := deriveItems_cons_eq_some derives
      exact deriveChoice_headed rfl carry choice

/-! ### Entries -/

/-- **An entry has a head without a tag in front**, and tells what it has taken. -/
theorem deriveItems_entry {depth : Nat} (telling : (deriveWithin depth).Telling)
    {rest next : List Lexeme} {nodes : Frame} (carry : CarryByKind rest)
    (derives : deriveItems (deriveWithin depth) (RuleName.definition .entry).items [] rest =
      ⟨some next, nodes⟩) :
    ∃ taken, rest = taken ++ next ∧ Tells [] taken nodes ∧ ∀ node ∈ nodes.head?, Untagged node := by
  obtain ⟨middle, between, first, second⟩ := deriveItems_cons_eq_some derives
  obtain ⟨taken, rfl, here⟩ := telling .validator [] rest carry first
  obtain ⟨head, rfl, untagged⟩ := deriveWithin_validator carry first
  -- the tag only adds nodes behind the head
  have growing := deriveWithin_growing depth
  have grows := deriveItems_grows growing [.optional [.rule .errorTag]] rfl [head] middle (.inr rfl)
  have tells :=
    deriveItems_tells telling growing [.optional [.rule .errorTag]] rfl (by decide) [head] middle
    carry.behind
  obtain ⟨more, rfl, later⟩ := tells second
  rw [second] at grows
  obtain ⟨tag, rfl⟩ := grows
  refine ⟨taken ++ more, (List.append_assoc _ _ _).symm, here.trans later, ?_⟩
  rintro _ ⟨⟩
  exact untagged

/-- **A suffix is a head without a tag.** -/
theorem deriveItems_suffix_untagged {depth : Nat} {rest next : List Lexeme} {nodes : Frame}
    (carry : CarryByKind rest)
    (derives : deriveItems (deriveWithin depth) (RuleName.definition .suffix).items [] rest =
      ⟨some next, nodes⟩) :
    ∀ node ∈ nodes.head?, Untagged node := by
  obtain ⟨_, _, choice, ⟨⟩⟩ := deriveItems_cons_eq_some derives
  obtain ⟨head, rfl, untagged⟩ := deriveChoice_headed rfl carry choice
  rintro _ ⟨⟩
  exact untagged

/-! ### Rules -/

/-- **A rule with a construct tells what it has taken**, since its reduction reads the same. -/
theorem Construct.reduce?_tells {depth : Nat} (telling : (deriveWithin depth).Telling)
    {name : RuleName} {construct : Construct}
    (constructs : name.definition.construct = some construct) {rest next : List Lexeme}
    (carry : CarryByKind rest) {nodes frame after : Frame}
    (derives : deriveItems (deriveWithin depth) name.definition.items [] rest = ⟨some next, nodes⟩)
    (reduces : construct.reduce? nodes frame = some after) :
    ∃ taken, rest = taken ++ next ∧ Tells frame taken after := by
  have inside (notEntry : name ≠ .entry) (notString : name ≠ .string) :
      ∃ taken, rest = taken ++ next ∧ Tells [] taken nodes := by
    have tells :=
      deriveItems_tells telling (deriveWithin_growing depth) _ (RuleName.definition_keeps notEntry)
      (RuleName.definition_quoteless notString) [] rest carry
    exact tells derives
  cases construct with
  | text =>
      obtain rfl : name = .string := RuleName.of_construct constructs
      obtain ⟨text, joins, rfl⟩ := Option.map_eq_some_iff.mp reduces
      obtain ⟨taken, rfl, renders⟩ := deriveItems_rendersText carry derives joins
      exact ⟨taken, rfl, .leaf rfl (Lexeme.pieces_rendersText renders) (.text text)⟩
  | injection =>
      obtain rfl : name = .injection := RuleName.of_construct constructs
      obtain ⟨text, joins, stands⟩ := Option.bind_eq_some_iff.mp reduces
      obtain ⟨index, natural, same⟩ := Option.bind_eq_some_iff.mp stands
      cases same
      obtain ⟨taken, rfl, renders⟩ := deriveItems_rendersInjection carry derives joins natural
      obtain ⟨number, isNumber, reads, alone⟩ := renders.exists_number carry.front
      exact ⟨taken, rfl, .leaf rfl alone (.index isNumber reads)⟩
  | comparator =>
      obtain rfl : name = .comparator := RuleName.of_construct constructs
      obtain ⟨comparison, reads, rfl⟩ := Option.map_eq_some_iff.mp reduces
      obtain ⟨taken, rfl, told⟩ := inside nofun nofun
      exact ⟨taken, rfl, told.node (comparison?_becomes reads)⟩
  | params =>
      obtain ⟨notEntry, notString⟩ : name ≠ .entry ∧ name ≠ .string :=
        RuleName.of_construct constructs
      obtain ⟨taken, rfl, told⟩ := inside notEntry notString
      exact ⟨taken, rfl, told.reduced (applyParams?_becomes reduces)⟩
  | entry =>
      obtain ⟨invocation, reads, rfl⟩ := Option.map_eq_some_iff.mp reduces
      obtain rfl | rfl : name = .entry ∨ name = .suffix := RuleName.of_construct constructs
      · obtain ⟨taken, rfl, told, untagged⟩ := deriveItems_entry telling carry derives
        exact ⟨taken, rfl, told.node (invocation?_becomes untagged reads)⟩
      · obtain ⟨taken, rfl, told⟩ := inside nofun nofun
        exact ⟨taken, rfl,
          told.node (invocation?_becomes (deriveItems_suffix_untagged carry derives) reads)⟩

/-- **Rules tell what they have taken**, whatever the lexemes are. -/
theorem deriveWithin_telling (depth : Nat) : (deriveWithin depth).Telling := by
  induction depth with
  | zero => exact fun _ _ _ _ _ _ => nofun
  | succ depth ih =>
      intro name frame rest carry
      cases constructs : name.definition.construct with
      | none =>
          have other : name ≠ .entry ∧ name ≠ .string := by
            constructor <;> (rintro rfl; cases constructs)
          rw [deriveWithin, constructs]
          exact deriveItems_tells ih (deriveWithin_growing depth) _
            (RuleName.definition_keeps other.1)
            (RuleName.definition_quoteless other.2) frame rest carry
      | some construct =>
          intro next after derives
          obtain ⟨nodes, inside, reduces⟩ := deriveWithin_eq_some constructs derives
          exact Construct.reduce?_tells ih constructs carry inside reduces

/-- **A forest says what its lexemes say**, each once and in their order. -/
theorem allStandFor_of_interpret {lexemes : List Lexeme} {forest : List Param}
    (carry : ∀ lexeme ∈ lexemes, lexeme.carriesValue = lexeme.kind.carriesValue)
    (interprets : interpret lexemes = .ok forest) :
    AllStandFor (Param.leavesOfAll forest) (pieces none lexemes) := by
  unfold interpret at interprets
  split at interprets
  · rename_i derives
    cases interprets
    have tells := deriveWithin_telling (rankCount * (lexemes.length + 1)) .program [] lexemes carry
    obtain ⟨taken, same, read, reads, stand⟩ := tells derives
    have whole : AllStandFor (Param.leavesOfAll forest) ([] ++ read) := stand [] .nil
    rw [same, reads, Lexeme.pieces, List.append_nil]
    exact whole
  · cases interprets

/-- A text in two runs that names a field, a comparison with an injection and an error tag, a list
without parameters and a suffix. The first attempts at the last two fail behind their keywords. -/
theorem allStandFor_of_object :
    let lexemes := [ofKind .object "object" 0, ofKind .leftParen "(" 2, ofKind .quote "'" 3,
      ofKind .text "a" 4, ofKind .text "'" 5, ofKind .quote "'" 7, ofKind .compare "compare" 9,
      ofKind .leftParen "(" 11, ofKind .operator ">=" 12, ofKind .dollar "$" 14,
      ofKind .number "2" 15,
      ofKind .rightParen ")" 16, ofKind .bang "!" 17, ofKind .number "1" 18,
      ofKind .rightParen ")" 19, ofKind .array "array" 21, ofKind .errorSuffix "~error" 24]
    let compare := Param.validator
      (.mk "compare" [.comparison ⟨.atLeast, .injection 2⟩] (some (.positional 1)))
    let forest := [Param.validator (.mk "object" [.text "a'", compare] none),
      .validator (.mk "array" [] none), .validator (.mk "~error" [] none)]
    (∀ lexeme ∈ lexemes, lexeme.carriesValue = lexeme.kind.carriesValue) ∧
      interpret lexemes = .ok forest ∧
      AllStandFor (Param.leavesOfAll forest) (pieces none lexemes) := by
  intro lexemes compare forest
  have carry : ∀ lexeme ∈ lexemes, lexeme.carriesValue = lexeme.kind.carriesValue := by decide
  have interprets : interpret lexemes = .ok forest := rfl
  exact ⟨carry, interprets, allStandFor_of_interpret carry interprets⟩

end Schemata.Grammar
