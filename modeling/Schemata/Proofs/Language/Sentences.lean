/-
**The grammar as a context-free grammar, and the derivations that are its sentences.**

Read without order and greed, a choice derives what any of its alternatives does, and a repetition
any number of copies of its body.

* `Derives` is this reading of the table; the numbers that are used as indices have to be natural
  numbers (`RuleName.Admits`);
* `Builds` says beside it what becomes of a frame;
* `deriveWithin_sound`: what a rule derives is a sentence of it.
-/

import Schemata.Proofs.Language.Extension

namespace Schemata

/-- **A lexeme as tokenizing yields it**: it carries a value as its kind says, and operators and
numbers can be read. -/
structure Lexeme.Proper (lexeme : Lexeme) : Prop where
  carries : lexeme.carriesValue = lexeme.kind.carriesValue
  operator : lexeme.kind = .operator → (Relation.ofSymbol? lexeme.value).isSome
  number : lexeme.kind = .number → (Numeral.real? lexeme.value).isSome

namespace Grammar

/-! ### Sentences -/

/-- Numbers that are used as indices are natural numbers. -/
def RuleName.Admits (name : RuleName) (taken : List Lexeme) : Prop :=
  name = .injection ∨ name = .errorTag →
    ∀ lexeme ∈ taken, lexeme.kind = .number → (Numeral.natural? lexeme.value).isSome

/-- **What items derive by the table as a context-free grammar.** -/
inductive Derives : List Item → List Lexeme → Prop
  | nil : Derives [] []
  | token {kind : TokenKind} {lexeme : Lexeme} {items : List Item} {rest : List Lexeme}
      (same : lexeme.kind = kind) (later : Derives items rest) :
      Derives (.token kind :: items) (lexeme :: rest)
  | rule {name : RuleName} {items : List Item} {taken rest : List Lexeme}
      (inside : Derives name.definition.items taken) (admits : name.Admits taken)
      (later : Derives items rest) : Derives (.rule name :: items) (taken ++ rest)
  | choice {alternatives : List (List Item)} {alternative items : List Item}
      {taken rest : List Lexeme} (member : alternative ∈ alternatives)
      (inside : Derives alternative taken) (later : Derives items rest) :
      Derives (.choice alternatives :: items) (taken ++ rest)
  | stop {body items : List Item} {rest : List Lexeme} (later : Derives items rest) :
      Derives (.many body :: items) rest
  | again {body items : List Item} {taken rest : List Lexeme} (inside : Derives body taken)
      (later : Derives (.many body :: items) rest) :
      Derives (.many body :: items) (taken ++ rest)

namespace Derives

theorem append {first second : List Item} {taken rest : List Lexeme} (derives : Derives first taken)
    (later : Derives second rest) : Derives (first ++ second) (taken ++ rest) := by
  induction derives with
  | nil => exact later
  | token same _ ih => exact .token same ih
  | rule inside admits _ _ ih =>
      rw [List.append_assoc]
      exact .rule inside admits ih
  | choice member inside _ _ ih =>
      rw [List.append_assoc]
      exact .choice member inside ih
  | stop _ ih => exact .stop ih
  | again inside _ _ ih =>
      rw [List.append_assoc]
      exact .again inside ih

/-- One rule by itself. -/
theorem of_rule {name : RuleName} {taken : List Lexeme}
    (inside : Derives name.definition.items taken) (admits : name.Admits taken) :
    Derives [.rule name] taken := by
  have alone := Derives.rule inside admits .nil
  rwa [List.append_nil] at alone

theorem of_choice {alternatives : List (List Item)} {alternative : List Item} {taken : List Lexeme}
    (member : alternative ∈ alternatives) (inside : Derives alternative taken) :
    Derives [.choice alternatives] taken := by
  have alone := Derives.choice member inside .nil
  rwa [List.append_nil] at alone

end Derives

/-! ### Building -/

/-- The frame behind a lexeme, which joins it if it carries a value. -/
def pushed (lexeme : Lexeme) (frame : Frame) : Frame :=
  if lexeme.carriesValue then frame ++ [Param.token lexeme] else frame

/-- **Items derive lexemes, and turn one frame into another.** -/
inductive Builds : List Item → Frame → List Lexeme → Frame → Prop
  | nil (frame : Frame) : Builds [] frame [] frame
  | token {kind : TokenKind} {lexeme : Lexeme} {items : List Item} {frame result : Frame}
      {rest : List Lexeme} (same : lexeme.kind = kind)
      (later : Builds items (pushed lexeme frame) rest result) :
      Builds (.token kind :: items) frame (lexeme :: rest) result
  | rule {name : RuleName} {items : List Item} {frame middle result : Frame}
      {taken rest : List Lexeme} (plain : name.definition.construct = none)
      (inside : Builds name.definition.items frame taken middle) (admits : name.Admits taken)
      (later : Builds items middle rest result) :
      Builds (.rule name :: items) frame (taken ++ rest) result
  | construct {name : RuleName} {construct : Construct} {items : List Item}
      {frame nodes middle result : Frame} {taken rest : List Lexeme}
      (constructs : name.definition.construct = some construct)
      (inside : Builds name.definition.items [] taken nodes) (admits : name.Admits taken)
      (reduces : construct.reduce? nodes frame = some middle)
      (later : Builds items middle rest result) :
      Builds (.rule name :: items) frame (taken ++ rest) result
  | choice {alternatives : List (List Item)} {alternative items : List Item}
      {frame middle result : Frame} {taken rest : List Lexeme} (member : alternative ∈ alternatives)
      (inside : Builds alternative frame taken middle) (later : Builds items middle rest result) :
      Builds (.choice alternatives :: items) frame (taken ++ rest) result
  | stop {body items : List Item} {frame result : Frame} {rest : List Lexeme}
      (later : Builds items frame rest result) : Builds (.many body :: items) frame rest result
  | again {body items : List Item} {frame middle result : Frame} {taken rest : List Lexeme}
      (inside : Builds body frame taken middle)
      (later : Builds (.many body :: items) middle rest result) :
      Builds (.many body :: items) frame (taken ++ rest) result

/-- One sequence of items behind another. -/
theorem Builds.append {first second : List Item} {frame middle result : Frame}
    {taken rest : List Lexeme} (builds : Builds first frame taken middle)
    (later : Builds second middle rest result) :
    Builds (first ++ second) frame (taken ++ rest) result := by
  induction builds with
  | nil => exact later
  | token same _ ih => exact .token same (ih later)
  | rule plain inside admits _ _ ih =>
      rw [List.append_assoc]
      exact .rule plain inside admits (ih later)
  | construct constructs inside admits reduces _ _ ih =>
      rw [List.append_assoc]
      exact .construct constructs inside admits reduces (ih later)
  | choice member inside _ _ ih =>
      rw [List.append_assoc]
      exact .choice member inside (ih later)
  | stop _ ih => exact .stop (ih later)
  | again inside _ _ ih =>
      rw [List.append_assoc]
      exact .again inside (ih later)

/-! ### Rules by themselves -/

section Rules

variable {frame middle result : Frame} {taken : List Lexeme} {name : RuleName}

/-- One rule without a construct by itself. -/
theorem Builds.of_rule (plain : name.definition.construct = none)
    (inside : Builds name.definition.items frame taken result) (admits : name.Admits taken) :
    Builds [.rule name] frame taken result := by
  have alone := Builds.rule plain inside admits (.nil _)
  rwa [List.append_nil] at alone

/-- One rule with a construct by itself. -/
theorem Builds.of_construct {construct : Construct} {nodes : Frame}
    (constructs : name.definition.construct = some construct)
    (inside : Builds name.definition.items [] taken nodes) (admits : name.Admits taken)
    (reduces : construct.reduce? nodes frame = some result) :
    Builds [.rule name] frame taken result := by
  have alone := Builds.construct constructs inside admits reduces (.nil _)
  rwa [List.append_nil] at alone

/-- One alternative by itself. -/
theorem Builds.of_alternative {alternatives : List (List Item)} {alternative : List Item}
    (member : alternative ∈ alternatives) (inside : Builds alternative frame taken result) :
    Builds [.choice alternatives] frame taken result := by
  have alone := Builds.choice member inside (.nil _)
  rwa [List.append_nil] at alone

end Rules

/-! ### Attempts that derive -/

section Attempts

variable {rules : RuleDeriver} {frame after : Frame} {rest next : List Lexeme}

theorem deriveToken_eq_some {kind : TokenKind}
    (derives : deriveToken kind frame rest = ⟨some next, after⟩) :
    ∃ lexeme, rest = lexeme :: next ∧ lexeme.kind = kind ∧ after = pushed lexeme frame := by
  cases rest with
  | nil => cases derives
  | cons lexeme rest =>
      rw [deriveToken] at derives
      split at derives
      · rename_i same
        cases derives
        exact ⟨lexeme, rfl, same, rfl⟩
      · cases derives

/-- A sequence derives if its first item does, and then the others. -/
theorem deriveItems_cons_eq_some {item : Item} {items : List Item}
    (derives : deriveItems rules (item :: items) frame rest = ⟨some next, after⟩) :
    ∃ middle between, deriveItem rules item frame rest = ⟨some middle, between⟩ ∧
      deriveItems rules items between middle = ⟨some next, after⟩ := by
  rw [deriveItems] at derives
  split at derives
  · rename_i middle between first
    exact ⟨middle, between, first, derives⟩
  · rename_i fails
    exact absurd derives (fails next after)

/-- A choice derives by its first alternative, or if that fails by the others. -/
theorem deriveChoice_cons_eq_some {items : List Item} {others : List (List Item)} {kept : Nat}
    (derives : deriveChoice rules (items :: others) kept frame rest = ⟨some next, after⟩) :
    deriveItems rules items frame rest = ⟨some next, after⟩ ∨
      ∃ failed, deriveItems rules items frame rest = ⟨none, failed⟩ ∧
        deriveChoice rules others kept (failed.take kept) rest = ⟨some next, after⟩ := by
  rw [deriveChoice] at derives
  split at derives
  · rename_i failed fails
    exact .inr ⟨failed, fails, derives⟩
  · exact .inl derives

theorem pushed_of_carries {lexeme : Lexeme} (proper : lexeme.Proper)
    (carries : lexeme.kind.carriesValue = true) :
    pushed lexeme frame = frame ++ [Param.token lexeme] := by
  rw [pushed, proper.carries, if_pos carries]

theorem pushed_of_silent {lexeme : Lexeme} (proper : lexeme.Proper)
    (silent : lexeme.kind.carriesValue = false) : pushed lexeme frame = frame := by
  rw [pushed, proper.carries, silent]
  rfl

end Attempts

/-! ### Derivations are sentences -/

mutual

/-- An item uses none of some rules. -/
def Item.avoids (names : List RuleName) : Item → Bool
  | .token _ => true
  | .rule name => name ∉ names
  | .choice alternatives => Item.allAvoid names alternatives
  | .many body => Item.sequenceAvoids names body

/-- No item of a sequence uses any of some rules. -/
def Item.sequenceAvoids (names : List RuleName) : List Item → Bool
  | [] => true
  | item :: items => item.avoids names && Item.sequenceAvoids names items

/-- No item of some sequences uses any of some rules. -/
def Item.allAvoid (names : List RuleName) : List (List Item) → Bool
  | [] => true
  | items :: others => Item.sequenceAvoids names items && Item.allAvoid names others

end

/-- Only entries have error tags. -/
theorem RuleName.definition_avoids {name : RuleName} (other : name ≠ .entry) :
    Item.sequenceAvoids [.errorTag] name.definition.items = true := by
  cases name <;> first | rfl | exact absurd rfl other

/-- What a rule other than that of error tags derives is a sentence of it. Whether the number of an
error tag can be read is only found where the entry around it is reduced. -/
def RuleDeriver.Sound (rules : RuleDeriver) : Prop :=
  ∀ name frame rest next after, name ≠ .errorTag → (∀ lexeme ∈ rest, lexeme.Proper) →
    rules name frame rest = ⟨some next, after⟩ →
      ∃ taken, rest = taken ++ next ∧ Derives [.rule name] taken

section Sound

variable {rules : RuleDeriver}

theorem repeatStep_sound {body : List Item} {step : Frame → List Lexeme → Attempt}
    (sound : ∀ frame rest next after, (∀ lexeme ∈ rest, lexeme.Proper) →
      step frame rest = ⟨some next, after⟩ → ∃ taken, rest = taken ++ next ∧ Derives body taken)
    (fuel : Nat) : ∀ frame rest next after, (∀ lexeme ∈ rest, lexeme.Proper) →
      repeatStep step fuel frame rest = ⟨some next, after⟩ →
        ∃ taken, rest = taken ++ next ∧ Derives [.many body] taken := by
  induction fuel with
  | zero =>
      intro frame rest next after _ derives
      cases derives
      exact ⟨[], rfl, .stop .nil⟩
  | succ fuel ih =>
      intro frame rest next after proper derives
      rw [repeatStep] at derives
      split at derives
      · rename_i middle between first
        split at derives
        · obtain ⟨taken, rfl, inside⟩ := sound _ _ _ _ proper first
          obtain ⟨more, rfl, later⟩ := ih _ _ _ _
            (fun lexeme member => proper lexeme (List.mem_append_right _ member)) derives
          exact ⟨taken ++ more, (List.append_assoc _ _ _).symm, .again inside later⟩
        · cases derives
          exact ⟨[], rfl, .stop .nil⟩
      · cases derives
        exact ⟨[], rfl, .stop .nil⟩

mutual

theorem deriveItem_sound (sound : rules.Sound) : (item : Item) → item.avoids [.errorTag] = true →
    ∀ frame rest next after, (∀ lexeme ∈ rest, lexeme.Proper) →
      deriveItem rules item frame rest = ⟨some next, after⟩ →
        ∃ taken, rest = taken ++ next ∧ Derives [item] taken
  | .token kind => by
      intro _ frame rest next after _ derives
      obtain ⟨lexeme, rfl, same, -⟩ := deriveToken_eq_some derives
      exact ⟨[lexeme], rfl, .token same .nil⟩
  | .rule name => fun avoids frame rest next after proper derives =>
      sound name frame rest next after (List.ne_of_not_mem_cons (of_decide_eq_true avoids)) proper
        derives
  | .choice alternatives => fun avoids frame rest next after proper derives =>
      deriveChoice_sound sound alternatives avoids frame.length frame rest next after proper derives
  | .many body => fun avoids frame rest next after proper derives =>
      repeatStep_sound (deriveItems_sound sound body avoids) _ frame rest next after proper derives

theorem deriveItems_sound (sound : rules.Sound) : (items : List Item) →
    Item.sequenceAvoids [.errorTag] items = true →
    ∀ frame rest next after, (∀ lexeme ∈ rest, lexeme.Proper) →
      deriveItems rules items frame rest = ⟨some next, after⟩ →
        ∃ taken, rest = taken ++ next ∧ Derives items taken
  | [] => by
      intro _ frame rest next after _ derives
      cases derives
      exact ⟨[], rfl, .nil⟩
  | item :: items => by
      intro avoids frame rest next after proper derives
      obtain ⟨here, later⟩ := Bool.and_eq_true_iff.mp avoids
      obtain ⟨middle, between, first, second⟩ := deriveItems_cons_eq_some derives
      obtain ⟨taken, rfl, inside⟩ := deriveItem_sound sound item here _ _ _ _ proper first
      obtain ⟨more, rfl, behind⟩ := deriveItems_sound sound items later _ _ _ _
        (fun lexeme member => proper lexeme (List.mem_append_right _ member)) second
      exact ⟨taken ++ more, (List.append_assoc _ _ _).symm, inside.append behind⟩

theorem deriveChoice_sound (sound : rules.Sound) : (alternatives : List (List Item)) →
    Item.allAvoid [.errorTag] alternatives = true →
    ∀ kept frame rest next after, (∀ lexeme ∈ rest, lexeme.Proper) →
      deriveChoice rules alternatives kept frame rest = ⟨some next, after⟩ →
        ∃ taken, rest = taken ++ next ∧ Derives [.choice alternatives] taken
  | [] => by
      intro _ kept frame rest next after _ derives
      cases derives
  | items :: others => by
      intro avoids kept frame rest next after proper derives
      obtain ⟨here, later⟩ := Bool.and_eq_true_iff.mp avoids
      rcases deriveChoice_cons_eq_some derives with derives | ⟨failed, -, derives⟩
      · obtain ⟨taken, rfl, inside⟩ := deriveItems_sound sound items here _ _ _ _ proper derives
        exact ⟨taken, rfl, .of_choice List.mem_cons_self inside⟩
      · obtain ⟨taken, rfl, inside⟩ :=
          deriveChoice_sound sound others later _ _ _ _ _ proper derives
        refine ⟨taken, rfl, ?_⟩
        cases inside with
        | choice member inside behind => exact .choice (List.mem_cons_of_mem _ member) inside behind

end

end Sound

/-! ### Numbers that are indices -/

/-- The value of a single number is its own. -/
theorem joinValues?_singleton (lexeme : Lexeme) :
    joinValues? [.token lexeme] = some lexeme.value := by
  show some (String.join [lexeme.value]) = _
  rw [String.join_cons, String.join_nil, String.append_empty]

/-- The lexemes of an injection, by their kinds: a dollar and a number, or a number in braces. -/
theorem Derives.injection {taken : List Lexeme}
    (derives : Derives (RuleName.definition .injection).items taken) :
    (∃ dollar number : Lexeme, taken = [dollar, number] ∧ dollar.kind = .dollar ∧
      number.kind = .number) ∨
    ∃ left number right : Lexeme, taken = [left, number, right] ∧ left.kind = .leftBrace ∧
      number.kind = .number ∧ right.kind = .rightBrace := by
  obtain _ | _ | _ | ⟨member, inside, _ | _⟩ := derives
  rw [List.append_nil]
  simp only [List.mem_cons, List.not_mem_nil, or_false] at member
  rcases member with rfl | rfl
  · obtain _ | ⟨first, _ | ⟨second, _ | _⟩⟩ := inside
    exact .inl ⟨_, _, rfl, first, second⟩
  · obtain _ | ⟨first, _ | ⟨second, _ | ⟨third, _ | _⟩⟩⟩ := inside
    exact .inr ⟨_, _, _, rfl, first, second, third⟩

/-- The frame of an injection holds its number. -/
theorem deriveItems_injection {rules : RuleDeriver} {taken next : List Lexeme} {nodes : Frame}
    (proper : ∀ lexeme ∈ taken, lexeme.Proper)
    (sentence : Derives (RuleName.definition .injection).items taken)
    (derives : deriveItems rules (RuleName.definition .injection).items [] (taken ++ next) =
      ⟨some next, nodes⟩) :
    ∃ number, nodes = [.token number] ∧ ∀ lexeme ∈ taken, lexeme.kind = .number →
      lexeme = number := by
  have carries : ∀ lexeme ∈ taken, lexeme.carriesValue = lexeme.kind.carriesValue :=
    fun lexeme member => (proper lexeme member).carries
  rcases sentence.injection with ⟨dollar, number, rfl, first, second⟩ |
    ⟨left, number, right, rfl, first, second, third⟩
  · simp only [List.forall_mem_cons, first, second] at carries
    refine ⟨number, ?_, by simp [first]⟩
    simpa [RuleName.definition, deriveItems, deriveItem, deriveChoice, deriveToken, first, second,
      carries, TokenKind.carriesValue] using derives.symm
  · simp only [List.forall_mem_cons, first, second, third] at carries
    refine ⟨number, ?_, by simp [first, third]⟩
    simpa [RuleName.definition, deriveItems, deriveItem, deriveChoice, deriveToken, first, second,
      third, carries, TokenKind.carriesValue] using derives.symm

/-- An injection that can be reduced has a natural number. -/
theorem isSome_natural?_of_reduce {number : Lexeme} {frame reduced : Frame}
    (reduces : Construct.injection.reduce? [.token number] frame = some reduced) :
    (Numeral.natural? number.value).isSome := by
  rw [Construct.reduce?, joinValues?_singleton] at reduces
  obtain ⟨_, ⟨⟩, reads⟩ := Option.bind_eq_some_iff.mp reduces
  obtain ⟨index, reads, -⟩ := Option.bind_eq_some_iff.mp reads
  exact Option.isSome_of_eq_some reads

/-- An entry that can be reduced has an error tag that can be read. -/
theorem isSome_errorTag?_of_reduce {frame : Frame} {bang tag : Param} {invocation : Invocation}
    (reduces : invocation? (frame ++ [bang, tag]) = some invocation) : (errorTag? tag).isSome := by
  match frame with
  | [] | [_, _] => cases reduces
  | [node] =>
      obtain ⟨head, -, rest⟩ := Option.bind_eq_some_iff.mp reduces
      obtain ⟨_, -, rest⟩ := Option.bind_eq_some_iff.mp rest
      obtain ⟨tag, reads, -⟩ := Option.bind_eq_some_iff.mp rest
      exact Option.isSome_of_eq_some reads
  | _ :: _ :: _ :: rest => cases rest <;> cases reduces

/-- An item takes tokens of one kind only, which are not numbers. -/
def Item.IsLiteral (item : Item) : Prop :=
  ∃ kind, kind ≠ .number ∧ (item = .token kind ∨ item = .many [.token kind])

theorem RuleName.string_isLiteral :
    ∀ item ∈ (RuleName.definition .string).items, item.IsLiteral := by
  simp [RuleName.definition, Item.IsLiteral]

/-- Quoted text holds no numbers. -/
theorem Derives.kind_ne_number {items : List Item} {taken : List Lexeme}
    (derives : Derives items taken) :
    (∀ item ∈ items, item.IsLiteral) → ∀ lexeme ∈ taken, lexeme.kind ≠ .number := by
  induction derives with
  | nil => exact fun _ _ member => nomatch member
  | token same _ ih =>
      intro simple
      obtain ⟨⟨kind, other, here | here⟩, later⟩ := List.forall_mem_cons.mp simple
      · cases here
        exact List.forall_mem_cons.mpr ⟨same ▸ other, ih later⟩
      · cases here
  | rule | choice =>
      intro simple
      obtain ⟨_, _, here | here⟩ := simple _ List.mem_cons_self <;> cases here
  | stop _ ih => exact fun simple => ih (List.forall_mem_cons.mp simple).2
  | again _ _ ih ihLater =>
      intro simple lexeme member
      obtain ⟨kind, other, here | here⟩ := simple _ List.mem_cons_self
      · cases here
      · cases here
        rcases List.mem_append.mp member with first | later
        · exact ih (List.forall_mem_singleton.mpr ⟨kind, other, .inl rfl⟩) lexeme first
        · exact ihLater simple lexeme later

/-- The rule of error tags takes a bang, and then a number, which joins the frame, or a text. -/
theorem deriveWithin_errorTag {depth : Nat} {frame after : Frame} {rest next : List Lexeme}
    (sound : (deriveWithin depth).Sound) (proper : ∀ lexeme ∈ rest, lexeme.Proper)
    (derives : deriveWithin (depth + 1) .errorTag frame rest = ⟨some next, after⟩) :
    ∃ taken, rest = taken ++ next ∧ Derives (RuleName.definition .errorTag).items taken ∧
      ((∃ bang tag : Lexeme, taken = [bang, tag] ∧ bang.kind = .bang ∧
        after = frame ++ [Param.token bang, Param.token tag]) ∨ ∀ lexeme ∈ taken,
        lexeme.kind ≠ .number) := by
  obtain ⟨_, _, first, second⟩ := deriveItems_cons_eq_some derives
  obtain ⟨bang, rfl, isBang, rfl⟩ := deriveToken_eq_some first
  obtain ⟨properBang, proper⟩ := List.forall_mem_cons.mp proper
  rw [deriveItems_singleton] at second
  rcases deriveChoice_cons_eq_some second with number | ⟨_, -, text⟩
  · rw [deriveItems_singleton] at number
    obtain ⟨tag, rfl, isNumber, rfl⟩ := deriveToken_eq_some number
    have properTag := proper tag List.mem_cons_self
    refine ⟨[bang, tag], rfl,
      .token isBang (.of_choice List.mem_cons_self (.token isNumber .nil)),
      .inl ⟨bang, tag, rfl, isBang, ?_⟩⟩
    rw [pushed_of_carries properTag (by rw [isNumber]; rfl),
      pushed_of_carries properBang (by rw [isBang]; rfl), List.append_assoc]
    rfl
  · rcases deriveChoice_cons_eq_some text with text | ⟨_, -, ⟨⟩⟩
    rw [deriveItems_singleton] at text
    obtain ⟨taken, rfl, inside⟩ := sound .string _ _ _ _ nofun proper text
    refine ⟨bang :: taken, rfl,
      .token isBang (.of_choice (List.mem_cons_of_mem _ List.mem_cons_self) inside), .inr ?_⟩
    obtain _ | _ | ⟨inside, -, _ | _⟩ := inside
    rw [List.append_nil]
    exact List.forall_mem_cons.mpr
      ⟨by rw [isBang]; exact nofun, inside.kind_ne_number RuleName.string_isLiteral⟩

/-! ### Rules -/

/-- A rule with a construct derives what its items derive, if that can be reduced. -/
theorem deriveWithin_eq_some {depth : Nat} {name : RuleName} {construct : Construct}
    {frame after : Frame} {rest next : List Lexeme}
    (constructs : name.definition.construct = some construct)
    (derives : deriveWithin (depth + 1) name frame rest = ⟨some next, after⟩) :
    ∃ nodes, deriveItems (deriveWithin depth) name.definition.items [] rest = ⟨some next, nodes⟩ ∧
      construct.reduce? nodes frame = some after := by
  rw [deriveWithin, constructs] at derives
  dsimp only at derives
  split at derives
  · cases derives
  · rename_i middle nodes inside
    split at derives
    · rename_i reduced reduces
      cases derives
      exact ⟨nodes, inside, reduces⟩
    · cases derives

/-- Nothing has to be read in most rules. -/
theorem RuleName.admits_of_ne {name : RuleName} (notInjection : name ≠ .injection)
    (notTag : name ≠ .errorTag) (taken : List Lexeme) : name.Admits taken :=
  fun either => either.elim (absurd · notInjection) (absurd · notTag)

/-- **An entry derives a validator, and perhaps an error tag that can be read.** -/
theorem deriveItems_entry_sound {depth : Nat} (sound : ∀ less ≤ depth, (deriveWithin less).Sound)
    {nodes : Frame} {rest next : List Lexeme} {invocation : Invocation}
    (proper : ∀ lexeme ∈ rest, lexeme.Proper)
    (derives : deriveItems (deriveWithin depth) (RuleName.definition .entry).items [] rest =
      ⟨some next, nodes⟩) (reduces : invocation? nodes = some invocation) :
    ∃ taken, rest = taken ++ next ∧ Derives (RuleName.definition .entry).items taken := by
  obtain ⟨middle, between, first, second⟩ := deriveItems_cons_eq_some derives
  obtain ⟨taken, rfl, inside⟩ := sound depth (Nat.le_refl _) .validator _ _ _ _ nofun proper first
  replace proper : ∀ lexeme ∈ middle, lexeme.Proper :=
    fun lexeme member => proper lexeme (List.mem_append_right _ member)
  rw [deriveItems_singleton] at second
  rcases deriveChoice_cons_eq_some second with tagged | ⟨_, -, bare⟩
  · rw [deriveItems_singleton] at tagged
    cases depth with
    | zero => cases tagged
    | succ depth =>
        obtain ⟨more, rfl, tag, reads⟩ :=
          deriveWithin_errorTag (sound depth (Nat.le_succ _)) proper tagged
        refine ⟨taken ++ more, (List.append_assoc _ _ _).symm,
          inside.append
            (.of_choice List.mem_cons_self (.of_rule tag fun _ lexeme member number => ?_))⟩
        rcases reads with ⟨bang, tag, rfl, isBang, rfl⟩ | none
        · have reads := isSome_errorTag?_of_reduce reduces
          rcases List.mem_cons.mp member with rfl | member
          · rw [isBang] at number
            cases number
          · cases List.mem_singleton.mp member
            obtain ⟨tag, same⟩ := Option.isSome_iff_exists.mp reads
            rw [errorTag?, Param.token?, if_pos number] at same
            · obtain ⟨_, ⟨⟩, same⟩ := Option.bind_eq_some_iff.mp same
              obtain ⟨index, reads, -⟩ := Option.bind_eq_some_iff.mp same
              exact Option.isSome_of_eq_some reads
            · exact nofun
        · exact absurd number (none lexeme member)
  · rcases deriveChoice_cons_eq_some bare with bare | ⟨_, -, ⟨⟩⟩
    cases bare
    refine ⟨taken, rfl, ?_⟩
    have untagged : Derives [.optional [.rule .errorTag]] [] :=
      .of_choice (List.mem_cons_of_mem _ List.mem_cons_self) .nil
    have whole := inside.append untagged
    rwa [List.append_nil] at whole

/-- **What a rule derives is a sentence of it.** -/
theorem deriveWithin_sound (depth : Nat) : (deriveWithin depth).Sound := by
  induction depth using Nat.strongRecOn with
  | ind depth ih =>
      cases depth with
      | zero =>
          intro name frame rest next after _ _ derives
          cases derives
      | succ depth =>
          have sound := ih depth (Nat.lt_succ_self _)
          intro name frame rest next after notTag proper derives
          cases constructs : name.definition.construct with
          | none =>
              rw [deriveWithin, constructs] at derives
              have other : name ≠ .entry ∧ name ≠ .injection := by
                constructor <;> (rintro rfl; cases constructs)
              obtain ⟨taken, rfl, inside⟩ := deriveItems_sound sound _
                (RuleName.definition_avoids other.1) _ _ _ _ proper derives
              exact ⟨taken, rfl, .of_rule inside (RuleName.admits_of_ne other.2 notTag taken)⟩
          | some construct =>
              obtain ⟨nodes, derives, reduces⟩ := deriveWithin_eq_some constructs derives
              by_cases entry : name = .entry
              · subst entry
                cases constructs
                obtain ⟨invocation, reads, -⟩ := Option.map_eq_some_iff.mp reduces
                obtain ⟨taken, rfl, inside⟩ := deriveItems_entry_sound
                  (fun less le => ih less (Nat.lt_succ_of_le le)) proper derives reads
                exact ⟨taken, rfl,
                  .of_rule inside (RuleName.admits_of_ne (by decide) (by decide) taken)⟩
              · obtain ⟨taken, rfl, inside⟩ := deriveItems_sound sound _
                  (RuleName.definition_avoids entry) _ _ _ _ proper derives
                refine ⟨taken, rfl, .of_rule inside ?_⟩
                rintro (rfl | rfl)
                · cases constructs
                  obtain ⟨number, rfl, only⟩ := deriveItems_injection
                    (fun lexeme member => proper lexeme (List.mem_append_left _ member))
                    inside derives
                  intro lexeme member kind
                  rw [only lexeme member kind]
                  exact isSome_natural?_of_reduce reduces
                · exact absurd rfl notTag

/-- **Lexemes that have a forest are a sentence of the first rule.** -/
theorem derives_of_interpret {lexemes : List Lexeme} {forest : Frame}
    (proper : ∀ lexeme ∈ lexemes, lexeme.Proper) (interprets : interpret lexemes = .ok forest) :
    Derives [.rule .program] lexemes := by
  unfold interpret at interprets
  split at interprets
  · rename_i derives
    obtain ⟨taken, same, sentence⟩ := deriveWithin_sound _ .program _ _ _ _ nofun proper derives
    rw [List.append_nil] at same
    exact same ▸ sentence
  · cases interprets

end Grammar

end Schemata
