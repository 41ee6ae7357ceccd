/-
**Interpreting accepts the context-free language of the grammar.**

Ordered choice, greedy repetition and reductions neither lose a sentence nor admit another list of
lexemes: what is derived is a sentence (`derives_of_interpret`), every sentence builds a forest,
since its frames can be reduced, and lookahead finds what is built (`interpret_of_builds`).

* `Item.sequenceReady` checks that the rules of parameters stand behind keywords;
* `Derives.builds`: so every sentence builds a frame;
* `interpret_eq_ok_iff`: the forest of some lexemes is the one that they build;
* `interpret_isOk_iff_derives`: they have a forest if and only if they are a sentence.
-/

import Schemata.Proofs.Language.Lookahead
import Schemata.Proofs.Language.Nodes

namespace Schemata.Grammar

/-! ### Parameters stand behind keywords -/

mutual

/-- The rules of parameters in an item stand behind keywords; `headed` says that a keyword stands
before it. -/
def Item.ready (headed : Bool) : Item → Bool
  | .token _ => true
  | .rule name => headed || name.definition.construct ≠ some .params
  | .choice alternatives => Item.allReady headed alternatives
  | .many body => Item.sequenceReady false body

/-- **The rules of parameters in a sequence stand behind keywords.** -/
def Item.sequenceReady (headed : Bool) : List Item → Bool
  | [] => true
  | .token kind :: items => Item.sequenceReady kind.isKeyword items
  | item :: items => item.ready headed && Item.sequenceReady false items

/-- The rules of parameters in some sequences stand behind keywords. -/
def Item.allReady (headed : Bool) : List (List Item) → Bool
  | [] => true
  | items :: others => Item.sequenceReady headed items && Item.allReady headed others

end

/-- **The rules of parameters stand behind keywords in every rule of the table.** -/
theorem RuleName.definition_ready (name : RuleName) :
    Item.sequenceReady false name.definition.items = true := by
  cases name <;> decide

theorem Item.sequenceReady_of_mem {headed : Bool} {alternatives : List (List Item)}
    {alternative : List Item} (ready : Item.allReady headed alternatives = true)
    (member : alternative ∈ alternatives) : Item.sequenceReady headed alternative = true := by
  induction alternatives with
  | nil => cases member
  | cons items alternatives ih =>
      obtain ⟨here, later⟩ := Bool.and_eq_true_iff.mp ready
      rcases List.mem_cons.mp member with rfl | member
      · exact here
      · exact ih later member

/-! ### Sentences build frames -/

/-- The frame behind a lexeme ends with a keyword if the lexeme is one. -/
theorem pushed_endsWithKeyword {lexeme : Lexeme} {frame : Frame} (proper : lexeme.Proper)
    (keyword : lexeme.kind.isKeyword = true) : Frame.EndsWithKeyword (pushed lexeme frame) :=
  ⟨frame, lexeme, pushed_of_carries proper (TokenKind.carriesValue_of_isKeyword keyword), keyword⟩

/-- **Every sentence builds a frame.** -/
theorem Derives.builds {items : List Item} {taken : List Lexeme} (derives : Derives items taken) :
    (∀ lexeme ∈ taken, lexeme.Proper) → ∀ {headed : Bool} {frame : Frame},
      Item.sequenceReady headed items = true → (headed = true → frame.EndsWithKeyword) →
        ∃ result, Builds items frame taken result := by
  induction derives with
  | nil => exact fun _ _ _ _ _ => ⟨_, .nil _⟩
  | token same _ ih =>
      intro proper headed frame ready _
      obtain ⟨properHere, properLater⟩ := List.forall_mem_cons.mp proper
      obtain ⟨result, later⟩ := ih properLater ready fun keyword =>
        pushed_endsWithKeyword properHere (same ▸ keyword)
      exact ⟨result, .token same later⟩
  | @rule name items _ _ _ admits _ ih ihLater =>
      intro proper headed frame ready ends
      obtain ⟨properHere, properLater⟩ := List.forall_mem_append.mp proper
      obtain ⟨here, further⟩ := Bool.and_eq_true_iff.mp ready
      cases constructs : name.definition.construct with
      | none =>
          obtain ⟨middle, inside⟩ :=
            ih properHere name.definition_ready Frame.endsWithKeyword_of_false
          obtain ⟨result, later⟩ := ihLater properLater further Frame.endsWithKeyword_of_false
          exact ⟨result, .rule constructs inside admits later⟩
      | some construct =>
          obtain ⟨nodes, inside⟩ :=
            ih properHere name.definition_ready Frame.endsWithKeyword_of_false
          have behind : construct = .params → frame.EndsWithKeyword := by
            rintro rfl
            refine ends ((Bool.or_eq_true_iff.mp here).resolve_right ?_)
            simp [constructs]
          obtain ⟨middle, reduces⟩ := inside.reduces constructs admits properHere behind
          obtain ⟨result, later⟩ := ihLater properLater further Frame.endsWithKeyword_of_false
          exact ⟨result, .construct constructs inside admits reduces later⟩
  | choice member _ _ ih ihLater =>
      intro proper headed frame ready ends
      obtain ⟨properHere, properLater⟩ := List.forall_mem_append.mp proper
      obtain ⟨here, further⟩ := Bool.and_eq_true_iff.mp ready
      obtain ⟨middle, inside⟩ := ih properHere (Item.sequenceReady_of_mem here member) ends
      obtain ⟨result, later⟩ := ihLater properLater further Frame.endsWithKeyword_of_false
      exact ⟨result, .choice member inside later⟩
  | stop _ ih =>
      intro proper headed frame ready _
      obtain ⟨-, further⟩ := Bool.and_eq_true_iff.mp ready
      obtain ⟨result, later⟩ := ih proper further Frame.endsWithKeyword_of_false
      exact ⟨result, .stop later⟩
  | again _ _ ih ihLater =>
      intro proper headed frame ready _
      obtain ⟨properHere, properLater⟩ := List.forall_mem_append.mp proper
      obtain ⟨here, further⟩ := Bool.and_eq_true_iff.mp ready
      obtain ⟨middle, inside⟩ := ih properHere here Frame.endsWithKeyword_of_false
      obtain ⟨result, later⟩ := ihLater properLater
        (show Item.sequenceReady false (.many _ :: _) = true from ready)
        Frame.endsWithKeyword_of_false
      exact ⟨result, .again inside later⟩

/-! ### Forests -/

/-- A sentence of the first rule has a forest. -/
theorem Derives.exists_forest {lexemes : List Lexeme} (derives : Derives [.rule .program] lexemes)
    (proper : ∀ lexeme ∈ lexemes, lexeme.Proper) :
    ∃ forest, Builds [.rule .program] [] lexemes forest :=
  derives.builds proper (show Item.sequenceReady false [.rule .program] = true from rfl)
    Frame.endsWithKeyword_of_false

/-- **The forest of some lexemes is the one that they build.** -/
theorem interpret_eq_ok_iff {lexemes : List Lexeme} (proper : ∀ lexeme ∈ lexemes, lexeme.Proper)
    (forest : Frame) :
    interpret lexemes = .ok forest ↔ Builds [.rule .program] [] lexemes forest := by
  constructor
  · intro interprets
    obtain ⟨result, builds⟩ := (derives_of_interpret proper interprets).exists_forest proper
    have same : result = forest := by
      have both := (interpret_of_builds builds).symm.trans interprets
      exact Except.ok.inj both
    exact same ▸ builds
  · exact interpret_of_builds

/-- **Lexemes have a forest if and only if they are a sentence of the grammar.** Ordered choice,
greedy repetition and reductions neither lose a sentence nor admit another list of lexemes. -/
theorem interpret_isOk_iff_derives (lexemes : List Lexeme)
    (proper : ∀ lexeme ∈ lexemes, lexeme.Proper) :
    (∃ forest, interpret lexemes = .ok forest) ↔ Derives [.rule .program] lexemes := by
  constructor
  · rintro ⟨forest, interprets⟩
    exact derives_of_interpret proper interprets
  · intro derives
    obtain ⟨forest, builds⟩ := derives.exists_forest proper
    exact ⟨forest, interpret_of_builds builds⟩

/-- A comparison with an injection and an error tag is a sentence, as it has a forest. -/
theorem derives_compare_injection :
    let lexemes := [Lexeme.ofKind .compare "compare" 0, .ofKind .leftParen "(" 7,
      .ofKind .operator ">=" 8, .ofKind .dollar "$" 10, .ofKind .number "0" 11,
      .ofKind .rightParen ")" 12, .ofKind .bang "!" 13, .ofKind .number "1" 14]
    (∀ lexeme ∈ lexemes, lexeme.Proper) ∧ Derives [.rule .program] lexemes := by
  intro lexemes
  have proper : ∀ lexeme ∈ lexemes, lexeme.Proper := by
    have checked : ∀ lexeme ∈ lexemes, lexeme.carriesValue = lexeme.kind.carriesValue ∧
        (lexeme.kind = .operator → (Relation.ofSymbol? lexeme.value).isSome) ∧
        (lexeme.kind = .number → (Numeral.real? lexeme.value).isSome) := by decide
    intro lexeme member
    obtain ⟨carries, operator, number⟩ := checked lexeme member
    exact ⟨carries, operator, number⟩
  have interprets : ∃ forest, interpret lexemes = .ok forest := ⟨_, rfl⟩
  exact ⟨proper, (interpret_isOk_iff_derives lexemes proper).mp interprets⟩

end Schemata.Grammar
