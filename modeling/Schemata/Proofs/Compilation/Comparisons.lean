/-
**The templates of comparisons that are written around operands.**

A comparison is written with an operator and an operand, and may have an error in quotes behind it.

* `Grammar.quotedText`, `Grammar.comparisonText` and `Grammar.tagText` write the parts;
* `Grammar.OperandText`: a text is an operand wherever it stands behind an operator;
* `Grammar.OperandText.chainText`: the forest of a comparison;
* `Template.IsChain`: the template of a text is a chain of steps, and is validated as it;
* `Template.isStep_comparisonText`: the template of a comparison.
-/

import Schemata.Proofs.Compilation.Values
import Schemata.Proofs.Language.Rendering
import Schemata.Proofs.Validation.Groups

namespace Schemata

namespace Grammar

open LexicalUnit (byteCount Delimited)

/-! ### Texts -/

/-- **A text in quotes.** -/
def quotedText (content : String) : String :=
  String.ofList (WrittenUnit.quoted content).spelling

/-- **The text of a comparison** with an operand. -/
def comparisonText (relation : Relation) (operand : String) : String :=
  "compare(" ++ relation.symbol ++ operand ++ ")"

/-- The text of an error behind a check, if there is one. -/
def tagText : Option String → String
  | none => ""
  | some error => "!" ++ quotedText error

/-- **A text is an operand.** It does not make the operator before it longer. -/
structure OperandText (text : String) (operand : Operand) : Prop where
  apart : ∀ c ∈ text.toList.head?, c ≠ '='
  lexes : ∀ offset, ∃ lexemes, Lexeme.Lexes offset text.toList lexemes ∧
    RendersOperand operand lexemes

/-! ### Lexemes -/

/-- **A quoted text is one text**, whatever stands behind it. -/
theorem lexes_quotedText (content : String) (offset : Nat) :
    ∃ lexemes, RendersText content lexemes ∧ ∀ {tail : List Char} {others : List Lexeme},
      Lexeme.Lexes (offset + byteCount (quotedText content).toList) tail others →
        Lexeme.Lexes offset ((quotedText content).toList ++ tail) (lexemes ++ others) := by
  obtain ⟨parts, read, whole⟩ := LexicalUnit.readQuoted_escaped content.toList []
  obtain ⟨runs, last, same, texts, joined⟩ := Lexeme.ofQuotedParts_spec parts (offset + 1)
  have joins : String.join (runs.map Lexeme.value) = content := by
    rw [← String.toList_inj, String.toList_join, joined, whole]
  refine ⟨.ofKind .quote "'" offset :: (runs ++ [Lexeme.ofKind .quote "'" last]), ?_,
    fun {tail others} later => ?_⟩
  · have renders := @RendersText.mk (.ofKind .quote "'" offset) (.ofKind .quote "'" last) runs rfl
      (fun run member => (texts run member).1) rfl
    rwa [joins] at renders
  · rw [quotedText, String.toList_ofList] at later ⊢
    have longer : LexicalUnit.next ((WrittenUnit.quoted content).spelling ++ tail) =
        .ok (.quoted parts, tail) := by
      show (LexicalUnit.readQuoted (LexicalUnit.escaped content.toList ++ ['\''] ++ tail)).map _ = _
      rw [LexicalUnit.readQuoted_append tail read]
      rfl
    exact .unit longer (by rw [Lexeme.ofUnit, same]) later

/-- A quoted text is an operand. -/
theorem operandText_quoted (content : String) :
    OperandText (quotedText content) (.text content) where
  apart := by
    rw [quotedText, String.toList_ofList]
    rintro c ⟨⟩
    decide
  lexes offset := by
    obtain ⟨lexemes, renders, lexes⟩ := lexes_quotedText content offset
    refine ⟨lexemes, ?_, .text renders⟩
    have alone := lexes .nil
    rwa [List.append_nil, List.append_nil] at alone

/-- An operator is read up to what does not make it longer. -/
theorem next_operator (relation : Relation) {tail : List Char} (apart : ∀ c ∈ tail.head?, c ≠ '=') :
    LexicalUnit.next (relation.symbol.toList ++ tail) =
      .ok (.operator relation.symbol.toList, tail) := by
  have other : ∀ more, tail ≠ '=' :: more := by
    rintro more rfl
    exact apart '=' rfl rfl
  cases relation with
  | greater =>
      show LexicalUnit.next ('>' :: tail) = _
      rw [LexicalUnit.next]
      · rfl
      · exact other
  | less =>
      show LexicalUnit.next ('<' :: tail) = _
      rw [LexicalUnit.next]
      · rfl
      · exact other
  | atLeast | atMost | equal | different => rfl

theorem ofSymbol?_symbol (relation : Relation) :
    Relation.ofSymbol? relation.symbol = some relation := by
  cases relation <;> rfl

/-- The lexemes of an error behind a check. -/
theorem lexes_tagText (error : Option String) (offset : Nat) : ∃ lexemes,
    Lexeme.Lexes offset (tagText error).toList lexemes ∧
      RendersTag (error.map .literal) lexemes := by
  cases error with
  | none => exact ⟨[], .nil, .untagged⟩
  | some error =>
      obtain ⟨lexemes, renders, lexes⟩ := lexes_quotedText error (offset + byteCount ['!'])
      have alone := lexes .nil
      rw [List.append_nil, List.append_nil] at alone
      have whole : (tagText (some error)).toList = '!' :: (quotedText error).toList := by
        simp [tagText]
      refine ⟨.ofKind .bang "!" offset :: lexemes, ?_, .literal rfl renders⟩
      rw [whole]
      refine .symbol ?_ alone
      rw [quotedText, String.toList_ofList]
      rfl

/-- **A comparison is one check**, with its error behind it. -/
theorem OperandText.chainText {text : String} {operand : Operand}
    (isOperand : OperandText text operand) (relation : Relation) (error : Option String) :
    ChainText (comparisonText relation text ++ tagText error)
      [.validator (.mk "compare" [.comparison ⟨relation, operand⟩] (error.map .literal))] := by
  let place := 0 + byteCount "compare".toList + byteCount ['('] + byteCount relation.symbol.toList
  obtain ⟨own, ownLexes, ownRenders⟩ := isOperand.lexes place
  obtain ⟨behind, behindLexes, tagged⟩ :=
    lexes_tagText error (place + byteCount text.toList + byteCount [')'])
  let keyword := Lexeme.ofKind .compare "compare" 0
  let operator :=
    Lexeme.ofKind .operator relation.symbol (0 + byteCount "compare".toList + byteCount ['('])
  let closing := Lexeme.ofKind .rightParen ")" (place + byteCount text.toList)
  have whole : (comparisonText relation text ++ tagText error).toList = "compare".toList ++
      '(' :: (relation.symbol.toList ++ (text.toList ++ ')' :: (tagText error).toList)) := by
    simp [comparisonText]
  have apart : ∀ c ∈ (text.toList ++ ')' :: (tagText error).toList).head?, c ≠ '=' := by
    have own := isOperand.apart
    cases characters : text.toList with
    | nil =>
        rintro c ⟨⟩
        decide
    | cons first more =>
        rw [characters] at own
        exact own
  have delimited : Delimited (')' :: (tagText error).toList) := by
    rintro c ⟨⟩
    rfl
  have lexes : Lexeme.Lexes 0 (comparisonText relation text ++ tagText error).toList
      ([keyword] ++ .ofKind .leftParen "(" 7 :: ([operator] ++ (own ++ closing :: behind))) := by
    rw [whole]
    refine .unit (show LexicalUnit.next _ = .ok (.word "compare".toList, _) from rfl) rfl
      (.symbol rfl ?_)
    refine .unit (next_operator relation apart) ?_
      (ownLexes.append delimited (.symbol rfl behindLexes))
    rw [Lexeme.ofUnit, String.ofList_toList]
  have head : RendersHead keyword.value [.comparison ⟨relation, operand⟩]
      (keyword :: .ofKind .leftParen "(" 7 :: ((operator :: own) ++ [closing])) :=
    .comparison (.inl rfl) rfl (ofSymbol?_symbol relation) ownRenders (.mk rfl rfl)
  have renders := RendersChain.last (.mk head tagged)
  have same : keyword :: .ofKind .leftParen "(" 7 :: ((operator :: own) ++ [closing]) ++ behind =
      [keyword] ++ .ofKind .leftParen "(" 7 :: ([operator] ++ (own ++ closing :: behind)) := by
    simp
  rw [same] at renders
  have canonical := Lexeme.tokenize_canonical (Lexeme.tokenize_eq_ok_iff.mpr lexes)
  exact ⟨_, lexes, renders.builds (fun lexeme member => (canonical lexeme member).toProper) []⟩

end Grammar

/-! ### Templates -/

namespace Template

/-- **The template of a text is a chain of steps**, without suffixes. -/
def IsChain (text : String) (steps : List Step) : Prop :=
  ∃ template, ofText text = .ok template ∧ template.root = steps ∧ template.suffixes = []

/-- A chain that defines no schemas holds its steps. -/
theorem isChain_of_chainText {text : String} {chain : List Param} {steps : List Step}
    (isChain : Grammar.ChainText text chain) (plain : ∀ param ∈ chain, param.isSuffix = false)
    (unnamed : Param.schemaNames chain = [])
    (compiles : Param.compileChain [] [] chain = .ok steps) :
    IsChain text steps := by
  have formed := formed_of_parse isChain.parse_eq plain
  obtain ⟨template, made, root, unsuffixed, -⟩ :=
    exists_template isChain.parse_eq formed (unnamed ▸ List.nodup_nil) (unnamed ▸ compiles)
  exact ⟨template, made, root, unsuffixed⟩

/-- A template without suffixes is validated as its chain. -/
theorem IsChain.exists_validate_eq {text : String} {steps : List Step}
    (isChain : IsChain text steps) (bindings : Bindings) :
    ∃ template call, ofText text = .ok template ∧
      template.validate bindings = Step.validateChain bindings call steps := by
  obtain ⟨template, compiles, root, plain⟩ := isChain
  exact ⟨template, Step.invoke template.bodies bindings, compiles,
    root ▸ validate_of_plain plain bindings⟩

/-- A template of one step is validated as the step. -/
theorem IsStep.exists_validate_eq {text : String} {step : Step} (isStep : IsStep text step)
    (bindings : Bindings) : ∃ template call, ofText text = .ok template ∧
      template.validate bindings = step.validate bindings call := by
  obtain ⟨template, call, compiles, same⟩ := @IsChain.exists_validate_eq text [step] isStep bindings
  exact ⟨template, call, compiles, same.trans (Validator.andThen_accept _)⟩

/-- A comparison compiles to a step that relates to its bound. -/
theorem compile_compare {operand : Operand} {bound : Bound}
    (stands : Bound.ofOperand [] "compare" false operand = .ok bound) (relation : Relation)
    (tag : Option ErrorTag) :
    Invocation.compile [] [] (.mk "compare" [.comparison ⟨relation, operand⟩] tag) =
      .ok (.comparison relation bound tag) := by
  rw [Invocation.compile_comparison (by decide)]
  show (Bound.ofOperand [] "compare" false operand >>= _) = _
  rw [stands]
  rfl

/-- **The template of a comparison** relates to the bound of its operand. -/
theorem isStep_comparisonText {text : String} {operand : Operand} {bound : Bound}
    (isOperand : Grammar.OperandText text operand)
    (stands : Bound.ofOperand [] "compare" false operand = .ok bound) (relation : Relation)
    (error : Option String) :
    IsStep (Grammar.comparisonText relation text ++ Grammar.tagText error)
      (.comparison relation bound (error.map .literal)) :=
  isStep_of_parse (isOperand.chainText relation error).parse_eq
    (by simp [Invocation.isSuffix, Invocation.name]) (by rw [Invocation.schemaNames]; rfl)
    (compile_compare stands relation _)

end Template

end Schemata
