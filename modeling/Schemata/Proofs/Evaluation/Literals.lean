/-
**What the templates of number literals relate to.**

A literal stands for a JSON number as long as it is below a limit in size. A literal beyond the
limit is read as an infinity, which no JSON number is, and stands for null.

* `Lexeme.isNumeral_of_tokenize`: the numbers of a text are numerals, of any length;
* `Grammar.LiteralText`: a text is a number literal, and may stand as a value and as an operand;
* `Template.RelatesTo`: equalities and comparisons with a text relate to a value, and comparisons
  report it;
* `Template.literal_relatesTo`: the value is a JSON number just below the limit, and null from there
  on.
-/

import Schemata.Proofs.Compilation.Comparisons
import Schemata.Proofs.Evaluation.Relations
import Schemata.Proofs.Language.Assembly
import Schemata.Proofs.Numeral.Integral
import Schemata.Proofs.Numeral.Reading

namespace Schemata

/-! ### Number literals -/

namespace LexicalUnit

theorem isNumeral_of_readNumber? (negative : Bool) {text rest number : List Char}
    (read : readNumber? (if negative then ['-'] else []) text = some (.number number, rest)) :
    Numeral.IsNumeral (String.ofList number) := by
  obtain ⟨digits, decimals, whole, fraction, same⟩ := exists_numberText read
  cases same
  exact ⟨negative, digits, decimals, whole, fraction, rfl⟩

/-- A number at the front of a text is a numeral. -/
theorem isNumeral_of_next {text rest number : List Char}
    (read : next text = .ok (.number number, rest)) :
    Numeral.IsNumeral (String.ofList number) := by
  unfold next at read
  split at read
  · obtain ⟨_, -, same⟩ := map_eq_ok.mp read
    cases same
  · cases (spelling_of_readName read).1
  · cases (spelling_of_readName read).1
  · obtain ⟨_, -, same, -⟩ := spelling_of_readWord read
    cases same
  · obtain ⟨_, -, same, -⟩ := spelling_of_readWord read
    cases same
  iterate 6
    · cases read
  · split at read
    · rename_i reads
      cases read
      exact isNumeral_of_readNumber? true reads
    · cases read
  · split at read
    · rename_i reads
      cases read
      exact isNumeral_of_readNumber? false reads
    · split at read
      · cases read
      · split at read
        · cases read
        · obtain ⟨_, -, same, -⟩ := spelling_of_readWord read
          cases same

end LexicalUnit

namespace Lexeme

/-- Only numbers are classified as numbers. -/
theorem ofUnit_number {offset : Nat} {unit : LexicalUnit} {lexemes : List Lexeme}
    (classifies : ofUnit offset unit = .ok lexemes) {lexeme : Lexeme} (member : lexeme ∈ lexemes)
    (isNumber : lexeme.kind = .number) :
    ∃ number, unit = .number number ∧ lexeme.value = String.ofList number := by
  have plain : ∀ entry ∈ Keyword.table, entry.kind ≠ .number := by decide
  cases unit with
  | number number =>
      cases classifies
      rw [List.mem_singleton.mp member]
      exact ⟨number, rfl, rfl⟩
  | quoted parts =>
      cases classifies
      obtain ⟨runs, last, same, texts, -⟩ := ofQuotedParts_spec parts (offset + 1)
      rw [same] at member
      rcases List.mem_cons.mp member with rfl | inside
      · cases isNumber
      · rcases List.mem_append.mp inside with run | closing
        · rw [(texts lexeme run).1] at isNumber
          cases isNumber
        · rw [List.mem_singleton.mp closing] at isNumber
          cases isNumber
  | reference name | define name =>
      cases classifies
      rcases List.mem_cons.mp member with rfl | rest
      · cases isNumber
      · rw [List.mem_singleton.mp rest] at isNumber
        cases isNumber
  | suffix word | keyword word =>
      unfold ofUnit at classifies
      dsimp only at classifies
      split at classifies
      · rename_i keyword found
        cases classifies
        rw [List.mem_singleton.mp member] at isNumber
        exact absurd isNumber (plain keyword (List.mem_of_find?_eq_some found))
      · cases classifies
  | operator text =>
      cases classifies
      rw [List.mem_singleton.mp member] at isNumber
      cases isNumber
  | symbol character =>
      cases classifies
      rw [List.mem_singleton.mp member] at isNumber
      exact absurd isNumber (symbolKind_plain character).2.2
  | word text =>
      cases classifies
      rw [List.mem_singleton.mp member, ofWord] at isNumber
      split at isNumber
      · cases isNumber
      · split at isNumber
        · rename_i keyword found
          exact absurd isNumber (plain keyword (List.mem_of_find?_eq_some found))
        · cases isNumber

/-- **The numbers of a text are numerals.** -/
theorem isNumeral_of_tokenize {text : String} {lexemes : List Lexeme}
    (tokenizes : tokenize text = .ok lexemes) {lexeme : Lexeme} (member : lexeme ∈ lexemes)
    (isNumber : lexeme.kind = .number) : Numeral.IsNumeral lexeme.value := by
  obtain ⟨units, scans, classifies⟩ := tokenize_eq_ok_iff.mp tokenizes
  have reads := LexicalUnit.scan_reads scans
  clear scans tokenizes
  induction units generalizing lexemes with
  | nil =>
      cases classifies
      cases member
  | cons unit units ih =>
      obtain ⟨offset, unit⟩ := unit
      obtain ⟨⟨behind, rest, read⟩, later⟩ := List.forall_mem_cons.mp reads
      rw [ofUnits] at classifies
      obtain ⟨own, ownClassifies, inner⟩ := bind_eq_ok.mp classifies
      obtain ⟨others, othersClassify, same⟩ := bind_eq_ok.mp inner
      cases same
      rcases List.mem_append.mp member with here | there
      · obtain ⟨number, rfl, value⟩ := ofUnit_number ownClassifies here isNumber
        exact value ▸ LexicalUnit.isNumeral_of_next read
      · exact ih there othersClassify later

end Lexeme

namespace Grammar

/-- **A text is a number literal**: it is one lexeme, a number. -/
structure LiteralText (text : String) (literal : Lexeme) : Prop where
  tokenizes : Lexeme.tokenize text = .ok [literal]
  isNumber : literal.kind = .number

/-- Every numeral is a literal. -/
theorem literalText_numberText (negative : Bool) {digits decimals : List Char}
    (whole : Numeral.isDigits digits = true) (fraction : decimals.all Char.isDigit = true)
    {text : String}
    (written : text = String.ofList (WrittenUnit.numberText negative digits decimals)) :
    LiteralText text (Lexeme.ofKind .number text 0) where
  tokenizes := by
    have read := LexicalUnit.next_number negative whole fraction
    have lexes : Lexeme.Lexes 0 (WrittenUnit.numberText negative digits decimals ++ [])
        ([Lexeme.ofKind .number text 0] ++ []) :=
      .unit (by rwa [List.append_nil]) (by rw [written]; rfl) .nil
    rw [List.append_nil, List.append_nil] at lexes
    rwa [Lexeme.tokenize_eq_ok_iff, written, String.toList_ofList, ← written]
  isNumber := rfl

namespace LiteralText

variable {text : String} {literal : Lexeme} (isLiteral : LiteralText text literal)
include isLiteral

/-- **A literal is a numeral.** -/
theorem isNumeral : Numeral.IsNumeral literal.value :=
  Lexeme.isNumeral_of_tokenize isLiteral.tokenizes List.mem_cons_self isLiteral.isNumber

theorem lexes : Lexeme.Lexes 0 text.toList [literal] :=
  Lexeme.tokenize_eq_ok_iff.mp isLiteral.tokenizes

/-- A literal does not start with an equality sign, which would be an operator. -/
theorem apart : ∀ c ∈ text.toList.head?, c ≠ '=' := by
  rintro c front rfl
  obtain ⟨units, scans, classifies⟩ := isLiteral.lexes
  obtain ⟨more, whole⟩ := List.head?_eq_some_iff.mp front
  have read : LexicalUnit.next ('=' :: more) = .ok (.operator ['='], more) := rfl
  rw [whole, LexicalUnit.scan_of_next rfl read] at scans
  obtain ⟨others, -, rfl⟩ := LexicalUnit.map_eq_ok.mp scans
  rw [Lexeme.ofUnits] at classifies
  obtain ⟨own, ownClassifies, inner⟩ := bind_eq_ok.mp classifies
  obtain ⟨behind, -, same⟩ := bind_eq_ok.mp inner
  cases ownClassifies
  have isNumber := isLiteral.isNumber
  rw [← (List.cons.inj (Except.ok.inj same)).1] at isNumber
  cases isNumber

variable {datum : Binary64.Datum} (reads : Numeral.real? literal.value = some datum)
include reads

/-- **A literal is an operand**, as it is read. -/
theorem operandText : OperandText text (.number datum) where
  apart := isLiteral.apart
  lexes offset := ⟨_, isLiteral.lexes.shift offset, .number isLiteral.isNumber reads⟩

/-- **A literal stands for the value that its datum becomes.** -/
theorem writtenAs : Bound.WrittenAs text (.literal (.ofDatum datum)) := by
  have canonical := Lexeme.tokenize_canonical isLiteral.tokenizes
  have builds := (RendersValue.token (.inl isLiteral.isNumber)).builds [] fun lexeme member =>
    (canonical lexeme member).toProper
  refine ⟨.token literal,
    ⟨.inl ⟨isLiteral.isNumber, by rw [reads]; rfl⟩, _, isLiteral.lexes, builds⟩,
    fun validator => ?_⟩
  rw [Bound.ofParam, if_pos isLiteral.isNumber, reads]

end LiteralText

end Grammar

/-! ### Templates -/

namespace Template

/-- **What the template of a text reports**: each payload, with the check that has failed and its
parameters. There is no telling if the text has no template, or if the validation does not end. -/
def reports? (text : String) (bindings : Bindings) (value : Json) (known : Meta) :
    Option (List (Json × Option String × List Json)) :=
  match ofText text with
  | .ok template => (template.validate bindings value known).map fun outcome =>
      outcome.events.map fun event => (event.payload, event.known.validator, event.known.params)
  | .error _ => none

/-- **A comparison with an error behind it reports its relation and its bound**, if the value is not
in the relation. -/
theorem IsStep.reports?_comparison {text error : String} {relation : Relation} {held : Json}
    (isStep : IsStep text (.comparison relation (.literal held) (some (.literal error))))
    (bindings : Bindings) (value : Json) (known : Meta) : reports? text bindings value known =
      some (if Check.compares relation value held then []
        else [(.string error, some "compare", [.string relation.symbol, held])]) := by
  obtain ⟨template, call, compiles, same⟩ := isStep.exists_validate_eq bindings
  rw [reports?, compiles]
  show (template.validate bindings value known).map _ = _
  rw [same, Step.validate, Bound.validateRelation, Run.known_bind_apply]
  show (ErrorTag.require bindings _ "compare" [.string relation.symbol, held]
    (Check.compares relation value held) value known).map _ = _
  cases Check.compares relation value held <;> rfl

/-- **All templates that relate to a text relate to one value**: an equality accepts what equals it,
a comparison accepts what is in its relation to it, and reports it otherwise. -/
structure RelatesTo (text : String) (held : Json) : Prop where
  equality : ∀ bindings value known,
    accepts? (Grammar.equalText text) bindings value known = some (Check.equals value held)
  comparison : ∀ relation bindings value known,
    accepts? (Grammar.comparisonText relation text) bindings value known =
      some (Check.compares relation value held)
  report : ∀ relation error bindings value known,
    reports? (Grammar.comparisonText relation text ++ Grammar.tagText (some error)) bindings
      value known = some (if Check.compares relation value held then []
        else [(.string error, some "compare", [.string relation.symbol, held])])

/-- The templates of a literal relate to the value that its datum becomes. -/
theorem relatesTo_ofDatum {text : String} {literal : Lexeme}
    (isLiteral : Grammar.LiteralText text literal) {datum : Binary64.Datum}
    (reads : Numeral.real? literal.value = some datum) :
    RelatesTo text (.ofDatum datum) where
  equality bindings value known := by
    rw [(isStep_equalText (isLiteral.writtenAs reads)).accepts?_equality]
    exact congrArg some Bool.decide_eq_true
  comparison relation bindings value known := by
    have isStep := isStep_comparisonText (isLiteral.operandText reads) rfl relation none
    rw [Grammar.tagText, String.append_empty] at isStep
    exact isStep.accepts?_comparison
  report relation error bindings value known :=
    (isStep_comparisonText (isLiteral.operandText reads) rfl relation
      (some error)).reports?_comparison _ _ _

/-- **A literal stands for a JSON number just below the limit, and for null from there on.** The
number denotes the datum that the literal is read as, and only numbers equal it; nothing but null
equals null, and nothing is in a relation to it. -/
theorem literal_relatesTo {text : String} {literal : Lexeme}
    (isLiteral : Grammar.LiteralText text literal) :
    (|Numeral.decimal literal.value| < Binary64.overflow → ∃ x number,
      Numeral.real? literal.value = some (.finite x) ∧ Json.Becomes x.toRat number ∧
        RelatesTo text (.number number) ∧ ∀ bindings value known,
          accepts? (Grammar.equalText text) bindings value known = some true →
            ∃ other, value = .number other) ∧
    (Binary64.overflow ≤ |Numeral.decimal literal.value| → RelatesTo text .null ∧
      (∀ bindings value known,
        accepts? (Grammar.equalText text) bindings value known = some true ↔ value = .null) ∧
      ∀ relation bindings value known,
        accepts? (Grammar.comparisonText relation text) bindings value known = some false) := by
  obtain ⟨datum, negative, reads, ranges⟩ := isLiteral.isNumeral.rangesAs
  have relates := relatesTo_ofDatum isLiteral reads
  constructor
  · intro below
    obtain ⟨x, rfl⟩ := ranges.finite below
    obtain ⟨number, same, becomes⟩ := Json.ofDatum_denotes ⟨x, rfl, rfl⟩
    rw [same] at relates
    refine ⟨x, number, reads, becomes, relates, fun bindings value known accepted => ?_⟩
    rw [relates.equality, Option.some_inj] at accepted
    cases value with
    | number other => exact ⟨other, rfl⟩
    | _ => cases accepted
  · intro above
    cases ranges.infinite above
    refine ⟨relates, fun bindings value known => ?_, fun relation bindings value known => ?_⟩
    · rw [relates.equality, Option.some_inj]
      cases value <;> simp [Check.equals, Json.ofDatum]
    · rw [relates.comparison]
      cases value <;> rfl

/-- A negative literal with a decimal stands for a number, which null does not equal. -/
theorem literal_relatesTo_negative : ∃ literal, Grammar.LiteralText "-1.5" literal ∧
    |Numeral.decimal literal.value| < Binary64.overflow ∧ ∃ x number,
      Numeral.real? literal.value = some (.finite x) ∧ Json.Becomes x.toRat number ∧
        RelatesTo "-1.5" (.number number) ∧
          accepts? (Grammar.equalText "-1.5") .empty .null .empty = some false := by
  have isLiteral := @Grammar.literalText_numberText true ['1'] ['5'] rfl rfl "-1.5" rfl
  have below : |Numeral.decimal "-1.5"| < Binary64.overflow := by
    have value : Numeral.decimal "-1.5" = -1 * (15 / 10 ^ 1) :=
      @Numeral.decimal_numberText ['1'] ['5'] true rfl
    calc |Numeral.decimal "-1.5"| ≤ 2 ^ (1 : Int) := by norm_num [value]
      _ ≤ 2 ^ (1023 : Int) := zpow_le_zpow_right₀ one_le_two (by decide)
      _ < Binary64.overflow := Binary64.overflow_bounds.1
  obtain ⟨x, number, reads, becomes, relates, numbers⟩ := (literal_relatesTo isLiteral).1 below
  exact ⟨_, isLiteral, below, x, number, reads, becomes, relates, relates.equality _ _ _⟩

/-- **A literal can stand for null**: one of three hundred and ten digits equals null, and is
reported as null. -/
theorem exists_literal_null : ∃ text literal, text = String.ofList ('1' :: List.replicate 309 '0') ∧
    Grammar.LiteralText text literal ∧
    accepts? (Grammar.equalText text) .empty .null .empty = some true ∧
    reports? (Grammar.comparisonText .less text ++ Grammar.tagText (some "e")) .empty
      (.bool true) .empty = some [(.string "e", some "compare", [.string "<", .null])] := by
  have whole : Numeral.isDigits ('1' :: List.replicate 309 '0') = true := by decide +kernel
  have fraction : List.all [] Char.isDigit = true := rfl
  have written : String.ofList ('1' :: List.replicate 309 '0') =
      String.ofList (WrittenUnit.numberText false ('1' :: List.replicate 309 '0') []) := by
    rw [WrittenUnit.numberText, if_neg Bool.false_ne_true, if_pos rfl, List.nil_append,
      List.append_nil]
  have isLiteral := Grammar.literalText_numberText false whole fraction written
  have reads := Numeral.real?_numberText false whole fraction
  rw [← written] at reads
  have large : Binary64.overflow ≤
      (Numeral.digitsValue ('1' :: List.replicate 309 '0' ++ []) : ℚ) * 10 ^ (0 : Int) := by
    have power : 2 ^ 1024 ≤ Numeral.digitsValue ('1' :: List.replicate 309 '0' ++ []) := by
      decide +kernel
    calc Binary64.overflow ≤ 2 ^ (1024 : Int) := Binary64.overflow_bounds.2
      _ ≤ (Numeral.digitsValue ('1' :: List.replicate 309 '0' ++ []) : ℚ) * 10 ^ (0 : Int) := by
          rw [zpow_zero, mul_one]
          exact_mod_cast power
  have infinite := (Binary64.Datum.ofDecimal_rangesAs false _ 0).infinite large
  have relates := relatesTo_ofDatum isLiteral (reads.trans (congrArg some infinite))
  exact ⟨_, _, rfl, isLiteral, relates.equality _ _ _, relates.report _ _ _ _ _⟩

end Template

end Schemata
