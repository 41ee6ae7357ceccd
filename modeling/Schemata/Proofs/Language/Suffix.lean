/-
**Suffixes in the text of a schema.**

A suffix behind the text of a schema becomes one more node behind its forest.

* `Suffix.text` spells a suffix, with a blank before it, and `Suffix.scan_text` reads its lexemes;
* `Suffix.deriveWithin_lexemes` reduces them to the one node `Suffix.node`;
* `Grammar.parse_append_suffixes` does so for any number of suffixes behind any schema.
-/

import Mathlib.Data.List.TakeWhile
import Schemata.Proofs.Language.Extension
import Schemata.Proofs.Language.Scanning
import Schemata.Template.Step

namespace Schemata

/-! ### Numbers -/

namespace Numeral

theorem isDigits_toDigits (n : Nat) : isDigits (Nat.toDigits 10 n) = true := by
  rw [isDigits, Bool.and_eq_true_iff]
  refine ⟨?_, List.all_eq_true.mpr fun c => Nat.isDigit_of_mem_toDigits (by decide) (by decide)⟩
  cases digits : Nat.toDigits 10 n with
  | nil => exact absurd digits Nat.toDigits_ne_nil
  | cons _ _ => rfl

theorem digitsValue_toDigits (n : Nat) : digitsValue (Nat.toDigits 10 n) = n := by
  have value : Nat.ofDigitChars 10 (Nat.toDigits 10 n) 0 = n := Nat.ofDigitChars_ten_toDigits
  rw [Nat.ofDigitChars_eq_foldl] at value
  simpa only [digitsValue, Nat.mul_comm] using value

theorem toList_toString (n : Nat) : (toString n).toList = Nat.toDigits 10 n := by
  rw [Nat.toString_eq_repr, Nat.toList_repr]

/-- **A natural number is read as it is written**, as far as numerals reach. -/
theorem natural?_toString {n : Nat} (small : n < Nat.pow 2 64) :
    natural? (toString n) = some n := by
  unfold natural?
  rw [toList_toString]
  split
  · rename_i rest same
    have digit := Nat.isDigit_of_mem_toDigits (b := 10) (n := n) (c := '+') (by decide) (by decide)
      (by rw [same]; exact List.mem_cons_self)
    cases digit
  · dsimp only
    rw [digitsValue_toDigits, if_pos ⟨isDigits_toDigits n, small⟩]

end Numeral

theorem LexicalUnit.isBlank_of_isDigit {c : Char} (digit : c.isDigit = true) :
    isBlank c = false := by
  rw [Bool.eq_false_iff]
  intro blank
  obtain rfl | rfl | rfl | rfl : c = ' ' ∨ c = '\t' ∨ c = '\r' ∨ c = '\n' := by
    simpa [isBlank, or_assoc] using blank
  all_goals cases digit

theorem LexicalUnit.takeWhile_of_all {holds : Char → Bool} {text : List Char}
    (all : ∀ c ∈ text, holds c = true) : text.takeWhile holds = text ∧ text.dropWhile holds = [] :=
  ⟨List.takeWhile_eq_self_iff.mpr all, List.dropWhile_eq_nil_iff.mpr all⟩

/-- Digits are read up to what follows them, and then their decimals. -/
theorem LexicalUnit.readNumber?_digits {digits tail : List Char}
    (number : Numeral.isDigits digits = true) (stops : ∀ c ∈ tail.head?, c.isDigit = false)
    (sign : List Char) :
    readNumber? sign (digits ++ tail) =
      some (.number (sign ++ digits ++ (splitFraction tail).1), (splitFraction tail).2) := by
  obtain ⟨nonempty, all⟩ := Bool.and_eq_true_iff.mp number
  obtain ⟨taken, dropped⟩ := takeWhile_of_all (List.all_eq_true.mp all)
  simp only [readNumber?, takeWhile_append stops, dropWhile_append stops, taken, dropped,
    List.nil_append]
  rw [if_neg (by simpa using nonempty)]

/-- A number without a sign begins with a digit. -/
theorem LexicalUnit.next_of_readNumber? {digits tail : List Char} {read : LexicalUnit × List Char}
    (number : Numeral.isDigits digits = true)
    (reads : readNumber? [] (digits ++ tail) = some read) :
    next (digits ++ tail) = .ok read := by
  cases digits with
  | nil => cases number
  | cons c more =>
      have digit : c.isDigit = true :=
        List.all_eq_true.mp (Bool.and_eq_true_iff.mp number).2 c List.mem_cons_self
      rw [List.cons_append] at reads ⊢
      rw [next, reads]
      all_goals
        intro later same
        obtain ⟨rfl, -⟩ := List.cons.inj same
        cases digit

/-- Digits are a number of their own before anything that does not go on with it. -/
theorem LexicalUnit.next_digits {digits rest : List Char} (number : Numeral.isDigits digits = true)
    (stops : ∀ c ∈ rest.head?, c.isDigit = false) (plain : ∀ more, rest ≠ '.' :: more) :
    next (digits ++ rest) = .ok (.number digits, rest) := by
  have fraction : splitFraction rest = ([], rest) := by
    unfold splitFraction
    split
    · rename_i more
      exact absurd rfl (plain more)
    · rfl
  have read := readNumber?_digits number stops []
  rw [fraction, List.nil_append, List.append_nil] at read
  exact next_of_readNumber? number read

/-! ### Spelling -/

namespace Suffix

/-- **How a suffix is spelled** behind a schema. -/
def text : Suffix → String
  | collecting none => " ~error"
  | collecting (some index) => " ~error($" ++ toString index ++ ")"
  | apart => " ~meta"

/-- How suffixes are spelled one behind the other. -/
def textOfAll : List Suffix → String
  | [] => ""
  | suffix :: rest => suffix.text ++ textOfAll rest

/-- Suffixes that a text can hold: the numbers in them are numerals. -/
def Writable : Suffix → Prop
  | collecting (some index) => index < Nat.pow 2 64
  | _ => True

/-- The lexemes of a suffix whose text starts at an offset. -/
def lexemes (offset : Nat) : Suffix → List Lexeme
  | collecting none => [.ofKind .errorSuffix "~error" (offset + 1)]
  | collecting (some index) =>
    [.ofKind .errorSuffix "~error" (offset + 1), .ofKind .leftParen "(" (offset + 7),
      .ofKind .dollar "$" (offset + 8), .ofKind .number (toString index) (offset + 9),
      .ofKind .rightParen ")" (offset + 9 + LexicalUnit.byteCount (toString index).toList)]
  | apart => [.ofKind .metaSuffix "~meta" (offset + 1)]

/-- The lexemes of suffixes whose text starts at an offset. -/
def lexemesOfAll (offset : Nat) : List Suffix → List Lexeme
  | [] => []
  | suffix :: rest =>
    suffix.lexemes offset ++
      lexemesOfAll (offset + LexicalUnit.byteCount suffix.text.toList) rest

/-- The name under which a suffix is invoked. -/
def name : Suffix → String
  | collecting _ => "~error"
  | apart => "~meta"

/-- The parameters of the invocation. -/
def params : Suffix → List Param
  | collecting (some index) => [.injection index]
  | _ => []

/-- The node of a suffix in a forest. -/
def node (suffix : Suffix) : Param :=
  .validator (.mk suffix.name suffix.params none)

/-! ### Lexemes -/

/-- The text of a suffix starts with a blank. -/
theorem delimited_text (suffix : Suffix) : LexicalUnit.Delimited suffix.text.toList := by
  intro c front
  cases suffix with
  | apart =>
      cases front
      rfl
  | collecting processor =>
      cases processor with
      | none =>
          cases front
          rfl
      | some index =>
          rw [text, String.toList_append, String.toList_append] at front
          cases front
          rfl

/-- The blank and the name that a suffix starts with are scanned, and then what follows the name. -/
theorem scan_name (name : String) (rest : List Char) (offset : Nat)
    (read : LexicalUnit.next ('~' :: (name.toList ++ rest)) = .ok (.suffix name.toList, rest)) :
    LexicalUnit.scan offset (' ' :: '~' :: (name.toList ++ rest)) =
      (LexicalUnit.scan (offset + 1 + LexicalUnit.byteCount ('~' :: name.toList)) rest).map
        ((offset + 1, .suffix name.toList) :: ·) := by
  have blank : ∀ c ∈ [' '], LexicalUnit.isBlank c = true := by simp [LexicalUnit.isBlank]
  rw [← List.singleton_append, LexicalUnit.scan_blanks blank, LexicalUnit.scan_of_next rfl read]
  rfl

/-- The number of a processor is scanned in its parentheses. -/
theorem scan_processor {digits : List Char} (number : Numeral.isDigits digits = true)
    (offset : Nat) :
    LexicalUnit.scan offset ('(' :: '$' :: (digits ++ [')'])) =
      .ok [(offset, .symbol '('), (offset + 1, .symbol '$'), (offset + 2, .number digits),
        (offset + 2 + LexicalUnit.byteCount digits, .symbol ')')] := by
  have read : LexicalUnit.next (digits ++ [')']) = .ok (.number digits, [')']) :=
    LexicalUnit.next_digits number (by simp) (by simp)
  rw [LexicalUnit.scan_of_next rfl (show LexicalUnit.next ('(' :: _) =
      .ok (.symbol '(', '$' :: (digits ++ [')'])) from rfl),
    LexicalUnit.scan_of_next rfl (show LexicalUnit.next ('$' :: _) =
      .ok (.symbol '$', digits ++ [')']) from rfl)]
  cases digits with
  | nil => cases number
  | cons c more =>
      have digit : c.isDigit = true :=
        List.all_eq_true.mp (Bool.and_eq_true_iff.mp number).2 c List.mem_cons_self
      rw [List.cons_append] at read ⊢
      rw [LexicalUnit.scan_of_next (LexicalUnit.isBlank_of_isDigit digit) read,
        LexicalUnit.scan_of_next rfl (show LexicalUnit.next [')'] = .ok (.symbol ')', []) from rfl),
        LexicalUnit.scan_eq]
      rfl

/-- **The lexemes of a suffix.** -/
theorem scan_text (suffix : Suffix) (offset : Nat) :
    Lexeme.Lexes offset suffix.text.toList (suffix.lexemes offset) := by
  cases suffix with
  | apart =>
      refine ⟨[(offset + 1, .suffix "meta".toList)], ?_, rfl⟩
      refine (scan_name "meta" [] offset rfl).trans ?_
      rw [LexicalUnit.scan_eq]
      rfl
  | collecting processor =>
      cases processor with
      | none =>
          refine ⟨[(offset + 1, .suffix "error".toList)], ?_, rfl⟩
          refine (scan_name "error" [] offset rfl).trans ?_
          rw [LexicalUnit.scan_eq]
          rfl
      | some index =>
          have number := Numeral.isDigits_toDigits index
          have whole : (collecting (some index)).text.toList =
              ' ' :: '~' :: ("error".toList ++ '(' :: '$' :: (Nat.toDigits 10 index ++ [')'])) := by
            rw [text, String.toList_append, String.toList_append, Numeral.toList_toString]
            rfl
          have named : toString index = String.ofList (Nat.toDigits 10 index) := by
            rw [← Numeral.toList_toString, String.ofList_toList]
          rw [lexemes, named, String.toList_ofList, whole]
          generalize Nat.toDigits 10 index = digits at number
          refine ⟨[(offset + 1, .suffix "error".toList), (offset + 7, .symbol '('),
            (offset + 8, .symbol '$'), (offset + 9, .number digits),
            (offset + 9 + LexicalUnit.byteCount digits, .symbol ')')], ?_, rfl⟩
          refine (scan_name "error" _ offset rfl).trans ?_
          rw [scan_processor number]
          rfl

/-- Tokenizing a text with a suffix behind it appends the lexemes of the suffix. -/
theorem tokenize_append {text : String} {before : List Lexeme}
    (tokenizes : Lexeme.tokenize text = .ok before) (suffixes : List Suffix) :
    Lexeme.tokenize (text ++ textOfAll suffixes) =
      .ok (before ++ lexemesOfAll (LexicalUnit.byteCount text.toList) suffixes) := by
  induction suffixes generalizing text before with
  | nil =>
      rw [textOfAll, String.append_empty, tokenizes]
      exact congrArg _ (List.append_nil _).symm
  | cons suffix rest ih =>
      have first : Lexeme.tokenize (text ++ suffix.text) =
          .ok (before ++ suffix.lexemes (LexicalUnit.byteCount text.toList)) := by
        rw [Lexeme.tokenize_eq_ok_iff] at tokenizes ⊢
        rw [String.toList_append]
        refine tokenizes.append suffix.delimited_text ?_
        rw [Nat.zero_add]
        exact suffix.scan_text _
      rw [textOfAll, ← String.append_assoc, ih first, lexemesOfAll, List.append_assoc,
        String.toList_append, LexicalUnit.byteCount_append]

/-! ### Nodes -/

open Grammar

/-- The lexemes of suffixes start with a suffix. -/
theorem trailing_lexemesOfAll (suffixes : List Suffix) (offset : Nat) :
    Trailing (lexemesOfAll offset suffixes) := by
  cases suffixes with
  | nil => exact nofun
  | cons suffix rest =>
      intro lexeme front
      cases suffix with
      | apart =>
          cases front
          rfl
      | collecting processor =>
          cases processor <;>
          · cases front
            rfl

/-- No parameters start where a suffix starts. -/
theorem deriveWithin_suffixArgs_trailing {rest : List Lexeme} (trailing : Trailing rest)
    (depth : Nat) (frame : Frame) : deriveWithin depth .suffixArgs frame rest = ⟨none, frame⟩ := by
  cases depth with
  | zero => rfl
  | succ depth =>
      have fails : ∀ frame, deriveToken .leftParen frame rest = ⟨none, frame⟩ := by
        intro frame
        cases rest with
        | nil => rfl
        | cons lexeme rest =>
            have suffix := trailing lexeme rfl
            rw [deriveToken, if_neg]
            intro same
            rw [same] at suffix
            cases suffix
      rw [deriveWithin]
      simp only [RuleName.definition, deriveItems, deriveItem, fails]

/-- A rule with a construct adds what it reduces to. -/
theorem deriveWithin_of_items {depth : Nat} {name : RuleName} {construct : Construct}
    (next : List Lexeme) (nodes : Frame) {frame reduced : Frame} {rest : List Lexeme}
    (constructs : name.definition.construct = some construct)
    (items : deriveItems (deriveWithin depth) name.definition.items [] rest = ⟨some next, nodes⟩)
    (reduces : construct.reduce? nodes frame = some reduced) :
    deriveWithin (depth + 1) name frame rest = ⟨some next, reduced⟩ := by
  rw [deriveWithin, constructs]
  dsimp only
  rw [items]
  dsimp only
  rw [reduces]

/-- A dollar and a number derive to an injection. -/
theorem deriveWithin_injection {index : Nat} (small : index < Nat.pow 2 64)
    (depth first second : Nat) (frame : Frame) (rest : List Lexeme) :
    deriveWithin (depth + 1) .injection frame
      (.ofKind .dollar "$" first :: .ofKind .number (toString index) second :: rest) =
        ⟨some rest, frame ++ [Param.injection index]⟩ := by
  refine deriveWithin_of_items rest [.token (.ofKind .number (toString index) second)] rfl rfl ?_
  have joined : joinValues? [.token (.ofKind .number (toString index) second)] =
      some (toString index) := by
    show some (String.join [toString index]) = _
    rw [String.join_cons, String.join_nil, String.append_empty]
  rw [Construct.reduce?, joined]
  show (Numeral.natural? (toString index)).bind _ = _
  rw [Numeral.natural?_toString small]
  rfl

/-- A number in parentheses derives to the parameter of the suffix before it. -/
theorem deriveWithin_suffixArgs {index : Nat} (small : index < Nat.pow 2 64)
    (depth mark first second third fourth : Nat) (rest : List Lexeme) :
    deriveWithin (depth + 2) .suffixArgs [.token (.ofKind .errorSuffix "~error" mark)]
      (.ofKind .leftParen "(" first :: .ofKind .dollar "$" second ::
        .ofKind .number (toString index) third :: .ofKind .rightParen ")" fourth :: rest) =
      ⟨some rest, [.validator (.mk "~error" [.injection index] none)]⟩ := by
  refine deriveWithin_of_items rest [.injection index] rfl ?_ rfl
  show deriveItems _ [.rule .injection, .token .rightParen] []
    (.ofKind .dollar "$" second :: .ofKind .number (toString index) third ::
      .ofKind .rightParen ")" fourth :: rest) = _
  rw [deriveItems, deriveItem, deriveWithin_injection small]
  rfl

/-- **A suffix derives to its node.** -/
theorem deriveWithin_lexemes {suffix : Suffix} (writable : suffix.Writable) (depth offset : Nat)
    (frame : Frame) {rest : List Lexeme} (trailing : Trailing rest) :
    deriveWithin (depth + 3) .suffix frame (suffix.lexemes offset ++ rest) =
      ⟨some rest, frame ++ [suffix.node]⟩ := by
  cases suffix with
  | apart => rfl
  | collecting processor =>
      cases processor with
      | none =>
          refine deriveWithin_of_items rest
            [.token (.ofKind .errorSuffix "~error" (offset + 1))] rfl ?_
            rfl
          have absent : deriveItems (deriveWithin (depth + 2))
              [.token .errorSuffix, .rule .suffixArgs] []
              (lexemes offset (collecting none) ++ rest) =
                ⟨none, [.token (.ofKind .errorSuffix "~error" (offset + 1))]⟩ := by
            show deriveItems _ [.rule .suffixArgs] _ rest = _
            rw [deriveItems_singleton]
            exact deriveWithin_suffixArgs_trailing trailing (depth + 2) _
          show deriveItems _ [.choice _] [] _ = _
          rw [deriveItems_singleton, deriveItem, deriveChoice, absent]
          rfl
      | some index =>
          refine deriveWithin_of_items rest
            [.validator (.mk "~error" [.injection index] none)] rfl ?_
            rfl
          have alternative : deriveItems (deriveWithin (depth + 2))
              [.token .errorSuffix, .rule .suffixArgs] []
              (lexemes offset (collecting (some index)) ++ rest) =
                ⟨some rest, [.validator (.mk "~error" [.injection index] none)]⟩ := by
            show deriveItems _ [.rule .suffixArgs] _ _ = _
            rw [deriveItems_singleton]
            exact deriveWithin_suffixArgs writable depth _ _ _ _ _ rest
          show deriveItems _ [.choice _] [] _ = _
          rw [deriveItems_singleton, deriveItem, deriveChoice, alternative]

/-- Suffixes derive to their nodes, one after the other. -/
theorem repeatStep_lexemesOfAll {suffixes : List Suffix}
    (writable : ∀ suffix ∈ suffixes, suffix.Writable) {depth : Nat} (deep : 3 ≤ depth) :
    ∀ (offset fuel : Nat) (frame : Frame), (lexemesOfAll offset suffixes).length < fuel →
    repeatStep (deriveWithin depth .suffix) fuel frame (lexemesOfAll offset suffixes) =
      ⟨some [], frame ++ suffixes.map node⟩ := by
  obtain ⟨depth, rfl⟩ := Nat.exists_eq_add_of_le' deep
  induction suffixes with
  | nil =>
      intro offset fuel frame enough
      cases fuel with
      | zero => cases enough
      | succ fuel =>
          rw [lexemesOfAll, repeatStep, deriveWithin_suffix_nil]
          simp
  | cons suffix rest ih =>
      intro offset fuel frame enough
      obtain ⟨first, others⟩ := List.forall_mem_cons.mp writable
      cases fuel with
      | zero => cases enough
      | succ fuel =>
          have positive : 0 < (suffix.lexemes offset).length := by
            cases suffix with
            | apart => exact Nat.one_pos
            | collecting processor => cases processor <;> exact Nat.succ_pos _
          rw [lexemesOfAll] at enough ⊢
          rw [repeatStep,
            deriveWithin_lexemes first depth offset frame (trailing_lexemesOfAll rest _)]
          dsimp only
          rw [List.length_append] at enough ⊢
          rw [if_pos (by omega), ih others _ _ _ (by omega), List.append_assoc]
          rfl

end Suffix

/-- **Suffixes behind the text of a schema add their nodes behind its forest.** -/
theorem Grammar.parse_append_suffixes {text : String} {forest : List Param}
    (parses : parse text = .ok forest) {suffixes : List Suffix}
    (writable : ∀ suffix ∈ suffixes, suffix.Writable) :
    parse (text ++ Suffix.textOfAll suffixes) = .ok (forest ++ suffixes.map Suffix.node) := by
  unfold parse at parses ⊢
  cases tokenizes : Lexeme.tokenize text with
  | error failing =>
      rw [tokenizes] at parses
      cases parses
  | ok lexemes =>
      rw [tokenizes] at parses
      rw [Suffix.tokenize_append tokenizes suffixes]
      exact interpret_append (Suffix.trailing_lexemesOfAll suffixes _) parses
        fun _ _ deep enough => Suffix.repeatStep_lexemesOfAll writable deep _ _ _ enough

end Schemata
