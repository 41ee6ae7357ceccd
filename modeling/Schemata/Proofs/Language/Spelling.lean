/-
**Lexemes are read as they are written.**

* `WrittenUnit` lists the units of a schema text, with every way to spell them, and
  `WrittenUnit.Yields` the lexemes that they stand for;
* `LexicalUnit.readQuoted_escaped`: a quoted text is read back, whatever it holds;
* `Lexeme.tokenize_written`: units with blanks between them yield their lexemes, each in its place.
-/

import Mathlib
import Schemata.Proofs.Language.Suffix

namespace Schemata

/-! ### Units as they are written -/

/-- **The spellings of a keyword.** A suffix has two; any other keyword may stand behind an `@` in
its long or its short form, and in its long form alone. -/
def Keyword.spellings (keyword : Keyword) : List String :=
  if keyword.isSuffix then [keyword.long, keyword.short]
  else ["@" ++ keyword.long, "@" ++ keyword.short, keyword.long]

namespace LexicalUnit

/-- The words that are constants. -/
def constants : List String :=
  ["true", "false", "null"]

/-- The characters that are units by themselves, with their kinds. -/
def symbols : List (Char × TokenKind) :=
  [('(', .leftParen), (')', .rightParen), (',', .comma), (':', .colon), ('\x7b', .leftBrace),
    ('\x7d', .rightBrace), ('$', .dollar), ('!', .bang)]

/-- Some characters are a name. -/
def IsName (text : List Char) : Prop :=
  text ≠ [] ∧ ∀ c ∈ text, isNameChar c = true

/-- Some characters are a word: a name that starts with no digit. -/
def IsWord (text : List Char) : Prop :=
  (∀ c ∈ text, isNameChar c = true) ∧ ∃ c ∈ text.head?, isWordStart c = true

/-- **The characters of a quoted text.** There is a backslash before each backslash and each
quote. -/
def escaped (content : List Char) : List Char :=
  content.flatMap fun c => if c = '\\' ∨ c = '\'' then ['\\', c] else [c]

end LexicalUnit

open LexicalUnit (constants symbols IsName IsWord escaped Delimited isBlank)

/-- **A unit of a schema text, with the way in which it is written.** -/
inductive WrittenUnit where
  | keyword (entry : Keyword) (listed : entry ∈ Keyword.table) (spelling : String)
      (spelled : spelling ∈ entry.spellings)
  | constant (word : String) (listed : word ∈ constants)
  | identifier (word : String) (isWord : IsWord word.toList) (other : word ∉ constants)
      (free : ∀ keyword ∈ Keyword.table, keyword.long ≠ word)
  | number (negative : Bool) (digits decimals : List Char) (whole : Numeral.isDigits digits = true)
      (fraction : decimals.all Char.isDigit = true)
  | operator (relation : Relation)
  | symbol (character : Char) (kind : TokenKind) (listed : (character, kind) ∈ symbols)
  | define (name : String) (isName : IsName name.toList)
  | reference (name : String) (isName : IsName name.toList)
  | quoted (content : String)

/-- The kind and the value of a lexeme. -/
def Lexeme.head (lexeme : Lexeme) : TokenKind × String :=
  (lexeme.kind, lexeme.value)

namespace WrittenUnit

/-- The text of a number. -/
def numberText (negative : Bool) (digits decimals : List Char) : List Char :=
  (if negative then ['-'] else []) ++ digits ++ (if decimals = [] then [] else '.' :: decimals)

/-- **How a unit is written.** -/
def spelling : WrittenUnit → List Char
  | keyword _ _ spelling _ => spelling.toList
  | constant word _ | identifier word _ _ _ => word.toList
  | number negative digits decimals _ _ => numberText negative digits decimals
  | operator relation => relation.symbol.toList
  | symbol character _ _ => [character]
  | define name _ => '#' :: name.toList
  | reference name _ => '#' :: '#' :: name.toList
  | quoted content => '\'' :: (escaped content.toList ++ ['\''])

/-- **The lexemes that a unit stands for.** A quoted text has any number of runs between its
quotes. -/
def Yields : WrittenUnit → List (TokenKind × String) → Prop
  | keyword entry _ _ _, heads => heads = [(entry.kind, entry.long)]
  | constant word _, heads => heads = [(.constant, word)]
  | identifier word _ _ _, heads => heads = [(.identifier, word)]
  | number negative digits decimals _ _, heads =>
    heads = [(.number, String.ofList (numberText negative digits decimals))]
  | operator relation, heads => heads = [(.operator, relation.symbol)]
  | symbol character kind _, heads => heads = [(kind, character.toString)]
  | define name _, heads => heads = [(.define, "define"), (.identifier, name)]
  | reference name _, heads => heads = [(.reference, "reference"), (.identifier, name)]
  | quoted content, heads => ∃ runs : List String, String.join runs = content ∧
    heads = (.quote, "'") :: (runs.map fun run => (.text, run)) ++ [(.quote, "'")]

/-- **A text made of units**: some blanks, and each unit with the blanks behind it. -/
def text (blanks : List Char) (units : List (WrittenUnit × List Char)) : List Char :=
  blanks ++ units.flatMap fun unit => unit.1.spelling ++ unit.2

end WrittenUnit

/-! ### Quoted text -/

/-- What a part of a quoted text stands for. -/
def QuotedPart.content : QuotedPart → List Char
  | run characters => characters
  | escape character => (Lexeme.unescape character).toList

namespace LexicalUnit

theorem content_consPlain (c : Char) (parts : List QuotedPart) :
    (consPlain c parts).flatMap QuotedPart.content = c :: parts.flatMap QuotedPart.content := by
  unfold consPlain
  split <;> rfl

/-- **A quoted text is read back.** -/
theorem readQuoted_escaped (content rest : List Char) : ∃ parts,
    readQuoted (escaped content ++ '\'' :: rest) = .ok (parts, rest) ∧
      parts.flatMap QuotedPart.content = content := by
  induction content with
  | nil => exact ⟨[], rfl, rfl⟩
  | cons c content ih =>
      obtain ⟨parts, read, whole⟩ := ih
      by_cases special : c = '\\' ∨ c = '\''
      · have same : escaped (c :: content) = '\\' :: c :: escaped content := by
          simp [escaped, special]
        refine ⟨.escape c :: parts, ?_, ?_⟩
        · rw [same, List.cons_append, List.cons_append, readQuoted, read]
          rfl
        · rw [List.flatMap_cons, whole]
          rcases special with rfl | rfl <;> rfl
      · have same : escaped (c :: content) = c :: escaped content := by
          simp [escaped, special]
        obtain ⟨backslash, quote⟩ := not_or.mp special
        refine ⟨consPlain c parts, ?_, by rw [content_consPlain, whole]⟩
        rw [same, List.cons_append, readQuoted, if_neg quote, read]
        · rfl
        · exact fun same => absurd same backslash
        · exact fun _ _ same => absurd same backslash

end LexicalUnit

namespace Lexeme

/-- The parts of a quoted text are texts in front of the closing quote. -/
theorem ofQuotedParts_spec (parts : List QuotedPart) :
    ∀ offset, ∃ (runs : List Lexeme) (last : Nat),
    ofQuotedParts offset parts = runs ++ [ofKind .quote "'" last] ∧
      (∀ run ∈ runs, run.kind = .text ∧ run.carriesValue = true) ∧
      (runs.map Lexeme.value).flatMap String.toList = parts.flatMap QuotedPart.content := by
  induction parts with
  | nil => exact fun offset => ⟨[], offset, rfl, nofun, rfl⟩
  | cons part parts ih =>
      intro offset
      obtain ⟨runs, last, same, texts, whole⟩ := ih (offset + LexicalUnit.byteCount part.spelling)
      refine ⟨ofQuotedPart offset part :: runs, last, by rw [ofQuotedParts, same]; rfl, ?_, ?_⟩
      · exact List.forall_mem_cons.mpr ⟨by cases part <;> exact ⟨rfl, rfl⟩, texts⟩
      · rw [List.map_cons, List.flatMap_cons, List.flatMap_cons, whole]
        congr 1
        cases part with
        | run characters => exact String.toList_ofList
        | escape character => rfl

end Lexeme

/-! ### Units -/

namespace LexicalUnit

theorem next_define {name : List Char} (isName : IsName name) :
    next ('#' :: name) = .ok (.define name, []) := by
  obtain ⟨taken, dropped⟩ := takeWhile_of_all isName.2
  have read : readName .define name = .ok (.define name, []) := by
    rw [readName, taken, dropped, if_neg (by simpa using isName.1)]
  rw [next]
  · exact read
  · rintro more rfl
    cases isName.2 '#' List.mem_cons_self

theorem next_reference {name : List Char} (isName : IsName name) :
    next ('#' :: '#' :: name) = .ok (.reference name, []) := by
  obtain ⟨taken, dropped⟩ := takeWhile_of_all isName.2
  show readName .reference name = _
  rw [readName, taken, dropped, if_neg (by simpa using isName.1)]

/-- A word starts with no digit and with no symbol. -/
theorem isWordStart_spec {c : Char} (start : isWordStart c = true) :
    c.isDigit = false ∧ isSymbol c = false := by
  constructor
  · obtain letter | rfl : c.isAlpha = true ∨ c = '_' := by simpa [isWordStart] using start
    · grind [Char.isAlpha, Char.isUpper, Char.isLower, Char.isDigit]
    · rfl
  · rw [Bool.eq_false_iff]
    intro symbol
    obtain rfl | rfl | rfl | rfl | rfl | rfl | rfl | rfl :
        c = '(' ∨ c = ')' ∨ c = ',' ∨ c = ':' ∨ c = '\x7b' ∨ c = '\x7d' ∨ c = '$' ∨ c = '!' := by
      simpa [isSymbol, or_assoc] using symbol
    all_goals cases start

/-- A word is read as one. -/
theorem next_word {text : List Char} (isWord : IsWord text) : next text = .ok (.word text, []) := by
  obtain ⟨all, first, front, start⟩ := isWord
  cases text with
  | nil => cases front
  | cons c more =>
      cases front
      obtain ⟨digit, symbol⟩ := isWordStart_spec start
      obtain ⟨taken, dropped⟩ := takeWhile_of_all (List.forall_mem_cons.mp all).2
      have none : readNumber? [] (first :: more) = none := by
        simp [readNumber?, digit]
      rw [next, none]
      · dsimp only
        rw [if_neg (by simp [symbol]), readWord, if_pos start, taken, dropped]
      all_goals
        intro later same
        obtain ⟨rfl, -⟩ := List.cons.inj same
        cases start

/-- A number is read with its sign and its decimals. -/
theorem next_number (negative : Bool) {digits decimals : List Char}
    (whole : Numeral.isDigits digits = true) (fraction : decimals.all Char.isDigit = true) :
    next (WrittenUnit.numberText negative digits decimals) =
      .ok (.number (WrittenUnit.numberText negative digits decimals), []) := by
  generalize behind : (if decimals = [] then [] else '.' :: decimals) = tail
  have stops : ∀ c ∈ tail.head?, c.isDigit = false := by
    subst behind
    split <;> intro c first <;> cases first
    rfl
  have split : splitFraction tail = (tail, []) := by
    subst behind
    split
    · rfl
    · rename_i decimal
      obtain ⟨taken, dropped⟩ := takeWhile_of_all (List.all_eq_true.mp fraction)
      rw [splitFraction, taken, dropped, if_neg (by simpa using decimal)]
  have read := readNumber?_digits whole stops
  simp only [split] at read
  unfold WrittenUnit.numberText
  rw [behind]
  cases negative with
  | true =>
      show next ('-' :: (digits ++ tail)) = .ok (.number ('-' :: (digits ++ tail)), [])
      rw [next, read]
      rfl
  | false => exact next_of_readNumber? whole (read [])

end LexicalUnit

namespace WrittenUnit

/-- A unit is read as some lexical unit, whose lexemes are those that it stands for. -/
def Reads (written : WrittenUnit) : Prop :=
  ∃ unit, LexicalUnit.next written.spelling = .ok (unit, []) ∧
    ∀ offset, ∃ lexemes, Lexeme.ofUnit offset unit = .ok lexemes ∧
      written.Yields (lexemes.map Lexeme.head)

theorem reads_keyword (entry : Keyword) (listed : entry ∈ Keyword.table) (spelling : String)
    (spelled : spelling ∈ entry.spellings) : Reads (keyword entry listed spelling spelled) := by
  have all : ∀ entry ∈ Keyword.table, ∀ spelling ∈ entry.spellings, ∃ unit,
      LexicalUnit.next spelling.toList = .ok (unit, []) ∧
        ∀ offset, Lexeme.ofUnit offset unit = .ok [.ofKind entry.kind entry.long offset] := by
    intro entry listed spelling spelled
    simp only [Keyword.table, List.mem_cons, List.not_mem_nil, or_false] at listed
    rcases listed with rfl | rfl | rfl | rfl | rfl | rfl | rfl | rfl | rfl | rfl | rfl | rfl | rfl |
      rfl | rfl | rfl <;>
    · simp +decide only [Keyword.spellings, if_true, if_false, List.mem_cons, List.not_mem_nil,
        or_false] at spelled
      rcases spelled with rfl | rfl | rfl <;> exact ⟨_, rfl, fun _ => rfl⟩
  obtain ⟨unit, read, classified⟩ := all entry listed spelling spelled
  exact ⟨unit, read, fun offset => ⟨_, classified offset, rfl⟩⟩

/-- A word that is no constant and no keyword is an identifier. -/
theorem ofWord_identifier {word : String} (other : word ∉ constants)
    (free : ∀ keyword ∈ Keyword.table, keyword.long ≠ word) (offset : Nat) :
    Lexeme.ofWord offset word = .ofKind .identifier word offset := by
  have plain : ¬(word = "true" ∨ word = "false" ∨ word = "null") := by
    simpa [LexicalUnit.constants] using other
  have unknown : Keyword.findLong? word = none := by
    rw [Keyword.findLong?, List.find?_eq_none]
    exact fun keyword member => by simpa using free keyword member
  rw [Lexeme.ofWord, if_neg plain, unknown]

theorem reads_quoted (content : String) : Reads (quoted content) := by
  obtain ⟨parts, read, whole⟩ := LexicalUnit.readQuoted_escaped content.toList []
  refine ⟨.quoted parts, ?_, fun offset => ?_⟩
  · show (LexicalUnit.readQuoted (escaped content.toList ++ ['\''])).map _ = _
    rw [read]
    rfl
  · obtain ⟨runs, last, same, texts, joined⟩ := Lexeme.ofQuotedParts_spec parts (offset + 1)
    refine ⟨_, rfl, runs.map Lexeme.value, ?_, ?_⟩
    · rw [← String.toList_inj, String.toList_join, joined, whole]
    · have heads : runs.map Lexeme.head = (runs.map Lexeme.value).map fun run => (.text, run) := by
        rw [List.map_map]
        exact List.map_congr_left fun run member => Prod.ext (texts run member).1 rfl
      rw [same, List.map_cons, List.map_append, heads]
      rfl

/-- **Every unit is read as it is written.** -/
theorem reads : (written : WrittenUnit) → written.Reads
  | keyword entry listed spelling spelled => reads_keyword entry listed spelling spelled
  | constant word listed => by
      obtain rfl | rfl | rfl : word = "true" ∨ word = "false" ∨ word = "null" := by
        simpa [LexicalUnit.constants] using listed
      all_goals exact ⟨_, rfl, fun _ => ⟨_, rfl, rfl⟩⟩
  | identifier word isWord other free => by
      refine ⟨_, LexicalUnit.next_word isWord, fun offset => ⟨_, rfl, ?_⟩⟩
      rw [spelling, String.ofList_toList, ofWord_identifier other free]
      rfl
  | number negative digits decimals whole fraction =>
      ⟨_, LexicalUnit.next_number negative whole fraction, fun _ => ⟨_, rfl, rfl⟩⟩
  | operator relation => by
      cases relation <;> exact ⟨_, rfl, fun _ => ⟨_, rfl, rfl⟩⟩
  | symbol character kind listed => by
      simp only [LexicalUnit.symbols, List.mem_cons, List.not_mem_nil, or_false,
        Prod.mk.injEq] at listed
      obtain ⟨rfl, rfl⟩ | ⟨rfl, rfl⟩ | ⟨rfl, rfl⟩ | ⟨rfl, rfl⟩ | ⟨rfl, rfl⟩ | ⟨rfl, rfl⟩ |
        ⟨rfl, rfl⟩ | ⟨rfl, rfl⟩ := listed
      all_goals exact ⟨_, rfl, fun _ => ⟨_, rfl, rfl⟩⟩
  | define name isName => by
      refine ⟨_, LexicalUnit.next_define isName, fun offset => ⟨_, rfl, ?_⟩⟩
      rw [String.ofList_toList]
      rfl
  | reference name isName => by
      refine ⟨_, LexicalUnit.next_reference isName, fun offset => ⟨_, rfl, ?_⟩⟩
      rw [String.ofList_toList]
      rfl
  | quoted content => reads_quoted content

end WrittenUnit

/-! ### Texts -/

/-- Units with blanks behind them have their lexemes, wherever they stand. -/
theorem WrittenUnit.lexes_text {units : List (WrittenUnit × List Char)}
    (blank : ∀ unit ∈ units, ∀ c ∈ unit.2, isBlank c = true)
    (separate : ∀ unit ∈ units.dropLast, unit.2 ≠ []) : ∀ offset,
    ∃ lexemes : List (List Lexeme), Lexeme.Lexes offset (text [] units) lexemes.flatten ∧
      List.Forall₂ (fun unit lexemes => unit.1.Yields (lexemes.map Lexeme.head)) units lexemes := by
  induction units with
  | nil => exact fun _ => ⟨[], .nil, .nil⟩
  | cons first rest ih =>
      intro offset
      obtain ⟨written, gap⟩ := first
      obtain ⟨gapBlank, restBlank⟩ := List.forall_mem_cons.mp blank
      obtain ⟨unit, read, classified⟩ := written.reads
      obtain ⟨own, ownClassified, yields⟩ := classified offset
      have delimited : Delimited (gap ++ text [] rest) := by
        intro c front
        cases gap with
        | cons blank more =>
            cases front
            simp [LexicalUnit.isDelimiter, gapBlank _ List.mem_cons_self]
        | nil =>
            cases rest with
            | nil => cases front
            | cons next others => exact absurd rfl (separate (written, []) List.mem_cons_self)
      have restSeparate : ∀ unit ∈ rest.dropLast, unit.2 ≠ [] := by
        intro unit member
        cases rest with
        | nil => cases member
        | cons next others => exact separate unit (List.mem_cons_of_mem _ member)
      obtain ⟨others, lexes, yield⟩ := ih restBlank restSeparate
        (offset + LexicalUnit.byteCount written.spelling + LexicalUnit.byteCount gap)
      have whole :
          text [] ((written, gap) :: rest) = written.spelling ++ (gap ++ text [] rest) := by
        simp [text]
      refine ⟨own :: others, ?_, .cons yields yield⟩
      rw [whole, List.flatten_cons]
      exact .unit (LexicalUnit.next_append delimited read) ownClassified (.blanks gapBlank lexes)

/-- **Units that are written with blanks between them yield their lexemes**, each in its place,
whatever blanks stand around them. -/
theorem Lexeme.tokenize_written {blanks : List Char} {units : List (WrittenUnit × List Char)}
    (before : ∀ c ∈ blanks, isBlank c = true)
    (behind : ∀ unit ∈ units, ∀ c ∈ unit.2, isBlank c = true)
    (separate : ∀ unit ∈ units.dropLast, unit.2 ≠ []) :
    ∃ lexemes : List (List Lexeme),
      tokenize (String.ofList (WrittenUnit.text blanks units)) = .ok lexemes.flatten ∧
      List.Forall₂ (fun unit lexemes => unit.1.Yields (lexemes.map head)) units lexemes := by
  obtain ⟨lexemes, lexes, yield⟩ :=
    WrittenUnit.lexes_text behind separate (0 + LexicalUnit.byteCount blanks)
  refine ⟨lexemes, ?_, yield⟩
  rw [tokenize_eq_ok_iff, String.toList_ofList]
  exact .blanks before lexes

/-- A quoted text with a quote in it, a keyword in its short form and a number. -/
theorem tokenize_written_quote :
    ∃ (blanks : List Char) (units : List (WrittenUnit × List Char)),
      ((∀ c ∈ blanks, isBlank c = true) ∧ (∀ unit ∈ units, ∀ c ∈ unit.2, isBlank c = true) ∧
        ∀ unit ∈ units.dropLast, unit.2 ≠ []) ∧
      String.ofList (WrittenUnit.text blanks units) = "\t'it\\'s' @n\n-1.5" ∧
      ∃ lexemes : List (List Lexeme),
        Lexeme.tokenize (String.ofList (WrittenUnit.text blanks units)) = .ok lexemes.flatten ∧
        List.Forall₂ (fun unit lexemes => unit.1.Yields (lexemes.map Lexeme.head)) units
          lexemes := by
  have listed : ⟨"number", "n", .primitive⟩ ∈ Keyword.table := by simp [Keyword.table]
  have spelled : "@n" ∈ Keyword.spellings ⟨"number", "n", .primitive⟩ := .tail _ (.head _)
  let units : List (WrittenUnit × List Char) :=
    [(.quoted "it's", [' ']), (.keyword _ listed "@n" spelled, ['\n']),
      (.number true ['1'] ['5'] rfl rfl, [])]
  have before : ∀ c ∈ ['\t'], isBlank c = true := by
    simp [LexicalUnit.isBlank]
  have behind : ∀ unit ∈ units, ∀ c ∈ unit.2, isBlank c = true := by
    simp [units, LexicalUnit.isBlank]
  have separate : ∀ unit ∈ units.dropLast, unit.2 ≠ [] := by
    simp [units]
  exact ⟨['\t'], units, ⟨before, behind, separate⟩, rfl,
    Lexeme.tokenize_written before behind separate⟩

end Schemata
