/-
**Lexemes may be cut out of a text and put together again.**

A unit is read from its own spelling, whatever stood behind it. So the lexemes of a text can be cut
between any two units, and the pieces in another order are the lexemes of another text.

* `LexicalUnit.next_spelling`: a unit is read from its spelling alone;
* `Lexeme.Spelled` says that some lexemes are those of units, by their kinds and values;
* `Lexeme.spelled_iff`: these are the lexemes of texts;
* `Lexeme.Spelled.append` and `Lexeme.Spelled.cut`: pieces are put together, and cut apart between
  units;
* `Lexeme.Spelled.reference_of_define`: the name of a definition may be that of a reference.
-/

import Schemata.Proofs.Compilation.Inversion
import Schemata.Proofs.Language.Classification
import Schemata.Proofs.Language.Relocation
import Schemata.Proofs.Language.Spelling

namespace Schemata

/-! ### A unit by itself -/

namespace LexicalUnit

theorem readQuoted_spelling {text rest : List Char} {parts : List QuotedPart}
    (read : readQuoted text = .ok (parts, rest)) :
    readQuoted (parts.flatMap QuotedPart.spelling ++ ['\'']) = .ok (parts, []) := by
  fun_induction readQuoted text generalizing parts rest with
  | case1 => cases read
  | case2 => cases read
  | case3 character more ih =>
      obtain ⟨⟨inner, last⟩, innerRead, same⟩ := map_eq_ok.mp read
      cases same
      rw [List.flatMap_cons, List.append_assoc]
      show readQuoted ('\\' :: character :: (inner.flatMap QuotedPart.spelling ++ ['\''])) = _
      rw [readQuoted, ih innerRead]
      rfl
  | case4 =>
      cases read
      rfl
  | case5 c more single escapes different ih =>
      obtain ⟨⟨inner, last⟩, innerRead, same⟩ := map_eq_ok.mp read
      cases same
      have plain : c ≠ '\\' := by
        rintro rfl
        cases more with
        | nil => exact absurd rfl (single rfl)
        | cons next others => exact absurd rfl (escapes next others rfl)
      rw [spelling_consPlain, List.cons_append, readQuoted, if_neg different, ih innerRead]
      · rfl
      · exact fun same => absurd same plain
      · exact fun _ _ same => absurd same plain

theorem isName_of_readName {make : List Char → LexicalUnit} {text rest : List Char}
    {unit : LexicalUnit} (read : readName make text = .ok (unit, rest)) :
    ∃ name, IsName name ∧ unit = make name := by
  unfold readName at read
  split at read
  · cases read
  · rename_i nonempty
    cases read
    exact ⟨_, ⟨by simpa using nonempty, List.all_eq_true.mp List.all_takeWhile⟩, rfl⟩

theorem isWord_of_readWord {make : List Char → LexicalUnit} {text rest : List Char}
    {unit : LexicalUnit} (read : readWord make text = .ok (unit, rest)) :
    ∃ word, IsWord word ∧ unit = make word := by
  cases text with
  | nil => cases read
  | cons c more =>
      rw [readWord] at read
      split at read
      · rename_i start
        cases read
        have named : isNameChar c = true := by
          obtain letter | underscore : c.isAlpha = true ∨ c = '_' := by
            simpa [isWordStart] using start
          · simp [isNameChar, letter]
          · simp [isNameChar, underscore]
        exact ⟨_, ⟨List.forall_mem_cons.mpr ⟨named, List.all_eq_true.mp List.all_takeWhile⟩, c, rfl,
          start⟩, rfl⟩
      · cases read

/-- A word is read alone. -/
theorem readWord_word {make : List Char → LexicalUnit} {word : List Char} (isWord : IsWord word) :
    readWord make word = .ok (make word, []) := by
  obtain ⟨all, first, front, start⟩ := isWord
  cases word with
  | nil => cases front
  | cons c more =>
      cases front
      obtain ⟨taken, dropped⟩ := takeWhile_of_all (List.forall_mem_cons.mp all).2
      rw [readWord, if_pos start, taken, dropped]

/-- The digits behind a point. -/
theorem exists_decimals (text : List Char) : ∃ decimals, decimals.all Char.isDigit = true ∧
    (splitFraction text).1 = if decimals = [] then [] else '.' :: decimals := by
  unfold splitFraction
  split
  · split
    · exact ⟨[], rfl, rfl⟩
    · rename_i rest nonempty
      exact ⟨rest.takeWhile Char.isDigit,
        List.all_takeWhile, by rw [if_neg (by simpa using nonempty)]⟩
  · exact ⟨[], rfl, rfl⟩

/-- A number is a written one. -/
theorem exists_numberText {negative : Bool} {text rest : List Char} {unit : LexicalUnit}
    (read : readNumber? (if negative then ['-'] else []) text = some (unit, rest)) :
    ∃ digits decimals, Numeral.isDigits digits = true ∧ decimals.all Char.isDigit = true ∧
      unit = .number (WrittenUnit.numberText negative digits decimals) := by
  unfold readNumber? at read
  dsimp only at read
  split at read
  · cases read
  · rename_i nonempty
    cases read
    obtain ⟨decimals, all, fraction⟩ := exists_decimals (text.dropWhile Char.isDigit)
    refine ⟨_, decimals, ?_, all, by rw [WrittenUnit.numberText, fraction]⟩
    rw [Numeral.isDigits, Bool.and_eq_true_iff]
    exact ⟨by simpa using nonempty, List.all_takeWhile⟩

theorem next_symbol {c : Char} (symbol : isSymbol c = true) : next [c] = .ok (.symbol c, []) := by
  obtain rfl | rfl | rfl | rfl | rfl | rfl | rfl | rfl :
      c = '(' ∨ c = ')' ∨ c = ',' ∨ c = ':' ∨ c = '\x7b' ∨ c = '\x7d' ∨ c = '$' ∨ c = '!' := by
    simpa [isSymbol, or_assoc] using symbol
  all_goals rfl

theorem isName_of_next_define {name rest : List Char}
    (read : next ('#' :: name) = .ok (.define name, rest)) : IsName name := by
  have reference : ∀ more, name ≠ '#' :: more := by
    rintro more rfl
    obtain ⟨_, -, same⟩ := isName_of_readName (show readName .reference more = _ from read)
    cases same
  rw [next] at read
  · obtain ⟨_, isName, same⟩ := isName_of_readName read
    cases same
    exact isName
  · exact fun more same => absurd same (reference more)

/-- **A unit is read from its own spelling**, whatever stood behind it. -/
theorem next_spelling {text rest : List Char} {unit : LexicalUnit}
    (read : next text = .ok (unit, rest)) :
    next unit.spelling = .ok (unit, []) := by
  unfold next at read
  split at read
  · obtain ⟨⟨parts, last⟩, inner, same⟩ := map_eq_ok.mp read
    cases same
    show (readQuoted (parts.flatMap QuotedPart.spelling ++ ['\''])).map _ = _
    rw [readQuoted_spelling inner]
    rfl
  · obtain ⟨name, isName, rfl⟩ := isName_of_readName read
    exact next_reference isName
  · obtain ⟨name, isName, rfl⟩ := isName_of_readName read
    exact next_define isName
  · obtain ⟨word, isWord, rfl⟩ := isWord_of_readWord read
    exact readWord_word isWord
  · obtain ⟨word, isWord, rfl⟩ := isWord_of_readWord read
    exact readWord_word isWord
  iterate 6
    · cases read
      rfl
  · split at read
    · rename_i found number
      cases read
      obtain ⟨digits, decimals, whole, fraction, rfl⟩ := @exists_numberText true _ _ _ number
      exact next_number true whole fraction
    · cases read
  · split at read
    · rename_i found number
      cases read
      obtain ⟨digits, decimals, whole, fraction, rfl⟩ := @exists_numberText false _ _ _ number
      exact next_number false whole fraction
    · split at read
      · cases read
      · split at read
        · rename_i symbol
          cases read
          exact next_symbol symbol
        · obtain ⟨word, isWord, rfl⟩ := isWord_of_readWord read
          exact next_word isWord

end LexicalUnit

/-! ### Lexemes of units -/

namespace Lexeme

/-- A lexeme of this kind is the first one of a unit. -/
def startsUnit (kind : TokenKind) : Bool :=
  kind ∉ [.identifier, .text, .quote]

/-- A lexeme of this kind is the last one of a unit. -/
def endsUnit (kind : TokenKind) : Bool :=
  kind ∉ [.define, .reference, .text, .quote]

/-- **Two lexemes may stand in one unit**, one behind the other. -/
def Joined (first second : TokenKind × String) : Prop :=
  endsUnit first.1 = false ∧ startsUnit second.1 = false

theorem isChain_ofQuotedParts (parts : List QuotedPart) : ∀ offset,
    List.IsChain Joined ((ofQuotedParts offset parts).map head) ∧
      ∀ first ∈ ((ofQuotedParts offset parts).map head).head?, startsUnit first.1 = false := by
  induction parts with
  | nil => exact fun offset => ⟨.singleton _, by simp [ofQuotedParts, head, ofKind, startsUnit]⟩
  | cons part parts ih =>
      intro offset
      obtain ⟨chain, starts⟩ := ih (offset + LexicalUnit.byteCount part.spelling)
      have text : (ofQuotedPart offset part).kind = .text := by
        cases part <;> rfl
      rw [ofQuotedParts, List.map_cons]
      refine ⟨List.isChain_cons.mpr ⟨fun second here => ⟨?_, starts second here⟩, chain⟩, ?_⟩
      · rw [head, text]
        rfl
      · rintro _ ⟨⟩
        rw [head, text]
        rfl

/-- The lexemes of a unit may stand in one unit. -/
theorem isChain_ofUnit {offset : Nat} {unit : LexicalUnit} {lexemes : List Lexeme}
    (classifies : ofUnit offset unit = .ok lexemes) : List.IsChain Joined (lexemes.map head) := by
  cases unit with
  | quoted parts =>
      cases classifies
      obtain ⟨chain, starts⟩ := isChain_ofQuotedParts parts (offset + 1)
      exact List.isChain_cons.mpr ⟨fun second here => ⟨rfl, starts second here⟩, chain⟩
  | reference | define =>
      cases classifies
      exact List.isChain_pair.mpr ⟨rfl, rfl⟩
  | suffix | keyword =>
      unfold ofUnit at classifies
      dsimp only at classifies
      split at classifies <;> cases classifies
      exact .singleton _
  | number | operator | symbol | word =>
      cases classifies
      exact .singleton _

theorem heads_ofQuotedParts (parts : List QuotedPart) : ∀ offset other,
    (ofQuotedParts offset parts).map head = (ofQuotedParts other parts).map head := by
  induction parts with
  | nil => exact fun _ _ => rfl
  | cons part parts ih =>
      intro offset other
      rw [ofQuotedParts, ofQuotedParts, List.map_cons, List.map_cons,
        ih _ (other + LexicalUnit.byteCount part.spelling)]
      cases part <;> rfl

/-- A unit has lexemes of the same kinds and values wherever it stands. -/
theorem exists_ofUnit {offset : Nat} {unit : LexicalUnit} {lexemes : List Lexeme}
    (classifies : ofUnit offset unit = .ok lexemes) (other : Nat) :
    ∃ others, ofUnit other unit = .ok others ∧ others.map head = lexemes.map head := by
  cases unit with
  | quoted parts =>
      cases classifies
      refine ⟨_, rfl, ?_⟩
      rw [List.map_cons, List.map_cons, heads_ofQuotedParts parts _ (offset + 1)]
      rfl
  | suffix | keyword =>
      unfold ofUnit at classifies ⊢
      dsimp only at classifies ⊢
      split at classifies <;> cases classifies
      exact ⟨_, rfl, rfl⟩
  | word text =>
      cases classifies
      refine ⟨_, rfl, ?_⟩
      unfold ofWord
      split
      · rfl
      · split <;> rfl
  | reference | define | number | operator | symbol =>
      cases classifies
      exact ⟨_, rfl, rfl⟩

/-! ### Lexemes of texts -/

/-- **Some kinds and values are those of the lexemes of units**, which are read from their own
spellings. -/
inductive Spelled : List (TokenKind × String) → Prop
  | nil : Spelled []
  | unit {unit : LexicalUnit} {offset : Nat} {lexemes : List Lexeme}
      {rest : List (TokenKind × String)}
      (read : LexicalUnit.next unit.spelling = .ok (unit, []))
      (classifies : ofUnit offset unit = .ok lexemes)
      (later : Spelled rest) : Spelled (lexemes.map head ++ rest)

/-- A text of spelled lexemes, wherever it stands. -/
theorem Spelled.exists_lexes {heads : List (TokenKind × String)} (spelled : Spelled heads) :
    ∀ offset, ∃ text lexemes, Lexes offset text lexemes ∧ lexemes.map head = heads := by
  induction spelled with
  | nil => exact fun _ => ⟨[], [], .nil, rfl⟩
  | @unit unit _ lexemes rest read classifies _ ih =>
      intro offset
      obtain ⟨own, ownClassifies, same⟩ := exists_ofUnit classifies offset
      obtain ⟨text, others, lexes, sameRest⟩ :=
        ih (offset + LexicalUnit.byteCount unit.spelling + 1)
      have delimited : LexicalUnit.Delimited (' ' :: text) := by
        rintro _ ⟨⟩
        rfl
      have reads := LexicalUnit.next_append delimited read
      rw [List.nil_append] at reads
      refine ⟨unit.spelling ++ ' ' :: text, own ++ others,
        .unit reads ownClassifies (.space lexes), ?_⟩
      rw [List.map_append, same, sameRest]

/-- The lexemes of scanned units are spelled. -/
theorem spelled_of_ofUnits {units : List (Nat × LexicalUnit)} {lexemes : List Lexeme}
    (reads : ∀ unit ∈ units, LexicalUnit.next unit.2.spelling = .ok (unit.2, []))
    (classifies : ofUnits units = .ok lexemes) : Spelled (lexemes.map head) := by
  induction units generalizing lexemes with
  | nil =>
      cases classifies
      exact .nil
  | cons unit units ih =>
      obtain ⟨here, later⟩ := List.forall_mem_cons.mp reads
      rw [ofUnits] at classifies
      obtain ⟨own, first, inner⟩ := bind_eq_ok.mp classifies
      obtain ⟨others, second, same⟩ := bind_eq_ok.mp inner
      cases same
      rw [List.map_append]
      exact .unit here first (ih later second)

/-- **Spelled lexemes are those of texts**, by their kinds and values. -/
theorem spelled_iff {heads : List (TokenKind × String)} :
    Spelled heads ↔ ∃ text lexemes, tokenize text = .ok lexemes ∧ lexemes.map head = heads := by
  constructor
  · intro spelled
    obtain ⟨text, lexemes, lexes, same⟩ := spelled.exists_lexes 0
    refine ⟨String.ofList text, lexemes, ?_, same⟩
    rw [tokenize_eq_ok_iff, String.toList_ofList]
    exact lexes
  · rintro ⟨text, lexemes, tokenizes, rfl⟩
    obtain ⟨units, scans, classifies⟩ := tokenize_eq_ok_iff.mp tokenizes
    exact spelled_of_ofUnits (fun unit member => by
      obtain ⟨_, _, read⟩ := LexicalUnit.scan_reads scans unit member
      exact LexicalUnit.next_spelling read) classifies

namespace Spelled

variable {first second : List (TokenKind × String)}

/-- **Pieces may be put together.** -/
theorem append (spelled : Spelled first) (later : Spelled second) : Spelled (first ++ second) := by
  induction spelled with
  | nil => exact later
  | unit read classifies _ ih =>
      rw [List.append_assoc]
      exact .unit read classifies ih

/-- **Lexemes may be cut** where one that ends a unit or one that starts a unit stands. -/
theorem cut (spelled : Spelled (first ++ second))
    (apart : ∀ last ∈ first.getLast?, ∀ next ∈ second.head?, ¬Joined last next) :
    Spelled first ∧ Spelled second := by
  generalize whole : first ++ second = heads at spelled
  induction spelled generalizing first with
  | nil =>
      obtain ⟨rfl, rfl⟩ := List.append_eq_nil_iff.mp whole
      exact ⟨.nil, .nil⟩
  | @unit unit offset lexemes rest read classifies later ih =>
      rcases List.append_eq_append_iff.mp whole with ⟨inner, same, rfl⟩ | ⟨more, rfl, behind⟩
      · -- the cut would be inside the unit
        rcases List.eq_nil_or_concat first with rfl | ⟨_, last, rfl⟩
        · rw [List.nil_append] at same
          exact ⟨.nil, same ▸ .unit read classifies later⟩
        · cases inner with
          | nil =>
              have alone := Spelled.unit read classifies .nil
              rw [List.append_nil] at alone same
              exact ⟨same ▸ alone, later⟩
          | cons next inner =>
              have chain := isChain_ofUnit classifies
              rw [same, List.isChain_append] at chain
              have joined := chain.2.2 last (by simp) next rfl
              exact absurd joined (apart last (by simp) next rfl)
      · obtain ⟨inside, spelled⟩ := ih
          (fun last ends => apart last (List.mem_getLast?_append_of_mem_getLast? ends)) behind.symm
        exact ⟨.unit read classifies inside, spelled⟩

end Spelled

/-! ### Definitions and commas -/

/-- **Only a definition and a comma start** with the lexemes of these kinds. -/
theorem unit_of_kind {offset : Nat} {unit : LexicalUnit} {first : Lexeme} {rest : List Lexeme}
    (classifies : ofUnit offset unit = .ok (first :: rest)) :
    (first.kind = .define → ∃ name, unit = .define name) ∧
      (first.kind = .comma → unit = .symbol ',') := by
  have keywords : ∀ keyword ∈ Keyword.table, keyword.kind ≠ .define ∧
      keyword.kind ≠ .comma := by decide
  cases unit with
  | define name =>
      cases classifies
      exact ⟨fun _ => ⟨name, rfl⟩, nofun⟩
  | suffix word | keyword word =>
      unfold ofUnit at classifies
      dsimp only at classifies
      split at classifies
      · rename_i keyword found
        cases classifies
        obtain ⟨define, comma⟩ := keywords keyword (List.mem_of_find?_eq_some found)
        exact ⟨fun same => absurd same define, fun same => absurd same comma⟩
      · cases classifies
  | word text =>
      cases classifies
      unfold ofWord
      split
      · exact ⟨nofun, nofun⟩
      · split
        · rename_i keyword found
          obtain ⟨define, comma⟩ := keywords keyword (List.mem_of_find?_eq_some found)
          exact ⟨fun same => absurd same define, fun same => absurd same comma⟩
        · exact ⟨nofun, nofun⟩
  | symbol character =>
      cases classifies
      show (symbolKind character = .define → _) ∧ (symbolKind character = .comma → _)
      unfold symbolKind
      by_cases comma : character = ','
      · subst comma
        exact ⟨nofun, fun _ => rfl⟩
      · rw [if_neg comma]
        grind
  | quoted | reference | number | operator =>
      cases classifies
      exact ⟨nofun, nofun⟩

/-- A unit has lexemes. -/
theorem ofUnit_ne_nil {offset : Nat} {unit : LexicalUnit} : ofUnit offset unit ≠ .ok [] := by
  intro empty
  cases unit with
  | suffix | keyword =>
      unfold ofUnit at empty
      dsimp only at empty
      split at empty <;> cases empty
  | quoted | reference | define | number | operator | symbol | word => cases empty

namespace Spelled

/-- Spelled lexemes start with those of a unit. -/
theorem exists_unit {first : TokenKind × String} {rest : List (TokenKind × String)}
    (spelled : Spelled (first :: rest)) :
    ∃ unit offset lexeme lexemes more, LexicalUnit.next unit.spelling = .ok (unit, []) ∧
      ofUnit offset unit = .ok (lexeme :: lexemes) ∧ first = lexeme.head ∧
      rest = lexemes.map head ++ more := by
  generalize whole : first :: rest = heads at spelled
  cases spelled with
  | nil => cases whole
  | @unit unit offset lexemes more read classifies _ =>
      cases lexemes with
      | nil => exact absurd classifies ofUnit_ne_nil
      | cons lexeme lexemes =>
          obtain ⟨rfl, rfl⟩ := List.cons.inj whole
          exact ⟨unit, offset, lexeme, lexemes, more, read, classifies, rfl, rfl⟩

theorem eq_of_comma {value : String} {rest : List (TokenKind × String)}
    (spelled : Spelled ((.comma, value) :: rest)) : value = "," := by
  obtain ⟨unit, offset, lexeme, lexemes, more, -, classifies, same, -⟩ := spelled.exists_unit
  cases (unit_of_kind classifies).2 (congrArg Prod.fst same).symm
  cases classifies
  exact congrArg Prod.snd same

/-- **What can be defined can be referred to.** -/
theorem reference_of_define {value name : String} {rest : List (TokenKind × String)}
    (spelled : Spelled ((.define, value) :: (.identifier, name) :: rest)) :
    Spelled [(.reference, "reference"), (.identifier, name)] := by
  obtain ⟨unit, offset, lexeme, lexemes, more, read, classifies, same, behind⟩ :=
    spelled.exists_unit
  obtain ⟨letters, rfl⟩ := (unit_of_kind classifies).1 (congrArg Prod.fst same).symm
  cases classifies
  cases behind
  have reads :
      LexicalUnit.next (LexicalUnit.reference letters).spelling = .ok (.reference letters, []) :=
    LexicalUnit.next_reference (LexicalUnit.isName_of_next_define read)
  exact @Spelled.unit (.reference letters) 0 _ [] reads rfl .nil

end Spelled

end Lexeme

end Schemata
