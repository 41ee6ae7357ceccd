/-
**Every character of a text belongs to one lexeme, or is a blank between lexemes.**

The lexemes of a text stand in it one after the other, each spelled from its offset on. Blanks may
stand in front of a lexeme, but not behind the `#` of a name and not inside quotes, where they are a
part of the text.

* `Lexeme.Spells` lists the spellings of a lexeme, and `Lexeme.Covers` says that lexemes and blanks
  make up a text;
* `LexicalUnit.next_shaped`: what is known of the parts of a unit that is read;
* `Lexeme.Covers.unit`: the lexemes of a unit cover its spelling;
* `Lexeme.tokenize_covers`: so the lexemes of a text cover it, at increasing offsets between its
  characters.
-/

import Schemata.Proofs.Language.Assembly

namespace Schemata

/-! ### Shapes of units -/

/-- A run is not empty, and nothing in it would end the quoted text or start an escape. -/
def QuotedPart.IsRaw : QuotedPart → Prop
  | run characters => characters ≠ [] ∧ ∀ c ∈ characters, c ≠ '\'' ∧ c ≠ '\\'
  | escape _ => True

namespace LexicalUnit

/-- What a unit is made of. -/
def Shaped : LexicalUnit → Prop
  | quoted parts => ∀ part ∈ parts, part.IsRaw
  | reference name | define name => name ≠ []
  | keyword letters => letters.head? ≠ some '~'
  | _ => True

theorem consPlain_raw {c : Char} {parts : List QuotedPart} (plain : c ≠ '\'' ∧ c ≠ '\\')
    (raw : ∀ part ∈ parts, part.IsRaw) : ∀ part ∈ consPlain c parts, part.IsRaw := by
  unfold consPlain
  split
  · obtain ⟨⟨-, run⟩, others⟩ := List.forall_mem_cons.mp raw
    exact List.forall_mem_cons.mpr
      ⟨⟨List.cons_ne_nil _ _, List.forall_mem_cons.mpr ⟨plain, run⟩⟩, others⟩
  · exact List.forall_mem_cons.mpr
      ⟨⟨List.cons_ne_nil _ _, List.forall_mem_singleton.mpr plain⟩, raw⟩

theorem raw_of_readQuoted {text rest : List Char} {parts : List QuotedPart}
    (read : readQuoted text = .ok (parts, rest)) : ∀ part ∈ parts, part.IsRaw := by
  fun_induction readQuoted text generalizing parts rest with
  | case1 => cases read
  | case2 => cases read
  | case3 character more ih =>
      obtain ⟨⟨inner, last⟩, innerRead, same⟩ := map_eq_ok.mp read
      cases same
      exact List.forall_mem_cons.mpr ⟨trivial, ih innerRead⟩
  | case4 =>
      cases read
      exact List.forall_mem_nil _
  | case5 c more single escapes different ih =>
      obtain ⟨⟨inner, last⟩, innerRead, same⟩ := map_eq_ok.mp read
      cases same
      have plain : c ≠ '\\' := by
        rintro rfl
        cases more with
        | nil => exact absurd rfl (single rfl)
        | cons next others => exact absurd rfl (escapes next others rfl)
      exact consPlain_raw ⟨different, plain⟩ (ih innerRead)

/-- A word does not start with the mark of a suffix. -/
theorem IsWord.head?_ne {word : List Char} (isWord : IsWord word) : word.head? ≠ some '~' := by
  obtain ⟨-, c, front, start⟩ := isWord
  intro tilde
  cases front.symm.trans tilde
  cases start

/-- **A unit that is read has its shape.** -/
theorem next_shaped {text rest : List Char} {unit : LexicalUnit}
    (read : next text = .ok (unit, rest)) :
    unit.Shaped := by
  unfold next at read
  split at read
  · obtain ⟨⟨parts, last⟩, inner, same⟩ := map_eq_ok.mp read
    cases same
    exact raw_of_readQuoted inner
  · obtain ⟨name, isName, rfl⟩ := isName_of_readName read
    exact isName.1
  · obtain ⟨name, isName, rfl⟩ := isName_of_readName read
    exact isName.1
  · obtain ⟨word, -, rfl⟩ := isWord_of_readWord read
    trivial
  · obtain ⟨word, isWord, rfl⟩ := isWord_of_readWord read
    exact isWord.head?_ne
  iterate 6
    · cases read
      trivial
  · split at read
    · rename_i found number
      cases read
      obtain ⟨_, _, -, -, rfl⟩ := @exists_numberText true _ _ _ number
      trivial
    · cases read
  · split at read
    · rename_i found number
      cases read
      obtain ⟨_, _, -, -, rfl⟩ := @exists_numberText false _ _ _ number
      trivial
    · split at read
      · cases read
      · split at read
        · cases read
          trivial
        · obtain ⟨word, -, rfl⟩ := isWord_of_readWord read
          trivial

end LexicalUnit

namespace Keyword

/-- The forms of a keyword start with the mark of a suffix if it is one. -/
theorem isSuffix_eq {entry : Keyword} (listed : entry ∈ table) {form : String}
    (own : form = entry.long ∨ form = entry.short) :
    entry.isSuffix = decide (form.toList.head? = some '~') := by
  have forms : ∀ entry ∈ table, ∀ form ∈ [entry.long, entry.short],
      entry.isSuffix = decide (form.toList.head? = some '~') := by decide
  exact forms entry listed form (by simpa using own)

/-- A keyword is found by its forms. -/
theorem find?_spec {form : String} {entry : Keyword} (found : find? form = some entry) :
    entry ∈ table ∧ (form = entry.long ∨ form = entry.short) := by
  refine ⟨List.mem_of_find?_eq_some found, ?_⟩
  have own := List.find?_some found
  simp only [Bool.or_eq_true, decide_eq_true_eq] at own
  exact own.imp Eq.symm Eq.symm

theorem findLong?_spec {form : String} {entry : Keyword} (found : findLong? form = some entry) :
    entry ∈ table ∧ form = entry.long := by
  have own := List.find?_some found
  exact ⟨List.mem_of_find?_eq_some found, (of_decide_eq_true own).symm⟩

/-- The long form is a spelling of every keyword. -/
theorem long_mem_spellings (entry : Keyword) : entry.long ∈ entry.spellings := by
  unfold spellings
  split <;> simp

end Keyword

/-! ### Spellings and places -/

namespace Lexeme

open LexicalUnit (byteCount byteCount_append isBlank)

/-- **The spellings of a lexeme**: those of its keyword; the marks of definitions and references;
for a part of a quoted text a run without quotes and backslashes, or an escape that stands for it;
and otherwise its value. -/
inductive Spells (lexeme : Lexeme) : List Char → Prop
  | keyword {entry : Keyword} {spelling : List Char} (listed : entry ∈ Keyword.table)
      (kind : lexeme.kind = entry.kind) (value : lexeme.value = entry.long)
      (spelled : String.ofList spelling ∈ entry.spellings) : Spells lexeme spelling
  | define (kind : lexeme.kind = .define) : Spells lexeme ['#']
  | reference (kind : lexeme.kind = .reference) : Spells lexeme ['#', '#']
  | run {characters : List Char} (kind : lexeme.kind = .text)
      (value : lexeme.value.toList = characters)
      (raw : (QuotedPart.run characters).IsRaw) : Spells lexeme characters
  | escape {character : Char} (kind : lexeme.kind = .text)
      (value : lexeme.value = unescape character) :
      Spells lexeme ['\\', character]
  | plain {characters : List Char} (other : lexeme.kind.isKeyword = false)
      (noText : lexeme.kind ≠ .text)
      (value : lexeme.value.toList = characters) (filled : characters ≠ []) :
      Spells lexeme characters

/-- Where a lexeme stands: among the units, behind the mark of a name, or inside quotes. -/
inductive Context where
  | outside
  | name
  | quotes
deriving DecidableEq, Repr

/-- Where the lexeme behind one of this kind stands. -/
def Context.after : Context → TokenKind → Context
  | outside, .define | outside, .reference => name
  | outside, .quote => quotes
  | outside, _ => outside
  | name, _ => outside
  | quotes, .quote => outside
  | quotes, _ => quotes

/-- **Lexemes make up the characters from an offset on**: in front of each there are blanks, none of
them in a name or in quotes, then it is spelled from its own offset on, and blanks end the text. -/
inductive Covers : Context → Nat → List Lexeme → List Char → Prop
  | done {offset : Nat} {blanks : List Char} (blank : ∀ c ∈ blanks, isBlank c = true) :
      Covers .outside offset [] blanks
  | lexeme {context : Context} {offset : Nat} {blanks spelling tail : List Char} {lexeme : Lexeme}
      {rest : List Lexeme} (blank : ∀ c ∈ blanks, isBlank c = true)
      (tight : context ≠ .outside → blanks = []) (place : lexeme.offset = offset + byteCount blanks)
      (spells : lexeme.Spells spelling)
      (later : Covers (context.after lexeme.kind) (lexeme.offset + byteCount spelling) rest tail) :
      Covers context offset (lexeme :: rest) (blanks ++ (spelling ++ tail))

/-! ### The lexemes of units -/

theorem spells_quote (offset : Nat) : (ofKind .quote "'" offset).Spells ['\''] :=
  .plain rfl nofun (show "'".toList = _ by decide) nofun

namespace Covers

variable {context : Context} {offset : Nat} {blanks spelling tail text : List Char}
    {lexeme : Lexeme}
  {lexemes others : List Lexeme}

/-- A lexeme that is spelled at the offset, and what stands behind it. -/
theorem here (place : lexeme.offset = offset) (spells : lexeme.Spells spelling)
    (later : Covers (context.after lexeme.kind) (offset + byteCount spelling) others tail) :
    Covers context offset (lexeme :: others) (spelling ++ tail) := by
  subst place
  have all : Covers context lexeme.offset (lexeme :: others) ([] ++ (spelling ++ tail)) :=
    .lexeme nofun (fun _ => rfl) rfl spells later
  exact all

/-- Blanks may stand in front, outside of names and quotes. -/
theorem behind_blanks (blank : ∀ c ∈ blanks, isBlank c = true)
    (later : Covers .outside (offset + byteCount blanks) lexemes text) :
    Covers .outside offset lexemes (blanks ++ text) := by
  have both : ∀ {more : List Char}, (∀ c ∈ more, isBlank c = true) →
      ∀ c ∈ blanks ++ more, isBlank c = true :=
    fun blankMore c member => (List.mem_append.mp member).elim (blank c) (blankMore c)
  cases later with
  | done blankMore => exact .done (both blankMore)
  | lexeme blankMore tight place spells later =>
      rw [← List.append_assoc]
      refine .lexeme (both blankMore) (fun outside => absurd rfl outside) ?_ spells later
      rw [place, byteCount_append, Nat.add_assoc]

/-- The parts of a quoted text and its closing quote. -/
theorem quoted {parts : List QuotedPart} (raw : ∀ part ∈ parts, part.IsRaw) : ∀ {offset : Nat},
    Covers .outside (offset + byteCount (parts.flatMap QuotedPart.spelling) + 1) others tail →
    Covers .quotes offset (ofQuotedParts offset parts ++ others)
      (parts.flatMap QuotedPart.spelling ++ '\'' :: tail) := by
  induction parts with
  | nil =>
      intro offset later
      have closing : Covers .quotes offset _ (['\''] ++ tail) :=
        .here rfl (spells_quote offset) later
      exact closing
  | cons part parts ih =>
      intro offset later
      obtain ⟨rawPart, rawParts⟩ := List.forall_mem_cons.mp raw
      rw [List.flatMap_cons, byteCount_append, ← Nat.add_assoc] at later
      have spells : (ofQuotedPart offset part).Spells part.spelling := by
        cases part with
        | run characters => exact .run rfl String.toList_ofList rawPart
        | escape character => exact .escape rfl rfl
      have place :
          (ofQuotedPart offset part).offset = offset ∧ (ofQuotedPart offset part).kind = .text := by
        cases part <;> exact ⟨rfl, rfl⟩
      rw [List.flatMap_cons, List.append_assoc]
      refine .here place.1 spells ?_
      rw [place.2]
      exact ih rawParts later

/-- A lexeme behind the mark of a name. -/
theorem named {name : List Char} (some : name ≠ [])
    (later : Covers .outside (offset + byteCount name) others tail) :
    Covers .name offset (ofKind .identifier (String.ofList name) offset :: others)
      (name ++ tail) := by
  have spells : (ofKind .identifier (String.ofList name) offset).Spells name :=
    .plain rfl nofun String.toList_ofList some
  exact .here rfl spells later

end Covers

/-- A lexeme of this kind is a unit by itself. -/
def standsAlone (kind : TokenKind) : Bool :=
  kind ∉ [.define, .reference, .quote, .text]

theorem keyword_standsAlone {entry : Keyword} (listed : entry ∈ Keyword.table) :
    standsAlone entry.kind = true := by
  have each : ∀ entry ∈ Keyword.table, standsAlone entry.kind = true := by decide
  exact each entry listed

theorem symbolKind_standsAlone (character : Char) : standsAlone (symbolKind character) = true := by
  unfold symbolKind
  repeat' split
  all_goals rfl

/-- A lexeme that is a unit by itself, and what stands behind it. -/
theorem Covers.alone {offset : Nat} {lexeme : Lexeme} {spelling tail : List Char}
    {others : List Lexeme} (place : lexeme.offset = offset) (alone : standsAlone lexeme.kind = true)
    (spells : lexeme.Spells spelling)
    (later : Covers .outside (offset + byteCount spelling) others tail) :
    Covers .outside offset ([lexeme] ++ others) (spelling ++ tail) := by
  have outside : Context.outside.after lexeme.kind = .outside := by
    cases kind : lexeme.kind <;> first | rfl | (rw [kind] at alone; cases alone)
  refine .here place spells ?_
  rwa [outside]

/-- A bare word is spelled as it is. -/
theorem ofWord_spec {letters : List Char} (filled : letters ≠ []) (offset : Nat) :
    (ofWord offset (String.ofList letters)).offset = offset ∧
      standsAlone (ofWord offset (String.ofList letters)).kind = true ∧
      (ofWord offset (String.ofList letters)).Spells letters := by
  unfold ofWord
  split
  · exact ⟨rfl, rfl, .plain rfl nofun String.toList_ofList filled⟩
  · split
    · rename_i entry found
      obtain ⟨listed, long⟩ := Keyword.findLong?_spec found
      have spelled : String.ofList letters ∈ entry.spellings := long ▸ entry.long_mem_spellings
      exact ⟨rfl, keyword_standsAlone listed, .keyword listed rfl rfl spelled⟩
    · exact ⟨rfl, rfl, .plain rfl nofun String.toList_ofList filled⟩

/-- **The lexemes of a unit cover its spelling.** -/
theorem Covers.unit {offset : Nat} {unit : LexicalUnit} {first others : List Lexeme}
    {tail : List Char} (shaped : unit.Shaped) (filled : unit.spelling ≠ [])
    (classifies : ofUnit offset unit = .ok first)
    (later : Covers .outside (offset + byteCount unit.spelling) others tail) :
    Covers .outside offset (first ++ others) (unit.spelling ++ tail) := by
  cases unit with
  | quoted parts =>
      cases classifies
      have whole : byteCount (LexicalUnit.quoted parts).spelling =
          1 + (byteCount (parts.flatMap QuotedPart.spelling) + 1) :=
        congrArg (1 + ·) (byteCount_append _ _)
      rw [whole, ← Nat.add_assoc, ← Nat.add_assoc] at later
      have inside := Covers.quoted shaped later
      have all : Covers .outside offset _
          (['\''] ++ (parts.flatMap QuotedPart.spelling ++ '\'' :: tail)) :=
        .here rfl (spells_quote offset) inside
      simpa [LexicalUnit.spelling] using all
  | reference name =>
      cases classifies
      have whole : byteCount (LexicalUnit.reference name).spelling = 1 + (1 + byteCount name) := rfl
      rw [whole, ← Nat.add_assoc, ← Nat.add_assoc] at later
      have behind : Covers .name (offset + 2) _ (name ++ tail) := .named shaped later
      have mark : (ofKind .reference "reference" offset).Spells ['#', '#'] := .reference rfl
      have all : Covers .outside offset _ (['#', '#'] ++ (name ++ tail)) := .here rfl mark behind
      exact all
  | define name =>
      cases classifies
      have whole : byteCount (LexicalUnit.define name).spelling = 1 + byteCount name := rfl
      rw [whole, ← Nat.add_assoc] at later
      have behind : Covers .name (offset + 1) _ (name ++ tail) := .named shaped later
      have mark : (ofKind .define "define" offset).Spells ['#'] := .define rfl
      have all : Covers .outside offset _ (['#'] ++ (name ++ tail)) := .here rfl mark behind
      exact all
  | suffix letters =>
      unfold ofUnit at classifies
      dsimp only at classifies
      split at classifies
      · rename_i entry found
        cases classifies
        obtain ⟨listed, own⟩ := Keyword.find?_spec found
        have suffix : entry.isSuffix = true := by simp [Keyword.isSuffix_eq listed own]
        have spelled : String.ofList ('~' :: letters) ∈ entry.spellings := by
          have form : String.ofList ('~' :: letters) = "~" ++ String.ofList letters := by simp
          rw [Keyword.spellings, if_pos suffix, form]
          simpa using own
        exact .alone rfl (keyword_standsAlone listed) (.keyword listed rfl rfl spelled) later
      · cases classifies
  | keyword letters =>
      unfold ofUnit at classifies
      dsimp only at classifies
      split at classifies
      · rename_i entry found
        cases classifies
        obtain ⟨listed, own⟩ := Keyword.find?_spec found
        have validator : entry.isSuffix = false := by
          rw [Keyword.isSuffix_eq listed own, String.toList_ofList]
          exact decide_eq_false shaped
        have spelled : String.ofList ('@' :: letters) ∈ entry.spellings := by
          have form : String.ofList ('@' :: letters) = "@" ++ String.ofList letters := by simp
          rw [Keyword.spellings, validator, form]
          rcases own with same | same <;> simp [same]
        exact .alone rfl (keyword_standsAlone listed) (.keyword listed rfl rfl spelled) later
      · cases classifies
  | number text | operator text =>
      cases classifies
      exact .alone rfl rfl
        (.plain rfl (fun text => by cases text) String.toList_ofList filled) later
  | symbol character =>
      cases classifies
      obtain ⟨noKeyword, -, -⟩ := symbolKind_plain character
      have alone := symbolKind_standsAlone character
      have noText : symbolKind character ≠ .text := by
        intro text
        rw [text] at alone
        cases alone
      have same : character.toString.toList = [character] := String.toList_singleton character
      exact .alone rfl alone (.plain noKeyword noText same filled) later
  | word letters =>
      cases classifies
      obtain ⟨place, alone, spells⟩ := ofWord_spec filled offset
      exact .alone place alone spells later

/-! ### The lexemes of texts -/

/-- **The lexemes of a text cover it.** -/
theorem Lexes.covers {offset : Nat} {text : List Char} {lexemes : List Lexeme}
    (lexes : Lexes offset text lexemes) : Covers .outside offset lexemes text := by
  obtain ⟨units, scans, classifies⟩ := lexes
  -- what is left behind a unit is a shorter text
  induction length : text.length using Nat.strongRecOn generalizing offset text units lexemes with
  | ind _ ih =>
      subst length
      have blank : ∀ c ∈ text.takeWhile isBlank, isBlank c = true :=
        List.all_eq_true.mp List.all_takeWhile
      have whole : text.takeWhile isBlank ++ text.dropWhile isBlank = text :=
        List.takeWhile_append_dropWhile
      have shorter := (List.dropWhile_suffix isBlank (l := text)).length_le
      rw [LexicalUnit.scan_eq] at scans
      rw [← whole]
      refine .behind_blanks blank ?_
      cases remaining : text.dropWhile isBlank with
      | nil =>
          rw [remaining] at scans
          cases scans
          cases classifies
          exact .done nofun
      | cons c more =>
          rw [remaining] at scans shorter
          cases read : LexicalUnit.next (c :: more) with
          | error failing => simp [read] at scans
          | ok found =>
              obtain ⟨unit, rest⟩ := found
              simp only [read] at scans
              obtain ⟨others, last, rfl⟩ := LexicalUnit.map_eq_ok.mp scans
              obtain ⟨first, here, inner⟩ := bind_eq_ok.mp classifies
              obtain ⟨later, behind, same⟩ := bind_eq_ok.mp inner
              cases same
              obtain ⟨filled, spelled⟩ := LexicalUnit.spelling_of_next read
              have fewer := LexicalUnit.length_lt_of_next read
              rw [spelled]
              exact .unit (LexicalUnit.next_shaped read) filled here
                (ih rest.length (by omega) others last behind rfl)

/-- No lexeme is spelled with nothing. -/
theorem Spells.ne_nil {lexeme : Lexeme} {spelling : List Char} (spells : lexeme.Spells spelling) :
    spelling ≠ [] := by
  cases spells with
  | keyword listed _ _ spelled =>
      have filled : ∀ entry ∈ Keyword.table, "" ∉ entry.spellings := by decide
      rintro rfl
      exact filled _ listed spelled
  | run _ _ raw => exact raw.1
  | plain _ _ _ filled => exact filled
  | define | reference | escape => exact List.cons_ne_nil _ _

theorem byteCount_pos {text : List Char} (filled : text ≠ []) : 0 < byteCount text := by
  cases text with
  | nil => exact absurd rfl filled
  | cons c rest => exact Nat.lt_of_lt_of_le c.utf8Size_pos (Nat.le_add_right _ _)

/-- Bytes are counted as in strings. -/
theorem byteCount_eq (text : List Char) : byteCount text = (String.ofList text).utf8ByteSize := by
  rw [String.utf8ByteSize_ofList]
  induction text with
  | nil => rfl
  | cons c rest ih =>
      show c.utf8Size + byteCount rest = String.utf8Len rest + c.utf8Size
      rw [ih, Nat.add_comm]

namespace Covers

variable {context : Context} {offset : Nat} {lexemes : List Lexeme} {text : List Char}

/-- **A lexeme starts between two characters.** -/
theorem exists_append (covers : Covers context offset lexemes text) :
    ∀ lexeme ∈ lexemes, ∃ before behind, text = before ++ behind ∧
      lexeme.offset = offset + byteCount before := by
  induction covers with
  | done => exact nofun
  | @lexeme context offset blanks spelling tail lexeme rest blank tight place spells later ih =>
      refine List.forall_mem_cons.mpr ⟨⟨blanks, _, rfl, place⟩, fun other member => ?_⟩
      obtain ⟨before, behind, rfl, placeOther⟩ := ih other member
      refine ⟨blanks ++ (spelling ++ before), behind, by simp, ?_⟩
      rw [placeOther, place, byteCount_append, byteCount_append]
      omega

/-- **Offsets increase.** -/
theorem pairwise_offset (covers : Covers context offset lexemes text) :
    (lexemes.map Lexeme.offset).Pairwise (· < ·) := by
  induction covers with
  | done => exact .nil
  | @lexeme context offset blanks spelling tail lexeme rest blank tight place spells later ih =>
      have positive := byteCount_pos spells.ne_nil
      refine List.pairwise_cons.mpr ⟨List.forall_mem_map.mpr fun other member => ?_, ih⟩
      obtain ⟨before, -, -, placeOther⟩ := later.exists_append other member
      omega

/-- Offsets are positions in the text. -/
theorem isValid_offset {text : String} (covers : Covers .outside 0 lexemes text.toList) :
    ∀ lexeme ∈ lexemes, String.Pos.Raw.IsValid text ⟨lexeme.offset⟩ := by
  intro lexeme member
  obtain ⟨before, behind, whole, place⟩ := covers.exists_append lexeme member
  refine String.Pos.Raw.isValid_iff_exists_append.mpr
    ⟨String.ofList before, String.ofList behind, ?_, ?_⟩
  · rw [← String.ofList_append, ← whole, String.ofList_toList]
  · rw [place, Nat.zero_add, byteCount_eq]
    rfl

end Covers

/-- **Every character of a text is accounted for once.** The lexemes that a text is cut into stand
in it one behind the other, spelled from their offsets on, with nothing but blanks between them and
at the end, and nothing at all inside names and quotes. Their offsets increase, and are positions of
characters. -/
theorem tokenize_covers {text : String} {lexemes : List Lexeme}
    (tokenizes : tokenize text = .ok lexemes) :
    (lexemes.map Lexeme.offset).Pairwise (· < ·) ∧
      (∀ lexeme ∈ lexemes, String.Pos.Raw.IsValid text ⟨lexeme.offset⟩) ∧
      Covers .outside 0 lexemes text.toList := by
  have covers : Covers .outside 0 lexemes text.toList := (tokenize_eq_ok_iff.mp tokenizes).covers
  exact ⟨covers.pairwise_offset, covers.isValid_offset, covers⟩

/-- A reference, a short keyword and a suffix, and a quoted text with a blank, a character of two
bytes and two escapes, of which one keeps its backslash. -/
theorem tokenize_covers_quoted :
    let text := " ##n @r( 'ä \\n\\d')  ~e\n"
    let lexemes :=
      [ofKind .reference "reference" 1, ofKind .identifier "n" 3, ofKind .regex "regex" 5,
      ofKind .leftParen "(" 7, ofKind .quote "'" 9, ofKind .text "ä " 10, ofKind .text "\n" 13,
      ofKind .text "\\d" 15, ofKind .quote "'" 17, ofKind .rightParen ")" 18,
      ofKind .errorSuffix "~error" 21]
    tokenize text = .ok lexemes ∧ (lexemes.map Lexeme.offset).Pairwise (· < ·) ∧
      (∀ lexeme ∈ lexemes, String.Pos.Raw.IsValid text ⟨lexeme.offset⟩) ∧
      Covers .outside 0 lexemes text.toList := by
  intro text lexemes
  have tokenizes : tokenize text = .ok lexemes := by cbv
  exact ⟨tokenizes, tokenize_covers tokenizes⟩

end Lexeme

end Schemata
