/-
**What tokenizing a text yields.**

The lexemes of a text carry values as their kinds say, numbers and operators among them can be read,
and a keyword is spelled with the long name of its kind, whichever spelling the text has.

* `LexicalUnit.next_readable`: the number or the operator at the front of a text can be read;
* `Lexeme.tokenize_canonical`: so every lexeme of a text is canonical.
-/

import Schemata.Proofs.Language.Scanning
import Schemata.Proofs.Language.Sentences

namespace Schemata

/-! ### Numbers -/

namespace Numeral

/-- The digits of a whole number and of a fraction, if there is one, are a real number. -/
theorem isSome_unsignedReal? (negative : Bool) {digits fraction : List Char}
    (number : isDigits digits = true)
    (decimals : fraction = [] ∨ ∃ more, fraction = '.' :: more ∧ more.all Char.isDigit = true) :
    (unsignedReal? negative (digits ++ fraction)).isSome := by
  obtain ⟨some, all⟩ := Bool.and_eq_true_iff.mp number
  have nonempty : digits.isEmpty = false := (Bool.not_eq_true' _).mp some
  have stops : ∀ c ∈ fraction.head?, c.isDigit = false := by
    rcases decimals with rfl | ⟨more, rfl, -⟩
    · exact nofun
    · rintro c ⟨⟩
      rfl
  have taken : (digits ++ fraction).takeWhile Char.isDigit = digits := by
    have nothing := LexicalUnit.takeWhile_append stops []
    rw [List.nil_append] at nothing
    rw [List.takeWhile_append_of_pos (List.all_eq_true.mp all), nothing]
    exact List.append_nil _
  have dropped : (digits ++ fraction).dropWhile Char.isDigit = fraction := by
    rw [List.dropWhile_append_of_pos (List.all_eq_true.mp all)]
    exact LexicalUnit.dropWhile_append stops []
  unfold unsignedReal?
  rw [taken, dropped]
  rcases decimals with rfl | ⟨more, rfl, all⟩
  · simp [exponent?, nonempty]
  · have whole : (more ++ []).dropWhile Char.isDigit = [] :=
      List.dropWhile_append_of_pos (List.all_eq_true.mp all)
    rw [List.append_nil] at whole
    simp [exponent?, nonempty, whole]

/-- A number that is written with digits can be read. -/
theorem isSome_real?_of_unsigned {text : List Char} {negative : Bool} {rest : List Char}
    (sign : splitSign text = (negative, rest)) (reads : (unsignedReal? negative rest).isSome) :
    (real? (String.ofList text)).isSome := by
  unfold real?
  rw [String.toList_ofList, sign]
  dsimp only
  split
  · rfl
  · split
    · rfl
    · exact reads

end Numeral

/-! ### Units -/

namespace LexicalUnit

/-- The number or the operator that a unit stands for can be read. -/
def IsReadable : LexicalUnit → Prop
  | .number text => (Numeral.real? (String.ofList text)).isSome
  | .operator text => (Relation.ofSymbol? (String.ofList text)).isSome
  | _ => True

theorem splitFraction_decimals (text : List Char) :
    (splitFraction text).1 = [] ∨
      ∃ more, (splitFraction text).1 = '.' :: more ∧ more.all Char.isDigit = true := by
  unfold splitFraction
  split
  · split
    · exact .inl rfl
    · exact .inr ⟨_, rfl, List.all_takeWhile⟩
  · exact .inl rfl

/-- A number with or without a minus can be read. -/
theorem readNumber?_readable {sign text rest : List Char} {unit : LexicalUnit}
    (signed : sign = [] ∨ sign = ['-']) (read : readNumber? sign text = some (unit, rest)) :
    unit.IsReadable := by
  unfold readNumber? at read
  dsimp only at read
  split at read
  · cases read
  · rename_i some
    cases read
    have number : Numeral.isDigits (text.takeWhile Char.isDigit) = true := by
      rw [Numeral.isDigits, Bool.and_eq_true_iff]
      exact ⟨by simpa using some, List.all_takeWhile⟩
    have reads := fun negative => Numeral.isSome_unsignedReal? negative number
      (splitFraction_decimals (text.dropWhile Char.isDigit))
    rcases signed with rfl | rfl
    · refine Numeral.isSome_real?_of_unsigned ?_ (reads false)
      -- A digit is no sign.
      obtain ⟨some, all⟩ := Bool.and_eq_true_iff.mp number
      cases digits : text.takeWhile Char.isDigit with
      | nil => simp [digits] at some
      | cons c more =>
          have digit : c.isDigit = true := by
            rw [digits] at all
            exact (Bool.and_eq_true_iff.mp all).1
          rw [List.nil_append, List.cons_append, Numeral.splitSign]
          · rintro _ ⟨⟩
            cases digit
          · rintro _ ⟨⟩
            cases digit
    · exact Numeral.isSome_real?_of_unsigned rfl (reads true)

/-- **The number or the operator at the front of a text can be read.** -/
theorem next_readable {text rest : List Char} {unit : LexicalUnit}
    (read : next text = .ok (unit, rest)) : unit.IsReadable := by
  unfold next at read
  split at read
  · obtain ⟨_, -, same⟩ := map_eq_ok.mp read
    cases same
    trivial
  · rw [(spelling_of_readName read).1]
    trivial
  · rw [(spelling_of_readName read).1]
    trivial
  · obtain ⟨_, -, rfl, -⟩ := spelling_of_readWord read
    trivial
  · obtain ⟨_, -, rfl, -⟩ := spelling_of_readWord read
    trivial
  iterate 6
    · cases read
      exact rfl
  · split at read
    · rename_i found number
      cases read
      exact readNumber?_readable (.inr rfl) number
    · cases read
  · split at read
    · rename_i found number
      cases read
      exact readNumber?_readable (.inl rfl) number
    · split at read
      · cases read
      · split at read
        · cases read
          trivial
        · obtain ⟨_, -, rfl, -⟩ := spelling_of_readWord read
          trivial

/-- The units of a text are read somewhere in it. -/
theorem scan_reads {offset : Nat} {text : List Char} {units : List (Nat × LexicalUnit)}
    (scans : scan offset text = .ok units) :
    ∀ unit ∈ units, ∃ behind rest, next behind = .ok (unit.2, rest) := by
  induction length : text.length using Nat.strongRecOn generalizing offset text units with
  | ind _ ih =>
      subst length
      rw [scan_eq] at scans
      have fewer := (List.dropWhile_suffix isBlank (l := text)).length_le
      split at scans
      · cases scans
        exact nofun
      · rename_i c more remaining
        split at scans
        · cases scans
        · rename_i unit rest read
          obtain ⟨others, behind, rfl⟩ := map_eq_ok.mp scans
          have shorter := length_lt_of_next read
          rw [remaining] at fewer
          exact List.forall_mem_cons.mpr ⟨⟨_, _, read⟩, ih rest.length (by omega) behind rfl⟩

/-- Every number and every operator of a text can be read. -/
theorem scan_readable {offset : Nat} {text : List Char} {units : List (Nat × LexicalUnit)}
    (scans : scan offset text = .ok units) : ∀ unit ∈ units, unit.2.IsReadable := by
  intro unit member
  obtain ⟨_, _, read⟩ := scan_reads scans unit member
  exact next_readable read

end LexicalUnit

/-! ### Lexemes -/

namespace Lexeme

/-- The kinds of keywords with the names that they are spelled with. -/
def keywords : List (TokenKind × String) :=
  [(TokenKind.define, "define"), (.reference, "reference")] ++
    Keyword.table.map fun keyword => (keyword.kind, keyword.long)

/-- **A lexeme as it comes from a text**: besides what is proper, a keyword has the long name of its
kind. -/
structure Canonical (lexeme : Lexeme) : Prop extends lexeme.Proper where
  spelled : lexeme.kind.isKeyword = true → (lexeme.kind, lexeme.value) ∈ keywords

/-- What holds of every name of its kind holds of the value of a keyword. -/
theorem Canonical.spelling {lexeme : Lexeme} (canonical : lexeme.Canonical) {kind : TokenKind}
    (holds : String → Prop) (same : lexeme.kind = kind) (keyword : kind.isKeyword = true)
    (all : ∀ entry ∈ keywords, entry.1 = kind → holds entry.2) : holds lexeme.value := by
  subst same
  exact all _ (canonical.spelled keyword) rfl

/-- A lexeme of a kind that has no values of its own is canonical. -/
theorem canonical_ofKind {kind : TokenKind} (value : String) (offset : Nat)
    (plain : kind.isKeyword = false ∧ kind ≠ .operator ∧ kind ≠ .number) :
    (ofKind kind value offset).Canonical where
  carries := rfl
  operator same := absurd same plain.2.1
  number same := absurd same plain.2.2
  spelled keyword := absurd (plain.1.symm.trans keyword) Bool.false_ne_true

/-- The name of a keyword has one kind. -/
theorem Canonical.kind_eq {lexeme : Lexeme} (canonical : lexeme.Canonical)
    (keyword : lexeme.kind.isKeyword = true) {kind : TokenKind}
    (entry : (kind, lexeme.value) ∈ keywords) :
    lexeme.kind = kind := by
  have unique : ∀ one ∈ keywords, ∀ other ∈ keywords, one.2 = other.2 → one.1 = other.1 := by decide
  exact unique _ (canonical.spelled keyword) _ entry rfl

/-- A keyword that has its name is canonical. -/
theorem canonical_ofEntry {kind : TokenKind} {name : String} (entry : (kind, name) ∈ keywords)
    (offset : Nat) :
    (ofKind kind name offset).Canonical := by
  have plain : ∀ entry ∈ keywords, entry.1 ≠ .operator ∧ entry.1 ≠ .number := by decide
  exact
    { carries := rfl
      operator := fun same => absurd same (plain _ entry).1
      number := fun same => absurd same (plain _ entry).2
      spelled := fun _ => entry }

theorem canonical_ofKeyword {keyword : Keyword} (member : keyword ∈ Keyword.table) (offset : Nat) :
    (ofKind keyword.kind keyword.long offset).Canonical :=
  canonical_ofEntry (List.mem_append_right _ (List.mem_map_of_mem member)) offset

theorem ofQuotedParts_canonical (offset : Nat) (parts : List QuotedPart) :
    ∀ lexeme ∈ ofQuotedParts offset parts, lexeme.Canonical := by
  induction parts generalizing offset with
  | nil => exact List.forall_mem_singleton.mpr (canonical_ofKind _ _ (by decide))
  | cons part parts ih =>
      refine List.forall_mem_cons.mpr ⟨?_, ih _⟩
      cases part <;> exact canonical_ofKind _ _ (by decide)

theorem symbolKind_plain (character : Char) :
    (symbolKind character).isKeyword = false ∧ symbolKind character ≠ .operator ∧
      symbolKind character ≠ .number := by
  unfold symbolKind
  repeat' split
  all_goals decide

theorem ofWord_canonical (offset : Nat) (word : String) : (ofWord offset word).Canonical := by
  unfold ofWord
  split
  · exact canonical_ofKind _ _ (by decide)
  · split
    · rename_i keyword found
      exact canonical_ofKeyword (List.mem_of_find?_eq_some found) offset
    · exact canonical_ofKind _ _ (by decide)

/-- The lexemes of a unit that can be read are canonical. -/
theorem ofUnit_canonical {offset : Nat} {unit : LexicalUnit} {lexemes : List Lexeme}
    (readable : unit.IsReadable) (classifies : ofUnit offset unit = .ok lexemes) :
    ∀ lexeme ∈ lexemes, lexeme.Canonical := by
  have schema : ∀ {kind : TokenKind} {name : String}, (kind, name) ∈ keywords →
      kind ≠ .operator ∧ kind ≠ .number → (ofKind kind name offset).Canonical :=
    fun member plain =>
      { carries := rfl
        operator := fun same => absurd same plain.1
        number := fun same => absurd same plain.2
        spelled := fun _ => member }
  have identifier : ∀ (name : String) (offset : Nat), (ofKind .identifier name offset).Canonical :=
    fun name offset => canonical_ofKind name offset (by decide)
  cases unit with
  | quoted parts =>
      cases classifies
      exact List.forall_mem_cons.mpr
        ⟨canonical_ofKind _ _ (by decide), ofQuotedParts_canonical _ parts⟩
  | reference name =>
      cases classifies
      exact List.forall_mem_cons.mpr ⟨schema (by decide) (by decide),
        List.forall_mem_singleton.mpr (identifier _ _)⟩
  | define name =>
      cases classifies
      exact List.forall_mem_cons.mpr ⟨schema (by decide) (by decide),
        List.forall_mem_singleton.mpr (identifier _ _)⟩
  | suffix word | keyword word =>
      unfold ofUnit at classifies
      dsimp only at classifies
      split at classifies
      · rename_i keyword found
        cases classifies
        exact List.forall_mem_singleton.mpr
          (canonical_ofKeyword (List.mem_of_find?_eq_some found) offset)
      · cases classifies
  | number text =>
      cases classifies
      exact List.forall_mem_singleton.mpr ⟨⟨rfl, nofun, fun _ => readable⟩, nofun⟩
  | operator text =>
      cases classifies
      exact List.forall_mem_singleton.mpr ⟨⟨rfl, fun _ => readable, nofun⟩, nofun⟩
  | symbol character =>
      cases classifies
      exact List.forall_mem_singleton.mpr (canonical_ofKind _ _ (symbolKind_plain character))
  | word text =>
      cases classifies
      exact List.forall_mem_singleton.mpr (ofWord_canonical offset _)

theorem ofUnits_canonical {units : List (Nat × LexicalUnit)} {lexemes : List Lexeme}
    (readable : ∀ unit ∈ units, unit.2.IsReadable) (classifies : ofUnits units = .ok lexemes) :
    ∀ lexeme ∈ lexemes, lexeme.Canonical := by
  induction units generalizing lexemes with
  | nil =>
      cases classifies
      exact nofun
  | cons unit units ih =>
      obtain ⟨here, later⟩ := List.forall_mem_cons.mp readable
      obtain ⟨offset, unit⟩ := unit
      rw [ofUnits] at classifies
      cases first : ofUnit offset unit with
      | error _ => simp [first, bind, Except.bind] at classifies
      | ok found =>
          cases second : ofUnits units with
          | error _ => simp [first, second, bind, Except.bind] at classifies
          | ok others =>
              rw [first, second] at classifies
              cases classifies
              exact List.forall_mem_append.mpr ⟨ofUnit_canonical here first, ih later second⟩

/-- **Every lexeme of a text is canonical.** -/
theorem tokenize_canonical {text : String} {lexemes : List Lexeme}
    (tokenizes : tokenize text = .ok lexemes) : ∀ lexeme ∈ lexemes, lexeme.Canonical := by
  unfold tokenize at tokenizes
  split at tokenizes
  · cases tokenizes
  · rename_i units scans
    exact ofUnits_canonical (LexicalUnit.scan_readable scans) tokenizes

end Lexeme

end Schemata
