/-
**A text may be scanned piece by piece.**

No unit reaches over a delimiter: a blank, the mark of a suffix, a comma or a closing parenthesis.
What stands before one is thereby scanned on its own, whatever follows.

* `next_append`: a unit is read alike with more behind a delimiter;
* `scan_append`: the units of two texts are those of the first and then those of the second;
* `Lexeme.Lexes.append`: the lexemes too.
-/

import Schemata.Language.Lexeme

namespace Schemata

namespace LexicalUnit

/-- The characters that end every unit before them. -/
def isDelimiter (c : Char) : Bool :=
  isBlank c || c = '~' || c = ',' || c = ')'

/-- A text that ends the units before it. -/
def Delimited (tail : List Char) : Prop :=
  ∀ c ∈ tail.head?, isDelimiter c = true

/-! ### Delimiters -/

theorem isDelimiter_iff {c : Char} :
    isDelimiter c = true ↔
      c = ' ' ∨ c = '\t' ∨ c = '\r' ∨ c = '\n' ∨ c = '~' ∨ c = ',' ∨ c = ')' := by
  simp [isDelimiter, isBlank, or_assoc]

/-- A property of no delimiter fails at the front of a delimited text. -/
theorem Delimited.head {tail : List Char} (delimited : Delimited tail) (holds : Char → Bool)
    (fails : ([' ', '\t', '\r', '\n', '~', ',', ')'].any holds) = false) :
    ∀ c ∈ tail.head?, holds c = false := by
  intro c front
  rw [List.any_eq_false] at fails
  have := fails c (by simpa using isDelimiter_iff.mp (delimited c front))
  exact Bool.eq_false_iff.mpr this

section Fronts

variable {α : Type} {holds : α → Bool} {tail : List α}

/-- The longest front stays the same if what follows does not start with more of it. -/
theorem takeWhile_append (stops : ∀ a ∈ tail.head?, holds a = false) (text : List α) :
    (text ++ tail).takeWhile holds = text.takeWhile holds := by
  induction text with
  | nil => cases tail with
    | nil => rfl
    | cons a more => simp [stops a rfl]
  | cons a text ih =>
      rw [List.cons_append, List.takeWhile_cons, List.takeWhile_cons, ih]

theorem dropWhile_append (stops : ∀ a ∈ tail.head?, holds a = false) (text : List α) :
    (text ++ tail).dropWhile holds = text.dropWhile holds ++ tail := by
  induction text with
  | nil => cases tail with
    | nil => rfl
    | cons a more => simp [stops a rfl]
  | cons a text ih =>
      rw [List.cons_append, List.dropWhile_cons, List.dropWhile_cons, ih]
      split <;> rfl

end Fronts

/-! ### Units -/

/-- Quoted text ends with its quote, whatever follows. -/
theorem readQuoted_append (tail : List Char) {text rest : List Char} {parts : List QuotedPart}
    (read : readQuoted text = .ok (parts, rest)) :
    readQuoted (text ++ tail) = .ok (parts, rest ++ tail) := by
  fun_induction readQuoted text generalizing parts rest with
  | case1 => cases read
  | case2 => cases read
  | case3 character more ih =>
      obtain ⟨found, inner, same⟩ := map_eq_ok.mp read
      cases same
      simp [readQuoted, ih inner, Except.map]
  | case4 more _ _ =>
      cases read
      simp [readQuoted]
  | case5 c more single double plain ih =>
      obtain ⟨found, inner, same⟩ := map_eq_ok.mp read
      cases same
      have escape : c ≠ '\\' := by
        intro same
        cases more with
        | nil => exact single (by rw [same]) rfl
        | cons character more => exact double character more (by rw [same]) rfl
      rw [List.cons_append, readQuoted, if_neg plain, ih inner]
      · rfl
      · exact fun same => absurd same escape
      · exact fun _ _ same => absurd same escape

variable {tail : List Char}

theorem readName_append (delimited : Delimited tail) {make : List Char → LexicalUnit}
    {text rest : List Char} {unit : LexicalUnit} (read : readName make text = .ok (unit, rest)) :
    readName make (text ++ tail) = .ok (unit, rest ++ tail) := by
  have stops := delimited.head isNameChar rfl
  unfold readName at read ⊢
  rw [takeWhile_append stops, dropWhile_append stops]
  split at read
  · cases read
  · rename_i some
    rw [if_neg some]
    cases read
    rfl

theorem readWord_append (delimited : Delimited tail) {make : List Char → LexicalUnit}
    {text rest : List Char} {unit : LexicalUnit} (read : readWord make text = .ok (unit, rest)) :
    readWord make (text ++ tail) = .ok (unit, rest ++ tail) := by
  have stops := delimited.head isNameChar rfl
  cases text with
  | nil => cases read
  | cons c more =>
      rw [List.cons_append, readWord, takeWhile_append stops, dropWhile_append stops]
      rw [readWord] at read
      split at read
      · rename_i start
        rw [if_pos start]
        cases read
        rfl
      · cases read

theorem splitFraction_append (delimited : Delimited tail) (text : List Char) :
    splitFraction (text ++ tail) = ((splitFraction text).1, (splitFraction text).2 ++ tail) := by
  have stops := delimited.head Char.isDigit rfl
  have plain := delimited.head (· = '.') rfl
  have other : ∀ {text : List Char}, (∀ rest, text ≠ '.' :: rest) →
      splitFraction text = ([], text) := by
    intro text other
    unfold splitFraction
    split
    · rename_i rest
      exact absurd rfl (other rest)
    · rfl
  cases text with
  | nil =>
      refine other fun rest same => ?_
      have := plain '.' (by rw [show tail = _ from same]; rfl)
      simp at this
  | cons c more =>
      by_cases point : c = '.'
      · subst point
        simp only [List.cons_append, splitFraction, takeWhile_append stops, dropWhile_append stops]
        split <;> rfl
      · rw [other (by simp [point]), other (by simp [point])]

theorem readNumber?_append (delimited : Delimited tail) (sign text : List Char) :
    readNumber? sign (text ++ tail) =
      (readNumber? sign text).map fun (unit, rest) => (unit, rest ++ tail) := by
  have stops := delimited.head Char.isDigit rfl
  simp only [readNumber?, takeWhile_append stops, dropWhile_append stops,
    splitFraction_append delimited]
  split <;> rfl

/-- An operator of one character is not made longer by a delimiter. -/
theorem unequal_append (delimited : Delimited tail) {text : List Char}
    (other : ∀ rest, text ≠ '=' :: rest) : ∀ rest, text ++ tail ≠ '=' :: rest := by
  intro rest same
  cases text with
  | nil =>
      have := delimited '=' (by rw [show tail = _ from same]; rfl)
      simp [isDelimiter, isBlank] at this
  | cons c text => exact other text (by rw [(List.cons.inj same).1])

/-- A text that starts with another character does so with more behind it. -/
theorem cons_append_ne {c d : Char} {more : List Char} (other : ∀ rest, c :: more ≠ d :: rest) :
    ∀ rest, c :: (more ++ tail) ≠ d :: rest := by
  intro rest same
  exact other more (by rw [(List.cons.inj same).1])

/-- **A unit is read alike with more behind a delimiter.** -/
theorem next_append (delimited : Delimited tail) {text rest : List Char} {unit : LexicalUnit}
    (read : next text = .ok (unit, rest)) : next (text ++ tail) = .ok (unit, rest ++ tail) := by
  unfold next at read
  split at read
  · rename_i more
    obtain ⟨found, inner, same⟩ := map_eq_ok.mp read
    cases same
    simp [next, readQuoted_append tail inner, Except.map]
  · exact readName_append delimited read
  · rename_i more single
    have named := readName_append delimited read
    rw [List.cons_append, next]
    · exact named
    · intro later same
      cases more with
      | nil => cases read
      | cons c more => exact single more (by rw [List.cons.inj same |>.1])
  · exact readWord_append delimited read
  · exact readWord_append delimited read
  · cases read
    rfl
  · cases read
    rfl
  · cases read
    rfl
  · rename_i more single
    cases read
    rw [List.cons_append, next]
    exact unequal_append delimited single
  · rename_i more single
    cases read
    rw [List.cons_append, next]
    exact unequal_append delimited single
  · cases read
    rfl
  · rename_i more
    rw [List.cons_append, next, readNumber?_append delimited]
    split at read
    · rename_i found number
      cases read
      rw [number]
      rfl
    · cases read
  · rename_i quote _ define suffix keyword _ _ different greater less equal minus
    cases text with
    | nil => cases read
    | cons c more =>
        simp only [List.cons_append]
        rw [next]
        · rw [show c :: (more ++ tail) = (c :: more) ++ tail from rfl,
            readNumber?_append delimited]
          split at read
          · rename_i found number
            cases read
            rw [number]
            rfl
          · rename_i number
            rw [number]
            dsimp only [Option.map] at read ⊢
            split at read
            · rename_i symbol
              cases read
              rw [if_pos symbol]
            · rename_i symbol
              rw [if_neg symbol]
              exact readWord_append delimited read
        · exact cons_append_ne quote
        · exact fun more => cons_append_ne define ('#' :: more)
        · exact cons_append_ne define
        · exact cons_append_ne suffix
        · exact cons_append_ne keyword
        · exact fun more => cons_append_ne greater ('=' :: more)
        · exact fun more => cons_append_ne less ('=' :: more)
        · intro rest same
          obtain ⟨rfl, after⟩ := List.cons.inj same
          refine unequal_append delimited (fun rest same => ?_) rest after
          exact different rest (by rw [same])
        · exact cons_append_ne greater
        · exact cons_append_ne less
        · exact cons_append_ne equal
        · exact cons_append_ne minus

/-! ### Scanning -/

theorem byteCount_append (first second : List Char) :
    byteCount (first ++ second) = byteCount first + byteCount second := by
  induction first with
  | nil => exact (Nat.zero_add _).symm
  | cons c first ih =>
      show c.utf8Size + byteCount (first ++ second) =
          c.utf8Size + byteCount first + byteCount second
      rw [ih, Nat.add_assoc]

/-- **How a text is scanned.** -/
theorem scan_eq (offset : Nat) (text : List Char) : scan offset text =
    match text.dropWhile isBlank with
    | [] => .ok []
    | c :: more => match next (c :: more) with
      | .error failing => .error failing
      | .ok (unit, rest) =>
        let start := offset + byteCount (text.takeWhile isBlank)
        (scan (start + byteCount unit.spelling) rest).map ((start, unit) :: ·) := by
  rw [scan]
  dsimp only
  split
  · rename_i nothing
    rw [nothing]
  · rename_i c more remaining
    rw [remaining]
    dsimp only
    split
    · rename_i read
      rw [read]
    · rename_i read
      rw [read]

/-- Blanks only move the offset. -/
theorem scan_blanks {blanks : List Char} (blank : ∀ c ∈ blanks, isBlank c = true) (offset : Nat)
    (text : List Char) : scan offset (blanks ++ text) = scan (offset + byteCount blanks) text := by
  rw [scan_eq, scan_eq _ text, List.takeWhile_append_of_pos blank,
    List.dropWhile_append_of_pos blank, byteCount_append, Nat.add_assoc]

/-- A unit does not start with a blank. -/
theorem isBlank_of_next {c : Char} {more rest : List Char} {unit : LexicalUnit}
    (read : next (c :: more) = .ok (unit, rest)) : isBlank c = false := by
  rw [Bool.eq_false_iff]
  intro blank
  obtain rfl | rfl | rfl | rfl : c = ' ' ∨ c = '\t' ∨ c = '\r' ∨ c = '\n' := by
    simpa [isBlank, or_assoc] using blank
  all_goals cases read

/-- A unit is scanned where it starts. -/
theorem scan_of_next {offset : Nat} {c : Char} {more rest : List Char} {unit : LexicalUnit}
    (plain : isBlank c = false) (read : next (c :: more) = .ok (unit, rest)) :
    scan offset (c :: more) =
      (scan (offset + byteCount unit.spelling) rest).map ((offset, unit) :: ·) := by
  rw [scan_eq, List.takeWhile_cons_of_neg (by simp [plain]),
    List.dropWhile_cons_of_neg (by simp [plain])]
  dsimp only
  rw [read]
  rfl

/-- **A text is scanned up to a delimiter, and then what follows.** -/
theorem scan_append {tail : List Char} (delimited : Delimited tail) {offset : Nat}
    {text : List Char} {units : List (Nat × LexicalUnit)} (scans : scan offset text = .ok units) :
    scan offset (text ++ tail) = (scan (offset + byteCount text) tail).map (units ++ ·) := by
  induction length : text.length using Nat.strongRecOn generalizing offset text units with
  | ind _ ih =>
      subst length
      have blank : ∀ c ∈ text.takeWhile isBlank, isBlank c = true :=
        List.all_eq_true.mp List.all_takeWhile
      have front := List.head?_dropWhile_not isBlank text
      have whole : text.takeWhile isBlank ++ text.dropWhile isBlank = text :=
        List.takeWhile_append_dropWhile
      generalize text.takeWhile isBlank = blanks at whole blank
      generalize text.dropWhile isBlank = remaining at whole front
      subst whole
      rw [scan_blanks blank] at scans
      rw [List.append_assoc, scan_blanks blank, byteCount_append, ← Nat.add_assoc]
      cases remaining with
      | nil =>
          rw [scan_eq] at scans
          cases scans
          rw [List.nil_append, show byteCount [] = 0 from rfl, Nat.add_zero]
          cases scan (offset + byteCount blanks) tail <;> rfl
      | cons c more =>
          have plain : isBlank c = false := by simpa using front
          cases read : next (c :: more) with
          | error failing =>
              rw [scan_eq, List.dropWhile_cons_of_neg (by simp [plain])] at scans
              simp [read] at scans
          | ok found =>
              obtain ⟨unit, rest⟩ := found
              have shorter := length_lt_of_next read
              rw [scan_of_next plain read] at scans
              have longer := next_append delimited read
              rw [List.cons_append] at longer ⊢
              rw [scan_of_next plain longer]
              obtain ⟨others, last, rfl⟩ := map_eq_ok.mp scans
              rw [ih rest.length (by rw [List.length_append]; omega) last rfl]
              obtain ⟨_, spelled⟩ := spelling_of_next read
              rw [spelled, byteCount_append, ← Nat.add_assoc]
              generalize scan _ tail = scanned
              cases scanned <;> rfl

end LexicalUnit

namespace Lexeme

/-! ### Lexemes -/

/-- The lexemes of units in sequence. -/
theorem ofUnits_append (first second : List (Nat × LexicalUnit)) :
    ofUnits (first ++ second) =
      (ofUnits first).bind fun lexemes => (ofUnits second).map (lexemes ++ ·) := by
  induction first with
  | nil =>
      rw [List.nil_append]
      cases ofUnits second <;> rfl
  | cons unit first ih =>
      obtain ⟨offset, unit⟩ := unit
      rw [List.cons_append, ofUnits, ofUnits, ih]
      cases ofUnit offset unit with
      | error _ => rfl
      | ok lexemes =>
          cases ofUnits first with
          | error _ => rfl
          | ok others =>
              cases ofUnits second with
              | error _ => rfl
              | ok later => simp [bind, Except.bind, Except.map]

/-- **The characters that stand at an offset have these lexemes.** -/
def Lexes (offset : Nat) (text : List Char) (lexemes : List Lexeme) : Prop :=
  ∃ units, LexicalUnit.scan offset text = .ok units ∧ ofUnits units = .ok lexemes

theorem tokenize_eq_ok_iff {text : String} {lexemes : List Lexeme} :
    tokenize text = .ok lexemes ↔ Lexes 0 text.toList lexemes := by
  unfold tokenize Lexes
  cases LexicalUnit.scan 0 text.toList with
  | error _ => exact ⟨nofun, fun ⟨_, same, _⟩ => nomatch same⟩
  | ok units =>
      constructor
      · exact fun same => ⟨units, rfl, same⟩
      · rintro ⟨_, ⟨⟩, classifies⟩
        exact classifies

namespace Lexes

variable {offset : Nat} {text tail : List Char} {first others : List Lexeme}

theorem nil : Lexes offset [] [] :=
  ⟨[], by rw [LexicalUnit.scan_eq]; rfl, rfl⟩

theorem blanks {blanks : List Char} (blank : ∀ c ∈ blanks, LexicalUnit.isBlank c = true)
    (later : Lexes (offset + LexicalUnit.byteCount blanks) text others) :
    Lexes offset (blanks ++ text) others := by
  obtain ⟨units, scans, classifies⟩ := later
  exact ⟨units, (LexicalUnit.scan_blanks blank offset text).trans scans, classifies⟩

/-- The lexemes of a unit, and of what stands behind it. -/
theorem unit {spelling : List Char} {unit : LexicalUnit}
    (read : LexicalUnit.next (spelling ++ tail) = .ok (unit, tail))
    (classifies : ofUnit offset unit = .ok first)
    (later : Lexes (offset + LexicalUnit.byteCount spelling) tail others) :
    Lexes offset (spelling ++ tail) (first ++ others) := by
  obtain ⟨units, scans, behind⟩ := later
  obtain ⟨some, spelled⟩ := LexicalUnit.spelling_of_next read
  cases List.append_cancel_right spelled
  refine ⟨(offset, unit) :: units, ?_, ?_⟩
  · cases start : unit.spelling with
    | nil => exact absurd start some
    | cons c more =>
        rw [start, List.cons_append] at read
        rw [start] at scans
        rw [List.cons_append,
          LexicalUnit.scan_of_next (LexicalUnit.isBlank_of_next read) read, start, scans]
        rfl
  · rw [ofUnits, classifies, behind]
    rfl

/-- The lexeme of a symbol, and of what stands behind it. -/
theorem symbol {c : Char} (read : LexicalUnit.next (c :: tail) = .ok (.symbol c, tail))
    (later : Lexes (offset + LexicalUnit.byteCount [c]) tail others) :
    Lexes offset (c :: tail) (ofKind (symbolKind c) c.toString offset :: others) := by
  have whole : Lexes offset ([c] ++ tail) ([ofKind (symbolKind c) c.toString offset] ++ others) :=
    .unit read rfl later
  exact whole

/-- A space in front of lexemes. -/
theorem space (later : Lexes (offset + 1) text others) : Lexes offset (' ' :: text) others := by
  have blank : ∀ c ∈ [' '], LexicalUnit.isBlank c = true := by simp [LexicalUnit.isBlank]
  exact .blanks blank later

/-- **The lexemes of a text and of what follows a delimiter.** -/
theorem append (delimited : LexicalUnit.Delimited tail) (here : Lexes offset text first)
    (later : Lexes (offset + LexicalUnit.byteCount text) tail others) :
    Lexes offset (text ++ tail) (first ++ others) := by
  obtain ⟨units, scans, classifies⟩ := here
  obtain ⟨behind, scansBehind, classifiesBehind⟩ := later
  refine ⟨units ++ behind, ?_, ?_⟩
  · rw [LexicalUnit.scan_append delimited scans, scansBehind]
    rfl
  · rw [ofUnits_append, classifies, classifiesBehind]
    rfl

end Lexes

end Lexeme

end Schemata
