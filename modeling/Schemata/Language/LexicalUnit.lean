/-
**Lexical units: the words of a schema text.**

`LexicalUnit.next` reads the unit at the front of a text. When there is none it answers the text
from the first character that cannot stand where it does, so the place of a failure is the length of
what is left. Blanks separate units and stand inside none of them.

* `spelling_of_next`: a unit is read exactly as it is spelled;
* `length_lt_of_next`: reading a unit shortens the text, so `LexicalUnit.scan` ends.
-/

namespace Schemata

/-- A part of a quoted text: a run of plain characters, or a backslash and the character after
it. -/
inductive QuotedPart where
  | run (characters : List Char)
  | escape (character : Char)
deriving DecidableEq, Repr

/-- The words of a schema text. -/
inductive LexicalUnit where
  | quoted (parts : List QuotedPart)
  | reference (name : List Char)
  | define (name : List Char)
  | suffix (word : List Char)
  | keyword (word : List Char)
  | number (text : List Char)
  | operator (text : List Char)
  | symbol (character : Char)
  | word (text : List Char)
deriving DecidableEq, Repr

/-- How a part of a quoted text is spelled. -/
def QuotedPart.spelling : QuotedPart → List Char
  | run characters => characters
  | escape character => ['\\', character]

namespace LexicalUnit

/-- How a unit is spelled. -/
def spelling : LexicalUnit → List Char
  | .quoted parts => '\'' :: (parts.flatMap QuotedPart.spelling ++ ['\''])
  | .reference name => '#' :: '#' :: name
  | .define name => '#' :: name
  | .suffix letters => '~' :: letters
  | .keyword letters => '@' :: letters
  | .number text => text
  | .operator text => text
  | .symbol character => [character]
  | .word letters => letters

/-! ### Character classes -/

/-- The blanks between units. -/
def isBlank (c : Char) : Bool :=
  c = ' ' || c = '\t' || c = '\r' || c = '\n'

/-- The characters of a name: ASCII letters, digits and the underscore. -/
def isNameChar (c : Char) : Bool :=
  c.isAlpha || c.isDigit || c = '_'

/-- The characters that a word may start with. -/
def isWordStart (c : Char) : Bool :=
  c.isAlpha || c = '_'

/-- The characters that are units by themselves. -/
def isSymbol (c : Char) : Bool :=
  c = '(' || c = ')' || c = ',' || c = ':' || c = '\x7b' || c = '\x7d' || c = '$' || c = '!'

/-! ### Reading -/

/-- A unit and the text after it, or the text from the character that cannot stand where it does. -/
abbrev Reading (α : Type) := Except (List Char) (α × List Char)

/-- Put a plain character in front of the parts of a quoted text. -/
def consPlain (c : Char) : List QuotedPart → List QuotedPart
  | .run characters :: parts => .run (c :: characters) :: parts
  | parts => .run [c] :: parts

/-- The parts of a quoted text up to its closing quote. -/
def readQuoted : List Char → Reading (List QuotedPart)
  | [] => .error []
  | ['\\'] => .error ['\\']
  | '\\' :: character :: rest =>
    (readQuoted rest).map fun (parts, rest) => (.escape character :: parts, rest)
  | c :: rest =>
    if c = '\'' then .ok ([], rest)
    else (readQuoted rest).map fun (parts, rest) => (consPlain c parts, rest)

/-- A name of at least one character. -/
def readName (make : List Char → LexicalUnit) (text : List Char) : Reading LexicalUnit :=
  if (text.takeWhile isNameChar).isEmpty then .error text
  else .ok (make (text.takeWhile isNameChar), text.dropWhile isNameChar)

/-- A word: a name that starts with no digit. -/
def readWord (make : List Char → LexicalUnit) : List Char → Reading LexicalUnit
  | [] => .error []
  | c :: rest =>
    if isWordStart c then .ok (make (c :: rest.takeWhile isNameChar), rest.dropWhile isNameChar)
    else .error (c :: rest)

/-- The digits after a point, with the point, if there are any. -/
def splitFraction : List Char → List Char × List Char
  | '.' :: rest =>
    if (rest.takeWhile Char.isDigit).isEmpty then ([], '.' :: rest)
    else ('.' :: rest.takeWhile Char.isDigit, rest.dropWhile Char.isDigit)
  | rest => ([], rest)

/-- A number after its sign, if it starts with a digit. -/
def readNumber? (sign : List Char) (text : List Char) : Option (LexicalUnit × List Char) :=
  let digits := text.takeWhile Char.isDigit
  if digits.isEmpty then none
  else
    let (fraction, rest) := splitFraction (text.dropWhile Char.isDigit)
    some (.number (sign ++ digits ++ fraction), rest)

/-- **The unit at the front of a text.** -/
def next : List Char → Reading LexicalUnit
  | '\'' :: rest => (readQuoted rest).map fun (parts, rest) => (.quoted parts, rest)
  | '#' :: '#' :: rest => readName .reference rest
  | '#' :: rest => readName .define rest
  | '~' :: rest => readWord .suffix rest
  | '@' :: rest => readWord .keyword rest
  | '>' :: '=' :: rest => .ok (.operator ['>', '='], rest)
  | '<' :: '=' :: rest => .ok (.operator ['<', '='], rest)
  | '!' :: '=' :: rest => .ok (.operator ['!', '='], rest)
  | '>' :: rest => .ok (.operator ['>'], rest)
  | '<' :: rest => .ok (.operator ['<'], rest)
  | '=' :: rest => .ok (.operator ['='], rest)
  | '-' :: rest => match readNumber? ['-'] rest with
    | some found => .ok found
    | none => .error ('-' :: rest)
  | text => match readNumber? [] text with
    | some found => .ok found
    | none => match text with
      | [] => .error []
      | c :: rest => if isSymbol c then .ok (.symbol c, rest) else readWord .word (c :: rest)

/-! ### A unit is read as it is spelled -/

/-- A changed result is the change of a result. -/
theorem map_eq_ok {ε α β : Type} {reading : Except ε α} {change : α → β} {result : β} :
    reading.map change = .ok result ↔ ∃ found, reading = .ok found ∧ change found = result := by
  cases reading with
  | error _ => exact ⟨nofun, nofun⟩
  | ok found =>
    exact ⟨fun same => ⟨found, rfl, Except.ok.inj same⟩, fun ⟨_, rfl, same⟩ => congrArg _ same⟩

theorem spelling_consPlain (c : Char) (parts : List QuotedPart) :
    (consPlain c parts).flatMap QuotedPart.spelling =
      c :: parts.flatMap QuotedPart.spelling := by
  unfold consPlain
  split <;> simp [QuotedPart.spelling]

/-- The parts of a quoted text are read as they are spelled, up to the closing quote. -/
theorem spelling_of_readQuoted {text rest : List Char} {parts : List QuotedPart}
    (read : readQuoted text = .ok (parts, rest)) :
    text = parts.flatMap QuotedPart.spelling ++ '\'' :: rest := by
  fun_induction readQuoted text generalizing parts rest with
  | case1 => cases read
  | case2 => cases read
  | case3 character more ih =>
    obtain ⟨⟨innerParts, innerRest⟩, inner, same⟩ := map_eq_ok.mp read
    cases same
    simp [QuotedPart.spelling, ih inner]
  | case4 more _ _ =>
    simp only [Except.ok.injEq, Prod.mk.injEq] at read
    obtain ⟨rfl, rfl⟩ := read
    simp
  | case5 c more _ _ different ih =>
    obtain ⟨⟨innerParts, innerRest⟩, inner, same⟩ := map_eq_ok.mp read
    cases same
    simp [spelling_consPlain, ih inner]

theorem spelling_of_readName {make : List Char → LexicalUnit} {text rest : List Char}
    {unit : LexicalUnit} (read : readName make text = .ok (unit, rest)) :
    unit = make (text.takeWhile isNameChar) ∧ text = text.takeWhile isNameChar ++ rest := by
  unfold readName at read
  split at read
  · cases read
  · simp only [Except.ok.injEq, Prod.mk.injEq] at read
    obtain ⟨rfl, rfl⟩ := read
    exact ⟨rfl, (List.takeWhile_append_dropWhile).symm⟩

theorem spelling_of_readWord {make : List Char → LexicalUnit} {text rest : List Char}
    {unit : LexicalUnit} (read : readWord make text = .ok (unit, rest)) :
    ∃ letters, letters ≠ [] ∧ unit = make letters ∧ text = letters ++ rest := by
  cases text with
  | nil => cases read
  | cons c more =>
    by_cases start : isWordStart c = true
    · simp only [readWord, start, if_true, Except.ok.injEq, Prod.mk.injEq] at read
      obtain ⟨rfl, rfl⟩ := read
      exact ⟨_, by simp, rfl, by simp [List.takeWhile_append_dropWhile]⟩
    · simp [readWord, start] at read

theorem append_splitFraction (text : List Char) :
    (splitFraction text).1 ++ (splitFraction text).2 = text := by
  unfold splitFraction
  split
  · split <;> simp [List.takeWhile_append_dropWhile]
  · simp

theorem spelling_of_readNumber? {sign text rest : List Char} {unit : LexicalUnit}
    (read : readNumber? sign text = some (unit, rest)) :
    unit.spelling ≠ [] ∧ sign ++ text = unit.spelling ++ rest := by
  unfold readNumber? at read
  simp only [List.isEmpty_iff] at read
  split at read
  · cases read
  · rename_i digits
    simp only [Option.some.injEq, Prod.mk.injEq] at read
    obtain ⟨rfl, rfl⟩ := read
    refine ⟨by simp [spelling, digits], ?_⟩
    simp only [spelling, List.append_assoc, append_splitFraction,
      List.takeWhile_append_dropWhile]

/-- **A unit is read exactly as it is spelled**, and no unit is spelled with nothing. -/
theorem spelling_of_next {text rest : List Char} {unit : LexicalUnit}
    (read : next text = .ok (unit, rest)) :
    unit.spelling ≠ [] ∧ text = unit.spelling ++ rest := by
  unfold next at read
  split at read
  · rename_i more
    obtain ⟨⟨parts, innerRest⟩, inner, same⟩ := map_eq_ok.mp read
    cases same
    simp [spelling, spelling_of_readQuoted inner]
  · obtain ⟨rfl, whole⟩ := spelling_of_readName read
    exact ⟨by simp [spelling], by simp [spelling, ← whole]⟩
  · obtain ⟨rfl, whole⟩ := spelling_of_readName read
    exact ⟨by simp [spelling], by simp [spelling, ← whole]⟩
  · obtain ⟨letters, _, rfl, rfl⟩ := spelling_of_readWord read
    simp [spelling]
  · obtain ⟨letters, _, rfl, rfl⟩ := spelling_of_readWord read
    simp [spelling]
  · cases read
    simp [spelling]
  · cases read
    simp [spelling]
  · cases read
    simp [spelling]
  · cases read
    simp [spelling]
  · cases read
    simp [spelling]
  · cases read
    simp [spelling]
  · split at read
    · rename_i found number
      cases read
      exact spelling_of_readNumber? number
    · cases read
  · split at read
    · rename_i found number
      cases read
      simpa using spelling_of_readNumber? number
    · split at read
      · cases read
      · split at read
        · cases read
          simp [spelling]
        · obtain ⟨word, some, rfl, whole⟩ := spelling_of_readWord read
          exact ⟨some, whole⟩

/-- Reading a unit shortens the text. -/
theorem length_lt_of_next {text rest : List Char} {unit : LexicalUnit}
    (read : next text = .ok (unit, rest)) : rest.length < text.length := by
  obtain ⟨some, rfl⟩ := spelling_of_next read
  have positive := List.length_pos_iff.mpr some
  rw [List.length_append]
  omega

/-! ### Scanning a text -/

/-- The number of bytes of some characters. -/
def byteCount (text : List Char) : Nat :=
  text.foldr (fun c count => c.utf8Size + count) 0

/-- **The units of a text with their byte offsets**, or the text from the first character that
cannot stand where it does. -/
def scan (offset : Nat) (text : List Char) : Except (List Char) (List (Nat × LexicalUnit)) :=
  let blanks := text.takeWhile isBlank
  match _remaining : text.dropWhile isBlank with
  | [] => .ok []
  | c :: more =>
    match _read : next (c :: more) with
    | .error failing => .error failing
    | .ok (unit, rest) =>
      let start := offset + byteCount blanks
      (scan (start + byteCount unit.spelling) rest).map ((start, unit) :: ·)
termination_by text.length
decreasing_by
  have shorter := length_lt_of_next _read
  have fewer := (List.dropWhile_suffix isBlank (l := text)).length_le
  rw [_remaining] at fewer
  omega

end LexicalUnit

end Schemata
