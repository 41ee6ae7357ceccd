/-
**Blanks, strings and keys of TOML.**

A string is basic, with escapes, or literal, and either kind may run over several lines. Line breaks
in strings are line feeds, and one right behind the opening quotes does not count.
-/

import Schemata.Numeral.Hexadecimal

namespace Schemata.Toml

/-! ### Blanks -/

/-- A blank inside a line. -/
def isBlank (c : Char) : Bool :=
  c = ' ' || c = '\t'

/-- A character that may stand in comments and strings. -/
def isPlain (c : Char) : Bool :=
  c = '\t' || (0x20 ≤ c.toNat && c.toNat ≠ 0x7F)

/-- Drop the blanks in front. -/
def skipBlanks : Read Unit := do
  let _ ← Read.run isBlank

/-- A line break. -/
def readLineBreak : Read Unit := do
  let _ ← Read.accepts ['\r']
  Read.exactly ['\n']

/-- A comment, if there is one, and the end of its line or of the text. -/
def readLineEnd : Read Unit := do
  skipBlanks
  if ← Read.accepts ['#'] then
    let _ ← Read.run isPlain
  match ← Read.peek with
  | none => pure ()
  | some _ => readLineBreak

/-- Drop blanks, line breaks and comments; `inComment` says that a comment is being dropped. -/
def skipFiller (inComment : Bool) : List Char → List Char
  | [] => []
  | '\n' :: rest => skipFiller false rest
  | '\r' :: '\n' :: rest => skipFiller false rest
  | c :: rest =>
    if inComment then (if isPlain c then skipFiller true rest else c :: rest)
    else if isBlank c then skipFiller false rest
    else if c = '#' then skipFiller true rest
    else c :: rest

/-- Drop blanks, line breaks and comments. -/
def skipLines : Read Unit := fun text =>
  some ((), skipFiller false text)

/-! ### Strings -/

/-- The character of an escape, its backslash being read already. -/
def readEscape : Read Char := do
  match ← Read.satisfying fun _ => true with
  | 'b' => pure '\x08'
  | 't' => pure '\t'
  | 'n' => pure '\n'
  | 'f' => pure '\x0c'
  | 'r' => pure '\r'
  | '"' => pure '"'
  | '\\' => pure '\\'
  | 'u' => do
    let point ← Hexadecimal.read 4
    (Hexadecimal.character? point).elim Read.refuse pure
  | 'U' => do
    let point ← Hexadecimal.read 8
    (Hexadecimal.character? point).elim Read.refuse pure
  | _ => Read.refuse

/-- A basic string on one line, its opening quote being read already; `fuel` bounds its length. -/
def readBasic : (fuel : Nat) → Read (List Char)
  | 0 => Read.refuse
  | fuel + 1 => do
    let c ← Read.satisfying isPlain
    if c = '"' then pure []
    else
      let c ← if c = '\\' then readEscape else pure c
      let others ← readBasic fuel
      pure (c :: others)

/-- A literal string on one line, its opening quote being read already. -/
def readLiteral : Read (List Char) := do
  let held ← Read.run fun c => isPlain c && c ≠ '\''
  Read.exactly ['\'']
  pure held

/-- The quotes at the front, if they end a string of several lines: up to two of them belong to it,
and there may be no more. -/
def closingQuotes (quote : Char) : Read (Option (List Char)) := fun text =>
  let quotes := text.takeWhile (· = quote)
  if quotes.length < 3 then some (none, text)
  else if quotes.length ≤ 5 then some (some (quotes.drop 3), text.drop quotes.length)
  else none

/-- White space of any kind. -/
def isSpace (c : Char) : Bool :=
  isBlank c || c = '\n' || c = '\r'

/-- Drop a backslash that joins lines, with all white space behind it, if one stands at the
front. -/
def skipJoinedLines : Read Bool := fun text =>
  match text with
  | '\\' :: rest =>
    match rest.dropWhile isBlank with
    | '\n' :: more => some (true, more.dropWhile isSpace)
    | '\r' :: '\n' :: more => some (true, more.dropWhile isSpace)
    | _ => some (false, text)
  | _ => some (false, text)

/-- A character inside a string of several lines. -/
def readLineCharacter : Read Char := do
  if ← Read.accepts ['\r', '\n'] then pure '\n'
  else Read.satisfying fun c => isPlain c || c = '\n'

/-- A string of several lines up to its quotes; `fuel` bounds its length. -/
def readLinesUpTo (quote : Char) (escapes : Bool) : (fuel : Nat) → Read (List Char)
  | 0 => Read.refuse
  | fuel + 1 => do
    match ← closingQuotes quote with
    | some quotes => pure quotes
    | none =>
      if ← (if escapes then skipJoinedLines else pure false) then readLinesUpTo quote escapes fuel
      else
        let c ← readLineCharacter
        let c ← if escapes && c = '\\' then readEscape else pure c
        let others ← readLinesUpTo quote escapes fuel
        pure (c :: others)

/-- A string of several lines, its opening quotes being read already. -/
def readLines (quote : Char) (escapes : Bool) : Read (List Char) := do
  if !(← Read.accepts ['\r', '\n']) then
    let _ ← Read.accepts ['\n']
  fun text => readLinesUpTo quote escapes (text.length + 1) text

/-- **A string on one line.** -/
def readShortString : Read String := do
  match ← Read.oneOf ['"', '\''] with
  | '"' => String.ofList <$> fun text => readBasic (text.length + 1) text
  | _ => String.ofList <$> readLiteral

/-- **A string of any kind.** -/
def readString : Read String := do
  if ← Read.accepts ['"', '"', '"'] then String.ofList <$> readLines '"' true
  else if ← Read.accepts ['\'', '\'', '\''] then String.ofList <$> readLines '\'' false
  else readShortString

/-! ### Keys -/

/-- A character of a key without quotes. -/
def isKeyChar (c : Char) : Bool :=
  c.isAlpha || c.isDigit || c = '_' || c = '-'

/-- A key without points. -/
def readSimpleKey : Read String := do
  match ← Read.peek with
  | some '"' | some '\'' => readShortString
  | _ =>
    let key ← Read.run isKeyChar
    if key.isEmpty then Read.refuse else pure (String.ofList key)

/-- The keys between points, with blanks around each; `fuel` bounds their number. -/
def readKeys : (fuel : Nat) → Read (List String)
  | 0 => Read.refuse
  | fuel + 1 => do
    skipBlanks
    let key ← readSimpleKey
    skipBlanks
    if ← Read.accepts ['.'] then
      let others ← readKeys fuel
      pure (key :: others)
    else pure [key]

/-- How deep values may be nested, and how many keys there may be between points. -/
def greatestDepth : Nat := 79

/-- **A dotted key**: the keys on its way, and the last one. -/
def readKey : Read (List String × String) := fun text => do
  let (keys, rest) ← readKeys (text.length + 1) text
  if greatestDepth < keys.length then none
  else
    let last ← keys.getLast?
    some ((keys.dropLast, last), rest)

end Schemata.Toml
