/-
**Lexemes: the classified words of a schema text.**

`Lexeme.tokenize` cuts a text into units first and classifies them afterwards, so a character that
no unit can hold is reported before any unknown word.

* a keyword yields its long name, whichever spelling was used;
* `#name` and `##name` yield two lexemes, and quoted text yields its quotes with one lexeme for each
  run and each escape between them;
* an escape of no special meaning keeps its backslash.
-/

import Schemata.Language.Keyword
import Schemata.Language.LexicalUnit

namespace Schemata

/-- A classified word with its byte offset. `carriesValue` says whether it survives into the
forest. -/
structure Lexeme where
  kind : TokenKind
  value : String
  carriesValue : Bool
  offset : Nat
deriving DecidableEq, Repr

/-- Why a text has no forest. -/
inductive ParseError where
  | unexpectedCharacter (offset : Nat) (character : Char)
  | unexpectedEnd (offset : Nat)
  | unknownSuffix (offset : Nat) (spelling : String)
  | unknownValidator (offset : Nat) (spelling : String)
  | underivable
deriving DecidableEq, Repr

namespace ParseError

/-- The byte offset of a lexical error. -/
def offset? : ParseError → Option Nat
  | unexpectedCharacter offset _ | unexpectedEnd offset | unknownSuffix offset _
  | unknownValidator offset _ => some offset
  | underivable => none

/-- What is wrong at the offset of a lexical error. -/
def detail : ParseError → String
  | unexpectedCharacter _ character => "unexpected character '" ++ character.toString ++ "'"
  | unexpectedEnd _ => "unexpected end of input"
  | unknownSuffix _ spelling => "unknown suffix '" ++ spelling ++ "'"
  | unknownValidator _ spelling => "unknown validator '" ++ spelling ++ "'"
  | underivable => "could not derive the input in full"

/-- The text of an error. -/
def message (error : ParseError) : String :=
  match error.offset? with
  | some offset => "Lexical error at offset " ++ toString offset ++ ": " ++ error.detail
  | none => "Semantic error: " ++ error.detail

end ParseError

namespace Lexeme

/-- A lexeme that survives into the forest as its kind says. -/
def ofKind (kind : TokenKind) (value : String) (offset : Nat) : Lexeme :=
  ⟨kind, value, kind.carriesValue, offset⟩

/-! ### Quoted text -/

/-- **The text that an escape stands for.** Escapes of no special meaning keep their backslash. -/
def unescape (character : Char) : String :=
  if character = 'n' then "\n"
  else if character = 't' then "\t"
  else if character = '\\' ∨ character = '\'' then character.toString
  else String.ofList ['\\', character]

/-- The lexeme of a part of a quoted text. -/
def ofQuotedPart (offset : Nat) : QuotedPart → Lexeme
  | .run characters => ofKind .text (String.ofList characters) offset
  | .escape character => ofKind .text (unescape character) offset

/-- The lexemes of the parts of a quoted text, and of the closing quote after them. -/
def ofQuotedParts (offset : Nat) : List QuotedPart → List Lexeme
  | [] => [ofKind .quote "'" offset]
  | part :: parts =>
    ofQuotedPart offset part ::
      ofQuotedParts (offset + LexicalUnit.byteCount part.spelling) parts

/-! ### Units -/

/-- The kind of a character that is a unit by itself. -/
def symbolKind (character : Char) : TokenKind :=
  if character = '(' then .leftParen
  else if character = ')' then .rightParen
  else if character = ',' then .comma
  else if character = ':' then .colon
  else if character = '\x7b' then .leftBrace
  else if character = '\x7d' then .rightBrace
  else if character = '$' then .dollar
  else .bang

/-- The lexeme of a bare word: a constant, a keyword in its long spelling, or an identifier. -/
def ofWord (offset : Nat) (word : String) : Lexeme :=
  if word = "true" ∨ word = "false" ∨ word = "null" then ofKind .constant word offset
  else match Keyword.findLong? word with
    | some keyword => ofKind keyword.kind keyword.long offset
    | none => ofKind .identifier word offset

/-- **The lexemes of a unit.** -/
def ofUnit (offset : Nat) : LexicalUnit → Except ParseError (List Lexeme)
  | .quoted parts => .ok (ofKind .quote "'" offset :: ofQuotedParts (offset + 1) parts)
  | .reference name => .ok [ofKind .reference "reference" offset,
      ofKind .identifier (String.ofList name) (offset + 2)]
  | .define name => .ok [ofKind .define "define" offset,
      ofKind .identifier (String.ofList name) (offset + 1)]
  | .suffix word =>
    let spelling := "~" ++ String.ofList word
    match Keyword.find? spelling with
    | some keyword => .ok [ofKind keyword.kind keyword.long offset]
    | none => .error (.unknownSuffix offset spelling)
  | .keyword word =>
    match Keyword.find? (String.ofList word) with
    | some keyword => .ok [ofKind keyword.kind keyword.long offset]
    | none => .error (.unknownValidator offset ("@" ++ String.ofList word))
  | .number text => .ok [ofKind .number (String.ofList text) offset]
  | .operator text => .ok [ofKind .operator (String.ofList text) offset]
  | .symbol character => .ok [ofKind (symbolKind character) character.toString offset]
  | .word text => .ok [ofWord offset (String.ofList text)]

/-- The lexemes of several units; the first unknown word is the error. -/
def ofUnits : List (Nat × LexicalUnit) → Except ParseError (List Lexeme)
  | [] => .ok []
  | (offset, unit) :: rest => do
    let first ← ofUnit offset unit
    let others ← ofUnits rest
    .ok (first ++ others)

/-- The error of a text that cannot go on as `failing` does. -/
def failure (text failing : List Char) : ParseError :=
  let offset := LexicalUnit.byteCount text - LexicalUnit.byteCount failing
  match failing with
  | [] => .unexpectedEnd offset
  | character :: _ => .unexpectedCharacter offset character

/-- **The lexemes of a schema text.** -/
def tokenize (text : String) : Except ParseError (List Lexeme) :=
  match LexicalUnit.scan 0 text.toList with
  | .error failing => .error (failure text.toList failing)
  | .ok units => ofUnits units

/-- A lexeme in a listing: its offset, its kind and its value, in columns. -/
def listing (lexeme : Lexeme) : String :=
  let offset := toString lexeme.offset
  let kind := lexeme.kind.name
  String.ofList (List.replicate (4 - offset.length) ' ') ++ offset ++ "  " ++
    kind ++ String.ofList (List.replicate (12 - kind.length) ' ') ++ " " ++ lexeme.value

end Lexeme

end Schemata
