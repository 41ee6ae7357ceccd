/-
**The alphabet of the grammar, and the keywords.**

A keyword has a long and a short spelling; both stand for the same token kind and for the long
name. The two suffix keywords are spelled with a leading `~`.
-/

namespace Schemata

/-- The kinds of lexemes, which are the terminals of the grammar. -/
inductive TokenKind where
  | object
  | array
  | primitive
  | compare
  | length
  | regex
  | equality
  | oneOf
  | define
  | reference
  | errorSuffix
  | metaSuffix
  | identifier
  | number
  | constant
  | text
  | operator
  | quote
  | leftParen
  | rightParen
  | comma
  | colon
  | leftBrace
  | rightBrace
  | dollar
  | bang
deriving DecidableEq, Repr

namespace TokenKind

/-- Every kind. -/
def all : List TokenKind :=
  [object, array, primitive, compare, length, regex, equality, oneOf, define, reference,
    errorSuffix, metaSuffix, identifier, number, constant, text, operator, quote, leftParen,
    rightParen, comma, colon, leftBrace, rightBrace, dollar, bang]

/-- The name under which a kind is shown. -/
def name : TokenKind → String
  | object => "Object"
  | array => "Array"
  | primitive => "Primitive"
  | compare => "Compare"
  | length => "Length"
  | regex => "Regex"
  | equality => "Equality"
  | oneOf => "OneOf"
  | define => "Define"
  | reference => "Reference"
  | errorSuffix => "ErrorSuffix"
  | metaSuffix => "MetaSuffix"
  | identifier => "Identifier"
  | number => "Number"
  | constant => "Constant"
  | text => "Text"
  | operator => "Operator"
  | quote => "Quote"
  | leftParen => "LParen"
  | rightParen => "RParen"
  | comma => "Comma"
  | colon => "Colon"
  | leftBrace => "LBrace"
  | rightBrace => "RBrace"
  | dollar => "Dollar"
  | bang => "Bang"

/-- The kind that is shown under a name. -/
def ofName? (name : String) : Option TokenKind :=
  all.find? fun kind => kind.name = name

/-- **Whether lexemes of this kind survive into the forest.** Brackets and separators that only give
structure do not. -/
def carriesValue : TokenKind → Bool
  | quote | leftParen | rightParen | colon | leftBrace | rightBrace | dollar => false
  | _ => true

/-- Whether the kind is that of a keyword, which may head an invocation. -/
def isKeyword : TokenKind → Bool
  | object | array | primitive | compare | length | regex | equality | oneOf | define | reference
  | errorSuffix | metaSuffix => true
  | _ => false

end TokenKind

/-- A keyword: its two spellings and the kind of its lexemes. -/
structure Keyword where
  long : String
  short : String
  kind : TokenKind
deriving DecidableEq, Repr

namespace Keyword

/-- **The keyword table.** -/
def table : List Keyword :=
  [⟨"object", "o", .object⟩, ⟨"array", "a", .array⟩, ⟨"number", "n", .primitive⟩,
    ⟨"string", "s", .primitive⟩, ⟨"bool", "b", .primitive⟩, ⟨"integer", "i", .primitive⟩,
    ⟨"date", "d", .primitive⟩, ⟨"empty", "em", .primitive⟩, ⟨"compare", "c", .compare⟩,
    ⟨"length", "l", .length⟩, ⟨"regex", "r", .regex⟩, ⟨"equal", "eq", .equality⟩,
    ⟨"notEqual", "ne", .equality⟩, ⟨"oneOf", "of", .oneOf⟩, ⟨"~error", "~e", .errorSuffix⟩,
    ⟨"~meta", "~m", .metaSuffix⟩]

/-- Whether the keyword is a suffix. -/
def isSuffix (keyword : Keyword) : Bool :=
  keyword.long.toList.head? = some '~'

/-- The keyword with this spelling, long or short. -/
def find? (word : String) : Option Keyword :=
  table.find? fun keyword => keyword.long = word || keyword.short = word

/-- The keyword with this long spelling. -/
def findLong? (word : String) : Option Keyword :=
  table.find? fun keyword => keyword.long = word

end Keyword

end Schemata
