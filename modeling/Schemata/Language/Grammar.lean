/-
**The grammar of the schema language, as a table.**

A rule is a sequence of items. A rule with a construct collects what it derives in a frame of its
own and reduces the frame to one node; a rule without one leaves what it derives in the frame it was
called in. Alternatives are tried in order.
-/

import Schemata.Language.Keyword

namespace Schemata.Grammar

/-- The rules. -/
inductive RuleName where
  | program
  | suffix
  | suffixArgs
  | chain
  | entry
  | errorTag
  | validator
  | objectParams
  | field
  | arrayParams
  | compareParams
  | comparator
  | injection
  | string
  | regexParams
  | valueParams
  | listParams
  | value
  | defineParams
  | referenceParams
deriving DecidableEq, Repr

/-- Every rule, in the order of the table. -/
def RuleName.all : List RuleName :=
  [.program, .suffix, .suffixArgs, .chain, .entry, .errorTag, .validator, .objectParams, .field,
    .arrayParams, .compareParams, .comparator, .injection, .string, .regexParams, .valueParams,
    .listParams, .value, .defineParams, .referenceParams]

/-- One element of the body of a rule. -/
inductive Item where
  | token (kind : TokenKind)
  | rule (name : RuleName)
  | choice (alternatives : List (List Item))
  | many (body : List Item)

/-- What the frame of a rule becomes. -/
inductive Construct where
  | comparator
  | injection
  | text
  | params
  | entry
deriving DecidableEq, Repr

/-- A rule: what its frame becomes, if it has one, and its body. -/
structure Rule where
  construct : Option Construct
  items : List Item

/-- An optional sequence. -/
def Item.optional (items : List Item) : Item :=
  .choice [items, []]

/-- The kinds of the bare words that name a field although they are keywords. -/
def nameKeywords : List TokenKind :=
  [.primitive, .object, .array, .compare, .length, .regex, .equality, .oneOf]

/-- The alternatives for a field name: an identifier, quoted text, or a bare word. -/
def fieldNames : List (List Item) :=
  [[Item.token .identifier], [.rule .string], [.token .constant]] ++
    nameKeywords.map fun kind => [Item.token kind]

/-- The alternatives for the operand of a comparison. -/
def operands : List (List Item) :=
  [[Item.token .number], [.rule .string], [.rule .injection], [.token .identifier]] ++
    nameKeywords.map fun kind => [Item.token kind]

/-- **The table.** -/
def RuleName.definition : RuleName → Rule
  | .program => ⟨none, [.rule .chain, .many [.rule .suffix]]⟩
  | .suffix => ⟨some .entry,
      [.choice [[.token .errorSuffix, .rule .suffixArgs], [.token .errorSuffix],
        [.token .metaSuffix]]]⟩
  | .suffixArgs => ⟨some .params, [.token .leftParen, .rule .injection, .token .rightParen]⟩
  | .chain => ⟨none,
      [.rule .entry, .many [.choice [[.token .colon, .rule .entry], [.rule .entry]]]]⟩
  | .entry => ⟨some .entry, [.rule .validator, .optional [.rule .errorTag]]⟩
  | .errorTag => ⟨none, [.token .bang, .choice [[.token .number], [.rule .string]]]⟩
  | .validator => ⟨none,
      [.choice [
        [.token .primitive],
        [.token .object, .rule .objectParams],
        [.token .object],
        [.token .array, .rule .arrayParams],
        [.token .array],
        [.token .compare, .rule .compareParams],
        [.token .length, .rule .compareParams],
        [.token .regex, .rule .regexParams],
        [.token .equality, .rule .valueParams],
        [.token .oneOf, .rule .listParams],
        [.token .define, .rule .defineParams],
        [.token .reference, .rule .referenceParams]]]⟩
  | .objectParams => ⟨some .params,
      [.token .leftParen,
        .optional [.rule .field, .many [.token .comma, .rule .field], .optional [.token .comma]],
        .token .rightParen]⟩
  | .field => ⟨none, [.choice fieldNames, .optional [.token .colon], .rule .chain]⟩
  | .arrayParams => ⟨some .params,
      [.token .leftParen, .optional [.rule .chain], .token .rightParen]⟩
  | .compareParams => ⟨some .params, [.token .leftParen, .rule .comparator, .token .rightParen]⟩
  | .comparator => ⟨some .comparator, [.token .operator, .choice operands]⟩
  | .injection => ⟨some .injection,
      [.choice [[.token .dollar, .token .number],
        [.token .leftBrace, .token .number, .token .rightBrace]]]⟩
  | .string => ⟨some .text, [.token .quote, .many [.token .text], .token .quote]⟩
  | .regexParams => ⟨some .params, [.token .leftParen, .rule .string, .token .rightParen]⟩
  | .valueParams => ⟨some .params, [.token .leftParen, .rule .value, .token .rightParen]⟩
  | .listParams => ⟨some .params,
      [.token .leftParen, .rule .value, .many [.token .comma, .rule .value], .token .rightParen]⟩
  | .value => ⟨none,
      [.choice [[.token .number], [.token .constant], [.rule .string], [.rule .injection]]]⟩
  | .defineParams => ⟨some .params,
      [.token .identifier, .token .leftParen, .rule .chain, .token .rightParen]⟩
  | .referenceParams => ⟨some .params, [.token .identifier]⟩

end Schemata.Grammar
