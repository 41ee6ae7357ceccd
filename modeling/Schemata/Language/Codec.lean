/-
**Forests and lexemes as JSON.**

A node is an object with its sort under `t` and its content under `v`. Members come in a fixed
order, and parameters and error tags that are absent are left out.

* `Param.toJson` and `Param.ofJson?` write and read a node;
* the number of an operand is always a float, and null stands for every datum that is not finite.
-/

import Schemata.Json.Value
import Schemata.Language.Forest

namespace Schemata

/-! ### Lexemes -/

namespace Lexeme

/-- A lexeme as JSON. -/
def toJson (lexeme : Lexeme) : Json :=
  .object [("kind", .string lexeme.kind.name), ("value", .string lexeme.value),
    ("carries_value", .bool lexeme.carriesValue), ("offset", .ofNat lexeme.offset)]

/-- The kind and the value of a lexeme. -/
def headOfJson? (json : Json) : Option (TokenKind × String) := do
  let kind ← (← (← json.member? "kind").text?) |> TokenKind.ofName?
  let value ← (← json.member? "value").text?
  some (kind, value)

/-- A lexeme with every member given. -/
def ofJson? (json : Json) : Option Lexeme := do
  let (kind, value) ← headOfJson? json
  let carriesValue ← (← json.member? "carries_value").flag?
  let offset ← (← json.member? "offset").natural?
  some ⟨kind, value, carriesValue, offset⟩

/-- A lexeme at a given place; whether it carries a value follows from its kind if it is not
said. -/
def ofJsonAt? (offset : Nat) (json : Json) : Option Lexeme := do
  let (kind, value) ← headOfJson? json
  let carriesValue ← match json.member? "carries_value" with
    | some flag => flag.flag?
    | none => some kind.carriesValue
  some ⟨kind, value, carriesValue, offset⟩

end Lexeme

/-! ### Comparisons and tags -/

/-- The name of a relation. -/
def Relation.name : Relation → String
  | greater => "Gt"
  | atLeast => "Gte"
  | less => "Lt"
  | atMost => "Lte"
  | equal => "Eq"
  | different => "Ne"

/-- The relation of a name. -/
def Relation.ofName? (name : String) : Option Relation :=
  all.find? fun relation => relation.name = name

/-- An operand as JSON. -/
def Operand.toJson : Operand → Json
  | .number (.finite x) => .object [("number", .number (.float x))]
  | .number _ => .object [("number", .null)]
  | .text content => .object [("text", .string content)]
  | .injection index => .object [("injection", .ofNat index)]
  | .field name => .object [("field", .string name)]

/-- The operand that a JSON value stands for. -/
def Operand.ofJson? : Json → Option Operand
  | .object [(sort, content)] =>
    if sort = "number" then content.datum?.map .number
    else if sort = "text" then content.text?.map .text
    else if sort = "injection" then content.natural?.map .injection
    else if sort = "field" then content.text?.map .field
    else none
  | _ => none

/-- A comparison as JSON. -/
def Comparison.toJson (comparison : Comparison) : Json :=
  .object [("op", .string comparison.relation.name), ("operand", comparison.operand.toJson)]

/-- The comparison that a JSON value stands for. -/
def Comparison.ofJson? (json : Json) : Option Comparison := do
  let relation ← Relation.ofName? (← (← json.member? "op").text?)
  let operand ← Operand.ofJson? (← json.member? "operand")
  some ⟨relation, operand⟩

/-- An error tag as JSON. -/
def ErrorTag.toJson : ErrorTag → Json
  | .positional index => .object [("positional", .ofNat index)]
  | .literal text => .object [("literal", .string text)]

/-- The error tag that a JSON value stands for. -/
def ErrorTag.ofJson? : Json → Option ErrorTag
  | .object [(sort, content)] =>
    if sort = "positional" then content.natural?.map .positional
    else if sort = "literal" then content.text?.map .literal
    else none
  | _ => none

/-! ### Nodes -/

mutual

/-- **A node as JSON.** -/
def Param.toJson : Param → Json
  | .validator invocation => .object [("t", .string "validator"), ("v", invocation.toJson)]
  | .token lexeme => .object [("t", .string "token"), ("v", lexeme.toJson)]
  | .text text => .object [("t", .string "text"), ("v", .string text)]
  | .injection index => .object [("t", .string "injection"), ("v", .ofNat index)]
  | .comparison comparison =>
    .object [("t", .string "comparison"), ("v", comparison.toJson)]

/-- An invocation as JSON. -/
def Invocation.toJson : Invocation → Json
  | .mk name params tag =>
    .object (("name", .string name) ::
      ((if params.isEmpty then [] else [("params", .array (Param.listToJson params))]) ++
        (match tag with
          | none => []
          | some tag => [("error", tag.toJson)])))

/-- Nodes as JSON. -/
def Param.listToJson : List Param → List Json
  | [] => []
  | param :: rest => param.toJson :: Param.listToJson rest

end

/-- The error tag among the members of an invocation: absent, null or given. -/
def ErrorTag.ofMember? : Option Json → Option (Option ErrorTag)
  | none => some none
  | some .null => some none
  | some json => (ErrorTag.ofJson? json).map some

mutual

/-- **The node that a JSON value stands for.** -/
def Param.ofJson? : Json → Option Param
  | .object members => do
    let sort ← (← Dictionary.find? "t" members).text?
    if sort = "validator" then
      (Invocation.ofMembers? members).map .validator
    else
      let content ← Dictionary.find? "v" members
      if sort = "token" then (Lexeme.ofJson? content).map .token
      else if sort = "text" then content.text?.map .text
      else if sort = "injection" then content.natural?.map .injection
      else if sort = "comparison" then (Comparison.ofJson? content).map .comparison
      else none
  | _ => none

/-- The invocation under `v`. -/
def Invocation.ofMembers? : List (String × Json) → Option Invocation
  | [] => none
  | (name, content) :: rest =>
    if name = "v" then Invocation.ofJson? content else Invocation.ofMembers? rest

/-- The invocation that a JSON value stands for. -/
def Invocation.ofJson? : Json → Option Invocation
  | .object members => do
    let name ← (← Dictionary.find? "name" members).text?
    let params ← Param.ofParamsMember? members
    let tag ← ErrorTag.ofMember? (Dictionary.find? "error" members)
    some (.mk name params tag)
  | _ => none

/-- The nodes under `params`; none if the member is absent. -/
def Param.ofParamsMember? : List (String × Json) → Option (List Param)
  | [] => some []
  | (name, content) :: rest =>
    if name = "params" then
      match content with
      | .array items => Param.listOfJson? items
      | _ => none
    else Param.ofParamsMember? rest

/-- The nodes that JSON values stand for. -/
def Param.listOfJson? : List Json → Option (List Param)
  | [] => some []
  | json :: rest => do
    let param ← Param.ofJson? json
    let params ← Param.listOfJson? rest
    some (param :: params)

end

end Schemata
