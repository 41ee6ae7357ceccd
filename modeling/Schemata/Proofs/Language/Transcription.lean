/-
**Forests are read back from JSON.**

A forest that is written as JSON and read again is the same forest, if the numbers in it can be
written: those of comparisons have to be finite, and indices and offsets have to be machine words.
In the forest of a text that fits into memory, the indices and the offsets are.

* `Param.Everywhere` says that a node and all nodes inside it are so;
* `Param.listOfJson?_listToJson`: forests with numbers that can be written are read back;
* `Lexeme.Lexes.offset_le`: the lexemes of a text lie inside it;
* `Grammar.Builds.sized`: the grammar makes machine words of machine words;
* `Template.ofText_transcribed`: so a text can be compiled from its transcribed forest.
-/

import Mathlib
import Schemata.Compilation.Compile
import Schemata.Language.Codec
import Schemata.Proofs.Language.Membership
import Schemata.Proofs.Language.Placement

namespace Schemata

/-! ### All nodes of a forest -/

mutual

/-- **A node and all nodes inside it are so.** -/
def Param.Everywhere (holds : Param → Prop) : Param → Prop
  | .validator invocation => holds (.validator invocation) ∧ invocation.Everywhere holds
  | .token lexeme => holds (.token lexeme)
  | .text text => holds (.text text)
  | .injection index => holds (.injection index)
  | .comparison comparison => holds (.comparison comparison)

/-- All nodes inside an invocation are so. -/
def Invocation.Everywhere (holds : Param → Prop) : Invocation → Prop
  | .mk _ params _ => Param.AllEverywhere holds params

/-- All nodes of a forest are so. -/
def Param.AllEverywhere (holds : Param → Prop) : List Param → Prop
  | [] => True
  | param :: rest => param.Everywhere holds ∧ Param.AllEverywhere holds rest

end

/-- The number of a comparison is finite. -/
def Param.IsFinite : Param → Prop
  | .comparison ⟨_, .number datum⟩ => datum.finite?.isSome
  | _ => True

/-- **Indices and offsets are machine words.** -/
def Param.IsSized : Param → Prop
  | .validator (.mk _ _ (some (.positional index))) => index < Nat.pow 2 64
  | .token lexeme => lexeme.offset < Nat.pow 2 64
  | .injection index => index < Nat.pow 2 64
  | .comparison ⟨_, .injection index⟩ => index < Nat.pow 2 64
  | _ => True

theorem Param.allEverywhere_iff {holds : Param → Prop} {params : List Param} :
    AllEverywhere holds params ↔ ∀ param ∈ params, param.Everywhere holds := by
  induction params with
  | nil => exact ⟨fun _ => nofun, fun _ => trivial⟩
  | cons param rest ih => rw [AllEverywhere, ih, List.forall_mem_cons]

/-! ### Parts of nodes -/

/-- A machine word is read back. -/
theorem Json.natural?_ofNat {n : Nat} (small : n < Nat.pow 2 64) : (ofNat n).natural? = some n := by
  have fits : Fits n := ⟨by simp, by exact_mod_cast small⟩
  rw [ofNat, ofInt, dif_pos fits]
  show (if 0 ≤ (n : Int) then some (n : Int).toNat else none) = some n
  rw [if_pos (Int.natCast_nonneg n), Int.toNat_natCast]

theorem TokenKind.ofName?_name (kind : TokenKind) : ofName? kind.name = some kind := by
  cases kind <;> decide

theorem Relation.ofName?_name (relation : Relation) : ofName? relation.name = some relation := by
  cases relation <;> decide

/-- The members of a lexeme are read back. -/
theorem Lexeme.ofJson?_members {kind : TokenKind} {value : String} {carriesValue : Bool}
    {offset : Nat} {number : Json} (read : number.natural? = some offset) :
    ofJson? (.object [("kind", .string kind.name), ("value", .string value),
      ("carries_value", .bool carriesValue), ("offset", number)]) =
        some ⟨kind, value, carriesValue, offset⟩ := by
  have head : headOfJson? (.object [("kind", .string kind.name), ("value", .string value),
      ("carries_value", .bool carriesValue), ("offset", number)]) = some (kind, value) := by
    simp [headOfJson?, Json.member?, Dictionary.find?, Json.text?, TokenKind.ofName?_name]
  rw [ofJson?, head]
  simp [Json.member?, Dictionary.find?, Json.flag?, read]

theorem Lexeme.ofJson?_toJson {lexeme : Lexeme} (small : lexeme.offset < Nat.pow 2 64) :
    ofJson? lexeme.toJson = some lexeme :=
  ofJson?_members (Json.natural?_ofNat small)

theorem Operand.ofJson?_toJson {relation : Relation} {operand : Operand}
    (finite : Param.IsFinite (.comparison ⟨relation, operand⟩))
    (sized : Param.IsSized (.comparison ⟨relation, operand⟩)) :
    ofJson? operand.toJson = some operand := by
  cases operand with
  | number datum =>
      cases datum with
      | finite x => rfl
      | infinite _ | nan => cases finite
  | injection index =>
      have small : index < Nat.pow 2 64 := sized
      simp [ofJson?, toJson, Json.natural?_ofNat small]
  | text _ | field _ => simp [ofJson?, toJson, Json.text?]

theorem Comparison.ofJson?_toJson {comparison : Comparison}
    (finite : Param.IsFinite (.comparison comparison))
    (sized : Param.IsSized (.comparison comparison)) :
    ofJson? comparison.toJson = some comparison := by
  have operand := Operand.ofJson?_toJson finite sized
  simp [ofJson?, toJson, Json.member?, Dictionary.find?, Json.text?, Relation.ofName?_name, operand]

theorem ErrorTag.ofMember?_toJson {name : String} {params : List Param} {tag : ErrorTag}
    (sized : Param.IsSized (.validator (.mk name params (some tag)))) :
    ofMember? (some tag.toJson) = some (some tag) := by
  cases tag with
  | positional index =>
      have small : index < Nat.pow 2 64 := sized
      simp [ofMember?, ofJson?, toJson, Json.natural?_ofNat small]
  | literal text => simp [ofMember?, ofJson?, toJson, Json.text?]

/-! ### Nodes -/

mutual

/-- **A node is read back.** -/
theorem Param.ofJson?_toJson : (param : Param) → param.Everywhere Param.IsFinite →
    param.Everywhere Param.IsSized → Param.ofJson? param.toJson = some param
  | .validator invocation, finite, sized => by
      have inside := Invocation.ofJson?_toJson invocation finite.2 sized.1 sized.2
      simp [Param.toJson, Param.ofJson?, Dictionary.find?, Json.text?,
        Invocation.ofMembers?, inside]
  | .token lexeme, _, sized => by
      simp [Param.toJson, Param.ofJson?, Dictionary.find?, Json.text?, Lexeme.ofJson?_toJson sized]
  | .text text, _, _ => by
      simp [Param.toJson, Param.ofJson?, Dictionary.find?, Json.text?]
  | .injection index, _, sized => by
      simp [Param.toJson, Param.ofJson?, Dictionary.find?, Json.text?, Json.natural?_ofNat sized]
  | .comparison comparison, finite, sized => by
      simp [Param.toJson, Param.ofJson?, Dictionary.find?, Json.text?,
        Comparison.ofJson?_toJson finite sized]

/-- **An invocation is read back**: absent parameters and an absent tag as such. -/
theorem Invocation.ofJson?_toJson : (invocation : Invocation) →
    invocation.Everywhere Param.IsFinite → Param.IsSized (.validator invocation) →
      invocation.Everywhere Param.IsSized → Invocation.ofJson? invocation.toJson = some invocation
  | .mk name params tag, finite, sizedTag, sized => by
      have list := Param.listOfJson?_listToJson params finite sized
      cases params with
      | nil =>
          cases tag with
          | none =>
              simp [Invocation.toJson, Invocation.ofJson?, Dictionary.find?, Json.text?,
                Param.ofParamsMember?, ErrorTag.ofMember?]
          | some tag =>
              simp [Invocation.toJson, Invocation.ofJson?, Dictionary.find?, Json.text?,
                Param.ofParamsMember?, ErrorTag.ofMember?_toJson sizedTag]
      | cons param rest =>
          cases tag with
          | none =>
              simp [Invocation.toJson, Invocation.ofJson?, Dictionary.find?, Json.text?,
                Param.ofParamsMember?, ErrorTag.ofMember?, list]
          | some tag =>
              simp [Invocation.toJson, Invocation.ofJson?, Dictionary.find?, Json.text?,
                Param.ofParamsMember?, ErrorTag.ofMember?_toJson sizedTag, list]

/-- **A forest is read back.** -/
theorem Param.listOfJson?_listToJson : (params : List Param) →
    Param.AllEverywhere Param.IsFinite params → Param.AllEverywhere Param.IsSized params →
      Param.listOfJson? (Param.listToJson params) = some params
  | [], _, _ => rfl
  | param :: rest, finite, sized => by
      have first := Param.ofJson?_toJson param finite.1 sized.1
      have later := Param.listOfJson?_listToJson rest finite.2 sized.2
      simp [Param.listToJson, Param.listOfJson?, first, later]

end

/-! ### Offsets -/

/-- **The lexemes of a text lie inside it.** -/
theorem Lexeme.Lexes.offset_le {offset : Nat} {text : List Char} {lexemes : List Lexeme}
    (lexes : Lexes offset text lexemes) :
    ∀ lexeme ∈ lexemes, lexeme.offset ≤ offset + LexicalUnit.byteCount text := by
  intro lexeme member
  obtain ⟨before, behind, rfl, place⟩ := lexes.covers.exists_append lexeme member
  rw [place, LexicalUnit.byteCount_append]
  omega

/-! ### Machine words -/

/-- What is read as a natural number is a machine word. -/
theorem Numeral.lt_of_natural? {text : String} {n : Nat} (reads : natural? text = some n) :
    n < Nat.pow 2 64 := by
  unfold natural? at reads
  obtain ⟨⟨-, small⟩, same⟩ := Option.ite_none_right_eq_some.mp reads
  cases same
  exact small

namespace Grammar

open Param (AllEverywhere IsSized allEverywhere_iff)

variable {nodes frame middle result : Frame}

theorem allSized_append {first second : Frame} :
    AllEverywhere IsSized (first ++ second) ↔
      AllEverywhere IsSized first ∧ AllEverywhere IsSized second := by
  simp only [allEverywhere_iff, List.forall_mem_append]

/-- One more node joins a frame. -/
theorem allSized_concat {node : Param} (sized : AllEverywhere IsSized frame)
    (here : node.Everywhere IsSized) : AllEverywhere IsSized (frame ++ [node]) :=
  allSized_append.mpr ⟨sized, here, trivial⟩

/-- Parameters and tags that are sized make a sized invocation. -/
theorem sized_validator {name : String} {params : List Param} {tag : Option ErrorTag}
    (sized : AllEverywhere IsSized params)
    (tagged : ∀ index, tag = some (.positional index) → index < Nat.pow 2 64) :
    (Param.validator (.mk name params tag)).Everywhere IsSized := by
  refine ⟨?_, sized⟩
  rcases tag with _ | ⟨index⟩ | text
  · trivial
  · exact tagged index rfl
  · trivial

theorem sized_of_comparison? {comparison : Comparison} (sized : AllEverywhere IsSized nodes)
    (reads : comparison? nodes = some comparison) :
    (Param.comparison comparison).Everywhere IsSized := by
  unfold comparison? at reads
  split at reads
  · rename_i operator operand
    obtain ⟨lexeme, -, inner⟩ := Option.bind_eq_some_iff.mp reads
    obtain ⟨relation, -, inner⟩ := Option.bind_eq_some_iff.mp inner
    obtain ⟨made, makes, same⟩ := Option.bind_eq_some_iff.mp inner
    cases same
    have operandSized := sized.2.1
    cases operand with
    | token lexeme =>
        rw [operand?] at makes
        split at makes
        · obtain ⟨datum, -, rfl⟩ := Option.map_eq_some_iff.mp makes
          trivial
        · split at makes <;> cases makes
          trivial
    | text text =>
        cases makes
        trivial
    | injection index =>
        cases makes
        exact operandSized
    | validator _ | comparison _ => cases makes
  · cases reads

theorem sized_of_head? {node : Param} {invocation : Invocation} (sized : node.Everywhere IsSized)
    (reads : head? node = some invocation) : (Param.validator invocation).Everywhere IsSized := by
  cases node with
  | validator other =>
      cases reads
      exact sized
  | token lexeme =>
      rw [head?] at reads
      split at reads <;> cases reads
      exact ⟨trivial, trivial⟩
  | _ => cases reads

theorem sized_of_invocation? {invocation : Invocation} (sized : AllEverywhere IsSized nodes)
    (reads : invocation? nodes = some invocation) :
    (Param.validator invocation).Everywhere IsSized := by
  unfold invocation? at reads
  split at reads
  · exact sized_of_head? sized.1 reads
  · rename_i node bang tag
    obtain ⟨⟨name, params, old⟩, head, inner⟩ := Option.bind_eq_some_iff.mp reads
    obtain ⟨_, -, inner⟩ := Option.bind_eq_some_iff.mp inner
    obtain ⟨made, makes, same⟩ := Option.bind_eq_some_iff.mp inner
    cases same
    refine sized_validator (sized_of_head? sized.1 head).2 fun index positional => ?_
    cases positional
    unfold errorTag? at makes
    split at makes
    · cases makes
    · obtain ⟨lexeme, -, inner⟩ := Option.bind_eq_some_iff.mp makes
      obtain ⟨number, number?, same⟩ := Option.bind_eq_some_iff.mp inner
      cases same
      exact Numeral.lt_of_natural? number?
  · cases reads

/-- **A reduction makes machine words of machine words.** -/
theorem Construct.sized_of_reduce? {construct : Construct} (inside : AllEverywhere IsSized nodes)
    (around : AllEverywhere IsSized frame) (reduces : construct.reduce? nodes frame = some middle) :
    AllEverywhere IsSized middle := by
  cases construct with
  | text =>
      obtain ⟨text, -, rfl⟩ := Option.map_eq_some_iff.mp reduces
      exact allSized_concat around trivial
  | injection =>
      obtain ⟨text, -, inner⟩ := Option.bind_eq_some_iff.mp reduces
      obtain ⟨index, reads, same⟩ := Option.bind_eq_some_iff.mp inner
      cases same
      exact allSized_concat around (Numeral.lt_of_natural? reads)
  | comparator =>
      obtain ⟨comparison, reads, rfl⟩ := Option.map_eq_some_iff.mp reduces
      exact allSized_concat around (sized_of_comparison? inside reads)
  | entry =>
      obtain ⟨invocation, reads, rfl⟩ := Option.map_eq_some_iff.mp reduces
      exact allSized_concat around (sized_of_invocation? inside reads)
  | params =>
      obtain ⟨last, ends, inner⟩ := Option.bind_eq_some_iff.mp reduces
      cases last with
      | token lexeme =>
          dsimp only at inner
          split at inner <;> cases inner
          refine allSized_concat ?_ (sized_validator inside nofun)
          exact allEverywhere_iff.mpr fun node member =>
            allEverywhere_iff.mp around node (List.mem_of_mem_dropLast member)
      | _ => cases inner

/-- **The grammar makes machine words of machine words.** -/
theorem Builds.sized {items : List Item} {taken : List Lexeme}
    (builds : Builds items frame taken result)
    (small : ∀ lexeme ∈ taken, lexeme.offset < Nat.pow 2 64) (sized : AllEverywhere IsSized frame) :
    AllEverywhere IsSized result := by
  induction builds with
  | nil => exact sized
  | @token kind lexeme items frame result rest same _ ih =>
      obtain ⟨here, later⟩ := List.forall_mem_cons.mp small
      refine ih later ?_
      unfold pushed
      split
      · exact allSized_concat sized here
      · exact sized
  | rule _ _ _ _ ih ihLater | choice _ _ _ ih ihLater | again _ _ ih ihLater =>
      obtain ⟨here, later⟩ := List.forall_mem_append.mp small
      exact ihLater later (ih here sized)
  | construct _ _ _ reduces _ ih ihLater =>
      obtain ⟨here, later⟩ := List.forall_mem_append.mp small
      exact ihLater later (Construct.sized_of_reduce? (ih here trivial) sized reduces)
  | stop _ ih => exact ih small sized

/-- **The indices and offsets in the forest of a text are machine words**, if the text fits into
memory. -/
theorem sized_of_parse {text : String} {forest : List Param}
    (fits : LexicalUnit.byteCount text.toList < Nat.pow 2 64) (parses : parse text = .ok forest) :
    AllEverywhere IsSized forest := by
  obtain ⟨lexemes, tokenizes, interprets⟩ := bind_eq_ok.mp parses
  have proper : ∀ lexeme ∈ lexemes, lexeme.Proper := fun lexeme member =>
    (Lexeme.tokenize_canonical tokenizes lexeme member).toProper
  have inside := (Lexeme.tokenize_eq_ok_iff.mp tokenizes).offset_le
  refine ((interpret_eq_ok_iff proper forest).mp interprets).sized (fun lexeme member => ?_) trivial
  refine Nat.lt_of_le_of_lt (inside lexeme member) ?_
  rwa [Nat.zero_add]

end Grammar

/-! ### Transcribed schemas -/

namespace Template

/-- **A forest whose numbers can be written is read back from JSON, and the transcribed forest of a
text compiles as the text does**: to the same template, or with the same error. -/
theorem ofText_transcribed :
    (∀ forest, Param.AllEverywhere Param.IsFinite forest →
      Param.AllEverywhere Param.IsSized forest →
      Param.listOfJson? (Param.listToJson forest) = some forest) ∧
    ∀ text forest, LexicalUnit.byteCount text.toList < Nat.pow 2 64 →
      Grammar.parse text = .ok forest → Param.AllEverywhere Param.IsFinite forest →
        (Param.listOfJson? (Param.listToJson forest)).map ofForest = some (ofText text) := by
  refine ⟨Param.listOfJson?_listToJson, fun text forest fits parses finite => ?_⟩
  rw [Param.listOfJson?_listToJson forest finite (Grammar.sized_of_parse fits parses)]
  unfold ofText
  rw [parses]
  rfl

/-- A field with a comparison and an error tag, and a reference to a schema. -/
theorem ofText_transcribed_fields :
    ∃ text forest, Param.AllEverywhere Param.IsSized forest ∧
      LexicalUnit.byteCount text.toList < Nat.pow 2 64 ∧ Grammar.parse text = .ok forest ∧
      Param.AllEverywhere Param.IsFinite forest ∧
      Param.listOfJson? (Param.listToJson forest) = some forest ∧
      (Param.listOfJson? (Param.listToJson forest)).map ofForest = some (ofText text) := by
  let text := "@o(n: #s(@c(<0)!'x'), m: ##s)"
  let forest : List Param := [.validator (.mk "object" [.token (.ofKind .identifier "n" 3),
    .validator (.mk "define" [.token (.ofKind .identifier "s" 7),
      .validator (.mk "compare" [.comparison ⟨.less, .number (.finite (.zero false))⟩]
        (some (.literal "x")))] none), .token (.ofKind .comma "," 20),
    .token (.ofKind .identifier "m" 22),
    .validator (.mk "reference" [.token (.ofKind .identifier "s" 27)] none)] none)]
  have parses : Grammar.parse text = .ok forest := by cbv
  have fits : LexicalUnit.byteCount text.toList < Nat.pow 2 64 := by decide
  have sized := Grammar.sized_of_parse fits parses
  have finite : Param.AllEverywhere Param.IsFinite forest := by
    simp [forest, Param.AllEverywhere, Param.Everywhere, Invocation.Everywhere, Param.IsFinite,
      Binary64.Datum.finite?]
  exact ⟨text, forest, sized, fits, parses, finite, ofText_transcribed.1 forest finite sized,
    ofText_transcribed.2 text forest fits parses finite⟩

end Template

end Schemata
