/-
**The templates of equalities and memberships that are written around values.**

A value is a literal or an injection, in any spelling. Whether it stands by itself or in a list, it
stands for the same bound.

* `Grammar.ValueText`: a text is a value; `Bound.WrittenAs`: this is the bound that it stands for;
* `Grammar.equalText` and `Grammar.oneOfText` write an equality around a value, and a membership
  around some;
* `Template.isStep_equalText` and `Template.isStep_oneOfText`: the templates of both relate to the
  bounds.
-/

import Schemata.Proofs.Compilation.Composite
import Schemata.Proofs.Compilation.Listing
import Schemata.Proofs.Compilation.Shapes

namespace Schemata

namespace Grammar

open LexicalUnit (byteCount Delimited)

/-! ### Values -/

/-- **A text is a literal or an injection**: its lexemes are a sentence of the rule of values. -/
def ValueText (text : String) : Prop :=
  ∃ lexemes, Lexeme.tokenize text = .ok lexemes ∧ Derives [.rule .value] lexemes

/-- Lexemes that the rule of values takes are a value. -/
theorem valueText_of_derive {text : String} {lexemes : List Lexeme} {frame : Frame}
    (tokenizes : Lexeme.tokenize text = .ok lexemes)
    (derives : derive .value [] lexemes = ⟨some [], frame⟩) : ValueText text := by
  have proper := fun lexeme member => (Lexeme.tokenize_canonical tokenizes lexeme member).toProper
  obtain ⟨taken, rfl, sentence⟩ := deriveWithin_sound _ .value _ _ _ _ nofun proper derives
  rw [List.append_nil] at tokenizes
  exact ⟨taken, tokenizes, sentence⟩

/-- A text is a value, and this is its node. -/
def IsNodeOf (text : String) (node : Param) : Prop :=
  node.IsValue ∧ ∃ lexemes, Lexeme.Lexes 0 text.toList lexemes ∧
    Builds [.rule .value] [] lexemes [node]

/-- **A value has one node.** -/
theorem ValueText.exists_node {text : String} (value : ValueText text) :
    ∃ node, IsNodeOf text node := by
  obtain ⟨lexemes, tokenizes, derives⟩ := value
  have proper := fun lexeme member => (Lexeme.tokenize_canonical tokenizes lexeme member).toProper
  obtain ⟨result, builds⟩ := derives.builds proper
    (show Item.sequenceReady false [.rule .value] = true from rfl) Frame.endsWithKeyword_of_false
  obtain ⟨node, _, isValue, -, _ | _⟩ := builds.of_value proper
  exact ⟨node, isValue, lexemes, Lexeme.tokenize_eq_ok_iff.mp tokenizes, builds⟩

/-- A value adds its node wherever it stands in front of a delimiter. -/
theorem lexes_value {text : String} {node : Param} (isNode : IsNodeOf text node) (offset : Nat) :
    ∃ lexemes,
      (∀ {tail : List Char} {others : List Lexeme}, Delimited tail →
        Lexeme.Lexes (offset + byteCount text.toList) tail others →
          Lexeme.Lexes offset (text.toList ++ tail) (lexemes ++ others)) ∧
      ∀ frame, Builds [.rule .value] frame lexemes (frame ++ [node.relocate (offset + ·)]) := by
  obtain ⟨-, lexemes, lexes, builds⟩ := isNode
  exact ⟨lexemes.map (Lexeme.relocate (offset + ·)),
    fun delimited later => (lexes.shift offset).append delimited later,
    fun frame => by simpa using (builds.relocate (offset + ·)).behind frame⟩

/-- **The nodes of a list of values**, with commas between them. -/
inductive ListsValues : List Param → List Param → Prop
  | nil : ListsValues [] []
  | value {node : Param} {nodes separator params : List Param} (distance : Nat)
      (separates : ∀ param ∈ separator, ∃ lexeme, param = .token lexeme ∧ lexeme.kind = .comma)
      (isValue : node.IsValue) (later : ListsValues nodes params) :
      ListsValues (node :: nodes) (separator ++ node.relocate (distance + ·) :: params)

/-- The text of the values behind the first one, and of the parenthesis behind all. -/
def moreValuesText (texts : List String) : List Char :=
  texts.flatMap (fun text => ',' :: text.toList) ++ [')']

theorem delimited_moreValuesText (texts : List String) : Delimited (moreValuesText texts) := by
  cases texts <;> (rintro c ⟨⟩; rfl)

/-- The values behind the first one, each with a comma in front. -/
theorem lexes_moreValues {texts : List String} {nodes : List Param}
    (areNodes : List.Forall₂ IsNodeOf texts nodes) : ∀ offset, ∃ lexemes params last,
      Lexeme.Lexes offset (moreValuesText texts) (lexemes ++ [Lexeme.ofKind .rightParen ")" last]) ∧
      (∀ frame, Builds [.many [.token .comma, .rule .value]] frame lexemes (frame ++ params)) ∧
      ListsValues nodes params := by
  induction areNodes with
  | nil =>
      intro offset
      refine ⟨[], [], offset, .symbol rfl .nil, fun frame => ?_, .nil⟩
      rw [List.append_nil]
      exact .stop (.nil _)
  | @cons text node texts nodes isNode _ ih =>
      intro offset
      obtain ⟨own, ownLexes, ownBuilds⟩ := lexes_value isNode (offset + 1)
      obtain ⟨more, params, last, moreLexes, moreBuilds, lists⟩ :=
        ih (offset + 1 + byteCount text.toList)
      let comma := Lexeme.ofKind .comma "," offset
      refine ⟨comma :: (own ++ more),
        [Param.token comma] ++ node.relocate (offset + 1 + ·) :: params, last, ?_,
        fun frame => ?_, ?_⟩
      · have whole : moreValuesText (text :: texts) =
            ',' :: (text.toList ++ moreValuesText texts) := by
          simp [moreValuesText]
        rw [whole, List.cons_append, List.append_assoc]
        exact .symbol rfl (ownLexes (delimited_moreValuesText texts) moreLexes)
      · have first : Builds [.token .comma, .rule .value] frame (comma :: own)
            (frame ++ [Param.token comma] ++ [node.relocate (offset + 1 + ·)]) :=
          .token rfl (ownBuilds (frame ++ [Param.token comma]))
        have both := Builds.again first (moreBuilds _)
        simpa only [List.append_assoc, List.cons_append, List.nil_append] using both
      · exact .value _ (List.forall_mem_singleton.mpr ⟨comma, rfl, rfl⟩) isNode.1 lists

/-! ### Equalities and memberships -/

/-- **The text of an equality** with a value. -/
def equalText (value : String) : String :=
  "equal(" ++ value ++ ")"

/-- **The text of a membership** in some values. A value may have white space around it. -/
def oneOfText (values : List String) : String :=
  "oneOf(" ++ ",".intercalate values ++ ")"

theorem toList_oneOfText (first : String) (texts : List String) :
    (oneOfText (first :: texts)).toList =
      "oneOf".toList ++ '(' :: (first.toList ++ moreValuesText texts) := by
  rw [oneOfText, String.toList_append, String.toList_append, toList_intercalate_cons]
  simp [moreValuesText]

/-- **The forest of an equality** holds the node of its value. -/
theorem parse_equalText {text : String} {node : Param} (isNode : IsNodeOf text node) :
    ∃ distance, parse (equalText text) =
      .ok [.validator (.mk "equal" [node.relocate (distance + ·)] none)] := by
  obtain ⟨own, ownLexes, ownBuilds⟩ := lexes_value isNode 6
  let keyword := Lexeme.ofKind .equality "equal" 0
  let closing := Lexeme.ofKind .rightParen ")" (6 + byteCount text.toList)
  have whole : (equalText text).toList = "equal".toList ++ '(' :: (text.toList ++ [')']) := by
    simp [equalText]
  have lexes : Lexeme.Lexes 0 (equalText text).toList
      ([keyword] ++ .ofKind .leftParen "(" 5 :: (own ++ [closing])) := by
    rw [whole]
    exact .unit (show LexicalUnit.next _ = .ok (.word "equal".toList, _) from rfl) rfl
      (.symbol rfl (ownLexes (delimited_moreValuesText []) (.symbol rfl .nil)))
  have alternative : [.token .equality, .rule .valueParams] ∈ RuleName.alternatives .validator := by
    simp [RuleName.alternatives, RuleName.definition]
  exact ⟨6,
    parse_of_builds lexes (builds_program (rfl : keyword.kind = .equality) rfl rfl rfl alternative
    (builds_enclosed (ownBuilds []) 5 _))⟩

/-- **The forest of a membership** holds the nodes of its values. -/
theorem parse_oneOfText {texts : List String} {nodes : List Param} (nonempty : texts ≠ [])
    (areNodes : List.Forall₂ IsNodeOf texts nodes) :
    ∃ params, parse (oneOfText texts) = .ok [.validator (.mk "oneOf" params none)] ∧
      ListsValues nodes params := by
  cases areNodes with
  | nil => exact absurd rfl nonempty
  | @cons text node texts nodes isNode others =>
      obtain ⟨own, ownLexes, ownBuilds⟩ := lexes_value isNode 6
      obtain ⟨more, params, last, moreLexes, moreBuilds, lists⟩ :=
        lexes_moreValues others (6 + byteCount text.toList)
      let keyword := Lexeme.ofKind .oneOf "oneOf" 0
      let closing := Lexeme.ofKind .rightParen ")" last
      have lexes : Lexeme.Lexes 0 (oneOfText (text :: texts)).toList
          ([keyword] ++ .ofKind .leftParen "(" 5 :: (own ++ (more ++ [closing]))) := by
        rw [toList_oneOfText]
        exact .unit (show LexicalUnit.next _ = .ok (.word "oneOf".toList, _) from rfl) rfl
          (.symbol rfl (ownLexes (delimited_moreValuesText texts) moreLexes))
      have listed : Builds [.rule .value, .many [.token .comma, .rule .value]] [] (own ++ more)
          ([] ++ [node.relocate (6 + ·)] ++ params) := (ownBuilds []).append (moreBuilds _)
      have alternative : [.token .oneOf, .rule .listParams] ∈ RuleName.alternatives .validator := by
        simp [RuleName.alternatives, RuleName.definition]
      have builds := builds_program (rfl : keyword.kind = .oneOf) rfl rfl rfl alternative
        (builds_enclosed listed 5 last)
      rw [List.append_assoc] at builds
      exact ⟨_, parse_of_builds lexes builds, .value 6 (List.forall_mem_nil _) isNode.1 lists⟩

/-! ### Bounds -/

/-- Values define no schemas. -/
theorem schemaNamesOf_eq_nil {param : Param} (value : param.IsValue) :
    param.schemaNamesOf = [] := by
  cases param with
  | validator _ => exact value.elim
  | _ => rfl

namespace ListsValues

variable {nodes params : List Param} (lists : ListsValues nodes params)
include lists

/-- A list of values defines no schemas. -/
theorem schemaNames_eq_nil : Param.schemaNames params = [] := by
  induction lists with
  | nil => rfl
  | value distance separates isValue later ih =>
      rw [Param.schemaNames_append, ListsFields.schemaNames_separator separates, Param.schemaNames,
        Param.schemaNamesOf_relocate, schemaNamesOf_eq_nil isValue, ih]
      rfl

/-- **Each value of a list stands for its bound.** -/
theorem mapM_ofParam {bounds : List Bound} {validator : String}
    (stand : List.Forall₂ (fun node bound => Bound.ofParam validator node = .ok bound)
      nodes bounds) :
    (Param.uncommaed params).mapM (Bound.ofParam validator) = .ok bounds := by
  induction lists generalizing bounds with
  | nil =>
      cases stand
      rfl
  | @value node nodes separator params distance separates isValue later ih =>
      cases stand with
      | cons stands others =>
          have commas : Param.uncommaed separator = [] := by
            refine List.filter_eq_nil_iff.mpr fun param member => ?_
            obtain ⟨lexeme, rfl, comma⟩ := separates param member
            simp [Param.token?, comma]
          have kept : Param.uncommaed (separator ++ node.relocate (distance + ·) :: params) =
              node.relocate (distance + ·) :: Param.uncommaed params := by
            rw [Param.uncommaed, List.filter_append, ← Param.uncommaed, commas, List.nil_append,
              List.filter_cons, Param.isNone_comma_relocate, isValue.isNone_comma]
            rfl
          rw [kept, List.mapM_cons, Bound.ofParam_relocate, stands, ih others]
          rfl

end ListsValues

end Grammar

/-! ### Templates -/

/-- **A text is a value that stands for a bound**, whichever validator takes it. -/
def Bound.WrittenAs (text : String) (bound : Bound) : Prop :=
  ∃ node, Grammar.IsNodeOf text node ∧ ∀ validator, Bound.ofParam validator node = .ok bound

/-- **A value stands for a bound.** -/
theorem Grammar.ValueText.exists_bound {text : String} (value : ValueText text) :
    ∃ bound, Bound.WrittenAs text bound := by
  obtain ⟨node, isNode⟩ := value.exists_node
  obtain ⟨bound, stands⟩ := isNode.1.exists_bound
  exact ⟨bound, node, isNode, stands⟩

/-- Values stand for bounds. -/
theorem Grammar.ValueText.exists_bounds {texts : List String}
    (values : ∀ text ∈ texts, ValueText text) :
    ∃ bounds, List.Forall₂ Bound.WrittenAs texts bounds := by
  induction texts with
  | nil => exact ⟨[], .nil⟩
  | cons text texts ih =>
      obtain ⟨value, others⟩ := List.forall_mem_cons.mp values
      obtain ⟨bound, written⟩ := value.exists_bound
      obtain ⟨bounds, writtenOthers⟩ := ih others
      exact ⟨bound :: bounds, .cons written writtenOthers⟩

/-- Values that stand for bounds have nodes that stand for them. -/
theorem Bound.exists_nodes {texts : List String} {bounds : List Bound}
    (written : List.Forall₂ Bound.WrittenAs texts bounds) : ∃ nodes,
      List.Forall₂ Grammar.IsNodeOf texts nodes ∧
        List.Forall₂ (fun node bound => ∀ validator, Bound.ofParam validator node = .ok bound) nodes
          bounds := by
  induction written with
  | nil => exact ⟨[], .nil, .nil⟩
  | cons first _ ih =>
      obtain ⟨node, isNode, stands⟩ := first
      obtain ⟨nodes, areNodes, standOthers⟩ := ih
      exact ⟨node :: nodes, .cons isNode areNodes, .cons stands standOthers⟩

namespace Template

/-- **The template of a text is one step**, without suffixes. -/
def IsStep (text : String) (step : Step) : Prop :=
  ∃ template, ofText text = .ok template ∧ template.root = [step] ∧ template.suffixes = []

/-- One invocation that defines no schemas is one step. -/
theorem isStep_of_parse {text : String} {invocation : Invocation} {step : Step}
    (parses : Grammar.parse text = .ok [.validator invocation])
    (plain : invocation.isSuffix = false)
    (unnamed : invocation.schemaNames = []) (compiles : invocation.compile [] [] = .ok step) :
    IsStep text step := by
  have formed := formed_of_parse parses fun param member => by
    rw [List.mem_singleton.mp member]
    exact plain
  have names : Param.schemaNames [.validator invocation] = [] := by
    rw [Param.schemaNames, Param.schemaNamesOf, unnamed]
    rfl
  have compiled :
      Param.compileChain (Param.schemaNames [.validator invocation]) [] [.validator invocation] =
      .ok [step] := by
    rw [names, Param.compileChain, Param.compileOne, compiles]
    rfl
  obtain ⟨template, made, root, unsuffixed, -⟩ :=
    exists_template parses formed (names ▸ List.nodup_nil) compiled
  exact ⟨template, made, root, unsuffixed⟩

/-- **The template of an equality** with a value relates to its bound. -/
theorem isStep_equalText {text : String} {bound : Bound} (written : bound.WrittenAs text) :
    IsStep (Grammar.equalText text) (.equality true bound none) := by
  obtain ⟨node, isNode, stands⟩ := written
  obtain ⟨distance, parses⟩ := Grammar.parse_equalText isNode
  refine isStep_of_parse parses (by simp [Invocation.isSuffix, Invocation.name]) ?_ ?_
  · have unnamed : Param.schemaNames [node.relocate (distance + ·)] = [] := by
      rw [Param.schemaNames, Param.schemaNamesOf_relocate, Grammar.schemaNamesOf_eq_nil isNode.1]
      rfl
    simp [Invocation.schemaNames, unnamed]
  · rw [Invocation.compile_equality (.inl rfl)]
    show (Bound.ofParam "equal" (node.relocate (distance + ·)) >>= _) = _
    rw [Bound.ofParam_relocate, stands]
    rfl

/-- **The template of a membership** in some values relates to their bounds. -/
theorem isStep_oneOfText {texts : List String} {bounds : List Bound} (nonempty : texts ≠ [])
    (written : List.Forall₂ Bound.WrittenAs texts bounds) :
    IsStep (Grammar.oneOfText texts) (.membership bounds none) := by
  obtain ⟨nodes, areNodes, stand⟩ := Bound.exists_nodes written
  obtain ⟨params, parses, lists⟩ := Grammar.parse_oneOfText nonempty areNodes
  refine isStep_of_parse parses (by simp [Invocation.isSuffix, Invocation.name]) ?_ ?_
  · simp [Invocation.schemaNames, lists.schemaNames_eq_nil]
  · have reads := lists.mapM_ofParam (stand.imp fun node bound stands => stands "oneOf")
    have some : bounds.isEmpty = false := by
      cases written with
      | nil => exact absurd rfl nonempty
      | cons _ _ => rfl
    rw [Invocation.compile_oneOf]
    show ((Param.uncommaed params).mapM (Bound.ofParam "oneOf") >>= _) = _
    rw [reads]
    show (if bounds.isEmpty then _ else _) = _
    rw [some]
    rfl

end Template

end Schemata
