/-
**The forests of containers that are written around chains.**

* `Grammar.ChainText`: a text without suffixes is a chain, which may stand in another text;
* `Grammar.arrayText` and `Grammar.objectText` write an array around a chain, and an object around
  some;
* `Grammar.parse_arrayText` and `Grammar.parse_objectText`: the forests of both hold those of the
  chains.
-/

import Schemata.Proofs.Compilation.Parsed
import Schemata.Proofs.Language.Relocation
import Schemata.Proofs.Language.Spelling

namespace Schemata.Grammar

open LexicalUnit (byteCount Delimited)

/-! ### Chains -/

/-- **A text is a chain**, and this is its forest. -/
def ChainText (text : String) (forest : List Param) : Prop :=
  ∃ lexemes, Lexeme.Lexes 0 text.toList lexemes ∧
    Builds (RuleName.definition .chain).items [] lexemes forest

/-- **A text without suffixes is a chain.** -/
theorem chainText_of_parse {text : String} {forest : List Param} (parses : parse text = .ok forest)
    (unsuffixed : ∀ param ∈ forest, param.isSuffix = false) : ChainText text forest := by
  obtain ⟨lexemes, tokenizes, interprets⟩ := bind_eq_ok.mp parses
  have canonical := Lexeme.tokenize_canonical tokenizes
  have proper := fun lexeme member => (canonical lexeme member).toProper
  have builds := (interpret_eq_ok_iff proper forest).mp interprets
  obtain ⟨_, _, _, rfl, inside, -, _ | _⟩ := builds.plain rfl
  obtain ⟨first, chain, rest, rfl, chainBuilds, -, suffixBuilds⟩ := inside.plain rfl
  rw [List.append_nil] at tokenizes canonical
  cases suffixBuilds with
  | stop later =>
      cases later
      rw [List.append_nil] at tokenizes
      exact ⟨first, Lexeme.tokenize_eq_ok_iff.mp tokenizes, chainBuilds⟩
  | again suffixBuilds later =>
      -- A suffix would have left its node behind the chain.
      have canonicalRest := (List.forall_mem_append.mp canonical).2
      obtain ⟨canonicalHere, canonicalLater⟩ := List.forall_mem_append.mp canonicalRest
      obtain ⟨suffix, _, -, _ | _⟩ := suffixBuilds.of_suffix canonicalHere
      obtain ⟨nodes, _, member, -, _ | _⟩ := later.of_many (fun nodes => suffix.node ∈ nodes)
        canonicalLater List.mem_cons_self fun {nodes} {taken} {middle} canonical known builds => by
          obtain ⟨other, _, -, _ | _⟩ := builds.of_suffix canonical
          exact ⟨nodes ++ [other.node], List.mem_append_left _ known, List.append_assoc _ _ _⟩
      have plain := unsuffixed _ (List.mem_append_right _ member)
      rw [suffix.isSuffix_node] at plain
      cases plain

/-- A chain is a whole forest. -/
theorem Builds.program {lexemes : List Lexeme} {forest : List Param}
    (chain : Builds (RuleName.definition .chain).items [] lexemes forest) :
    Builds [.rule .program] [] lexemes forest := by
  have admits : ∀ {name : RuleName}, name ≠ .injection → name ≠ .errorTag → name.Admits lexemes :=
    fun notInjection notTag => RuleName.admits_of_ne notInjection notTag lexemes
  have rule : Builds [.rule .chain] [] lexemes forest :=
    .of_rule rfl chain (admits (by decide) (by decide))
  have unsuffixed :=
    rule.append (.stop (.nil forest) : Builds [.many [.rule .suffix]] forest [] forest)
  rw [List.append_nil] at unsuffixed
  exact .of_rule rfl unsuffixed (admits (by decide) (by decide))

/-- The forest of a text is what its lexemes build. -/
theorem parse_of_builds {text : String} {lexemes : List Lexeme} {forest : List Param}
    (lexes : Lexeme.Lexes 0 text.toList lexemes)
    (builds : Builds [.rule .program] [] lexemes forest) :
    parse text = .ok forest :=
  bind_eq_ok.mpr ⟨_, Lexeme.tokenize_eq_ok_iff.mpr lexes, interpret_of_builds builds⟩

/-- The forest of a text that is a chain. -/
theorem ChainText.parse_eq {text : String} {forest : List Param} (chain : ChainText text forest) :
    parse text = .ok forest :=
  have ⟨_, lexes, builds⟩ := chain
  parse_of_builds lexes (.program builds)

/-! ### Quoted names -/

/-- Runs of text and a closing quote build one token a run. -/
theorem builds_runs {runs : List Lexeme} (last : Nat) : ∀ {frame : Frame},
    (∀ run ∈ runs, run.kind = .text ∧ run.carriesValue = true) →
      Builds [.many [.token .text], .token .quote] frame (runs ++ [Lexeme.ofKind .quote "'" last])
        (frame ++ runs.map Param.token) := by
  induction runs with
  | nil =>
      intro frame _
      rw [List.map_nil, List.append_nil]
      exact .stop (.token rfl (.nil _))
  | cons run runs ih =>
      intro frame texts
      obtain ⟨⟨text, carries⟩, later⟩ := List.forall_mem_cons.mp texts
      have one : Builds [.token .text] frame [run] (frame ++ [Param.token run]) := by
        refine .token text ?_
        rw [pushed, if_pos carries]
        exact .nil _
      have whole := Builds.again one (ih later)
      rwa [List.append_assoc] at whole

/-- **A quoted name is one node.** -/
theorem lexes_quoted (content : String) (offset : Nat) : ∃ lexemes,
    (∀ {tail : List Char} {others : List Lexeme},
      Lexeme.Lexes (offset + byteCount (WrittenUnit.quoted content).spelling) tail others →
        Lexeme.Lexes offset ((WrittenUnit.quoted content).spelling ++ tail) (lexemes ++ others)) ∧
    ∀ frame, Builds [.rule .string] frame lexemes (frame ++ [Param.text content]) := by
  obtain ⟨parts, read, whole⟩ := LexicalUnit.readQuoted_escaped content.toList []
  obtain ⟨runs, last, same, texts, joined⟩ := Lexeme.ofQuotedParts_spec parts (offset + 1)
  refine ⟨.ofKind .quote "'" offset :: (runs ++ [Lexeme.ofKind .quote "'" last]), ?_,
    fun frame => ?_⟩
  · intro tail others later
    have longer : LexicalUnit.next ((WrittenUnit.quoted content).spelling ++ tail) =
        .ok (.quoted parts, tail) := by
      show (LexicalUnit.readQuoted (LexicalUnit.escaped content.toList ++ ['\''] ++ tail)).map _ = _
      rw [LexicalUnit.readQuoted_append tail read]
      rfl
    exact .unit longer (by rw [Lexeme.ofUnit, same]) later
  · refine .of_construct rfl (.token rfl (builds_runs last texts))
      (RuleName.admits_of_ne (by decide) (by decide) _) ?_
    have joins : String.join (runs.map Lexeme.value) = content := by
      rw [← String.toList_inj, String.toList_join, joined, whole]
    show (joinValues? (pushed _ [] ++ runs.map Param.token)).map _ = _
    rw [show pushed (.ofKind .quote "'" offset) [] = [] from rfl, List.nil_append,
      joinValues?_tokens, joins]
    rfl

/-! ### Fields -/

/-- The text of a field: its name in quotes, and its chain. -/
def fieldText (field : String × String) : String :=
  String.ofList (WrittenUnit.quoted field.1).spelling ++ ": " ++ field.2

/-- **The nodes of some fields**: for each one its name and the forest of its chain, and commas
between them. -/
inductive ListsFields : List (String × String) → List Param → Prop
  | nil : ListsFields [] []
  | field {field : String × String} {fields : List (String × String)}
      {separator forest params : List Param}
      (distance : Nat) (separates : ∀ param ∈ separator, ∃ lexeme, param = .token lexeme ∧
        lexeme.kind = .comma)
      (parses : parse field.2 = .ok forest) (later : ListsFields fields params) :
      ListsFields (field :: fields)
        (separator ++ .text field.1 :: (forest.map (Param.relocate (distance + ·)) ++ params))

/-- A field is its name and the nodes of its chain. -/
theorem lexes_field {field : String × String} {forest : List Param}
    (chain : ChainText field.2 forest) (offset : Nat) : ∃ lexemes distance,
    (∀ {tail : List Char} {others : List Lexeme}, Delimited tail →
      Lexeme.Lexes (offset + byteCount (fieldText field).toList) tail others →
        Lexeme.Lexes offset ((fieldText field).toList ++ tail) (lexemes ++ others)) ∧
    ∀ frame, Builds [.rule .field] frame lexemes
      (frame ++ .text field.1 :: forest.map (Param.relocate (distance + ·))) := by
  obtain ⟨chainLexemes, chainLexes, chainBuilds⟩ := chain
  obtain ⟨quoted, quotedLexes, quotedBuilds⟩ := lexes_quoted field.1 offset
  have whole : (fieldText field).toList =
      (WrittenUnit.quoted field.1).spelling ++ (':' :: ' ' :: field.2.toList) := by
    simp [fieldText]
  let behind := offset + byteCount (WrittenUnit.quoted field.1).spelling
  let distance := behind + 1 + 1
  let colon := Lexeme.ofKind .colon ":" behind
  refine ⟨quoted ++ colon :: chainLexemes.map (Lexeme.relocate (distance + ·)), distance, ?_,
    fun frame => ?_⟩
  · intro tail others delimited later
    have place :
        offset + byteCount (fieldText field).toList = distance + byteCount field.2.toList := by
      rw [whole, LexicalUnit.byteCount_append]
      show offset + (_ + (1 + (1 + byteCount field.2.toList))) = _
      omega
    rw [place] at later
    rw [whole, List.append_assoc, List.append_assoc]
    exact quotedLexes (.symbol rfl (.space ((chainLexes.shift distance).append delimited later)))
  · have admits : ∀ {name : RuleName} (taken : List Lexeme), name ≠ .injection → name ≠ .errorTag →
        name.Admits taken := fun taken notInjection notTag =>
      RuleName.admits_of_ne notInjection notTag taken
    have named : Builds [.choice fieldNames] frame quoted (frame ++ [Param.text field.1]) :=
      .of_alternative (List.mem_cons_of_mem _ List.mem_cons_self) (quotedBuilds frame)
    have marked : Builds [.optional [.token .colon]] (frame ++ [Param.text field.1]) [colon]
        (frame ++ [Param.text field.1]) :=
      .of_alternative List.mem_cons_self (.token rfl (.nil _))
    have chained : Builds [.rule .chain] (frame ++ [Param.text field.1])
        (chainLexemes.map (Lexeme.relocate (distance + ·)))
        (frame ++ [Param.text field.1] ++ forest.map (Param.relocate (distance + ·))) := by
      refine .of_rule rfl ?_ (admits _ (by decide) (by decide))
      have moved := (chainBuilds.relocate (distance + ·)).behind (frame ++ [Param.text field.1])
      rwa [List.map_nil, List.append_nil] at moved
    have inside := named.append (marked.append chained)
    rw [List.append_assoc] at inside
    exact .of_rule rfl inside (admits _ (by decide) (by decide))

/-- The text of the fields behind the first one, and of the parenthesis behind all. -/
def moreText (fields : List (String × String)) : List Char :=
  fields.flatMap (fun field => ',' :: ' ' :: (fieldText field).toList) ++ [')']

/-- The fields behind the first one, each with a comma in front. -/
theorem lexes_more {fields : List (String × String)}
    (chains : ∀ field ∈ fields, ∃ forest, parse field.2 = .ok forest ∧ ChainText field.2 forest) :
    ∀ offset, ∃ lexemes params last,
      Lexeme.Lexes offset (moreText fields) (lexemes ++ [Lexeme.ofKind .rightParen ")" last]) ∧
      (∀ frame, Builds [.many [.token .comma, .rule .field]] frame lexemes (frame ++ params)) ∧
      ListsFields fields params := by
  induction fields with
  | nil =>
      intro offset
      refine ⟨[], [], offset, ?_, fun frame => ?_, .nil⟩
      · exact .symbol rfl .nil
      · rw [List.append_nil]
        exact .stop (.nil _)
  | cons field fields ih =>
      intro offset
      obtain ⟨⟨forest, parses, chain⟩, others⟩ := List.forall_mem_cons.mp chains
      obtain ⟨own, distance, ownLexes, ownBuilds⟩ := lexes_field chain (offset + 1 + 1)
      obtain ⟨more, params, last, moreLexes, moreBuilds, lists⟩ :=
        ih others (offset + 1 + 1 + byteCount (fieldText field).toList)
      let comma := Lexeme.ofKind .comma "," offset
      refine ⟨comma :: (own ++ more), [Param.token comma] ++ Param.text field.1 ::
        (forest.map (Param.relocate (distance + ·)) ++ params), last, ?_, fun frame => ?_, ?_⟩
      · have delimited : Delimited (moreText fields) := by
          cases fields with
          | nil =>
              rintro c ⟨⟩
              rfl
          | cons next fields =>
              rintro c ⟨⟩
              rfl
        have whole : moreText (field :: fields) =
            ',' :: ' ' :: ((fieldText field).toList ++ moreText fields) := by
          simp [moreText]
        rw [whole, List.cons_append, List.append_assoc]
        exact .symbol rfl (.space (ownLexes delimited moreLexes))
      · have first : Builds [.token .comma, .rule .field] frame (comma :: own)
            (frame ++ [Param.token comma] ++
              Param.text field.1 :: forest.map (Param.relocate (distance + ·))) :=
          .token rfl (ownBuilds (frame ++ [Param.token comma]))
        have both := Builds.again first (moreBuilds _)
        simpa only [List.append_assoc, List.cons_append, List.nil_append] using both
      · exact .field distance (List.forall_mem_singleton.mpr ⟨comma, rfl, rfl⟩) parses lists

/-! ### Containers -/

/-- **A keyword with its parameters is a whole forest.** -/
theorem builds_program {kind : TokenKind} {rule : RuleName} {keyword : Lexeme} {taken : List Lexeme}
    {nodes : Frame} (isKind : keyword.kind = kind) (isKeyword : kind.isKeyword = true)
    (carries : keyword.carriesValue = true) (constructs : rule.definition.construct = some .params)
    (alternative : [.token kind, .rule rule] ∈ RuleName.alternatives .validator)
    (inside : Builds rule.definition.items [] taken nodes) :
    Builds [.rule .program] [] (keyword :: taken) [.validator (.mk keyword.value nodes none)] := by
  have plain : ∀ taken : List Lexeme, rule.Admits taken :=
    RuleName.admits_of_ne (by rintro rfl; cases constructs) (by rintro rfl; cases constructs)
  have admits : ∀ {name : RuleName} (taken : List Lexeme), name ≠ .injection → name ≠ .errorTag →
      name.Admits taken := fun taken notInjection notTag =>
    RuleName.admits_of_ne notInjection notTag taken
  have headed : Builds [.token kind, .rule rule] [] (keyword :: taken)
      [.validator (.mk keyword.value nodes none)] := by
    refine .token isKind ?_
    rw [pushed, if_pos carries]
    refine .of_construct constructs inside (plain taken) ?_
    simp [Construct.reduce?, applyParams?, isKind, isKeyword]
  have validator : Builds [.rule .validator] [] (keyword :: taken)
      [.validator (.mk keyword.value nodes none)] :=
    .of_rule rfl (.of_alternative alternative headed) (admits _ (by decide) (by decide))
  have untagged :
      Builds [.optional [.rule .errorTag]] [.validator (.mk keyword.value nodes none)] []
      [.validator (.mk keyword.value nodes none)] :=
    .of_alternative (List.mem_cons_of_mem _ List.mem_cons_self) (.nil _)
  have entry : Builds [.rule .entry] [] (keyword :: taken ++ [])
      [.validator (.mk keyword.value nodes none)] :=
    .of_construct rfl (validator.append untagged) (admits _ (by decide) (by decide)) rfl
  have chain : Builds (RuleName.definition .chain).items [] (keyword :: taken ++ [] ++ [])
      [.validator (.mk keyword.value nodes none)] := entry.append (.stop (.nil _))
  rw [List.append_nil, List.append_nil] at chain
  exact .program chain

/-- Parameters stand in parentheses, which leave no node. -/
theorem builds_enclosed {items : List Item} {taken : List Lexeme} {nodes : Frame}
    (inside : Builds items [] taken nodes) (first last : Nat) :
    Builds (.token .leftParen :: (items ++ [Item.token .rightParen])) []
      (.ofKind .leftParen "(" first :: (taken ++ [Lexeme.ofKind .rightParen ")" last])) nodes :=
  .token rfl (inside.append (.token rfl (.nil _)))

/-- Parameters that may be left out stand in parentheses. -/
theorem builds_parenthesized {items : List Item} {taken : List Lexeme} {nodes : Frame}
    (inside : Builds items [] taken nodes) (first last : Nat) :
    Builds [.token .leftParen, .optional items, .token .rightParen] []
      (.ofKind .leftParen "(" first :: (taken ++ [Lexeme.ofKind .rightParen ")" last])) nodes :=
  have optional : Builds [.optional items] [] taken nodes :=
    .of_alternative List.mem_cons_self inside
  builds_enclosed optional first last

/-- **The text of an array** around a chain. -/
def arrayText (chain : String) : String :=
  "array(" ++ chain ++ ")"

/-- **The text of an object** with some fields. -/
def objectText (fields : List (String × String)) : String :=
  "object(" ++ ", ".intercalate (fields.map fieldText) ++ ")"

/-- Joined texts are the first one, and each other behind a separator. -/
theorem toList_intercalate_cons (separator first : String) (others : List String) :
    (separator.intercalate (first :: others)).toList =
      first.toList ++ others.flatMap fun text => separator.toList ++ text.toList := by
  induction others generalizing first with
  | nil => simp
  | cons next others ih =>
      rw [String.intercalate_cons_cons, String.toList_append, String.toList_append, ih next]
      simp

theorem toList_objectText (first : String × String) (fields : List (String × String)) :
    (objectText (first :: fields)).toList =
      "object".toList ++ '(' :: ((fieldText first).toList ++ moreText fields) := by
  rw [objectText, String.toList_append, String.toList_append, List.map_cons,
    toList_intercalate_cons]
  simp [moreText, List.flatMap_map]

/-- **The forest of an object** holds those of the chains of its fields. -/
theorem parse_objectText {first : String × String} {fields : List (String × String)}
    (chains : ∀ field ∈ first :: fields, ∃ forest, parse field.2 = .ok forest ∧
      ChainText field.2 forest) :
    ∃ params, parse (objectText (first :: fields)) = .ok [.validator (.mk "object" params none)] ∧
      ListsFields (first :: fields) params := by
  obtain ⟨⟨forest, parses, chain⟩, others⟩ := List.forall_mem_cons.mp chains
  obtain ⟨own, distance, ownLexes, ownBuilds⟩ := lexes_field chain 7
  obtain ⟨more, params, last, moreLexes, moreBuilds, lists⟩ :=
    lexes_more others (7 + byteCount (fieldText first).toList)
  let keyword := Lexeme.ofKind .object "object" 0
  let opening := Lexeme.ofKind .leftParen "(" 6
  let closing := Lexeme.ofKind .rightParen ")" last
  refine ⟨[] ++ .text first.1 :: (forest.map (Param.relocate (distance + ·)) ++ params), ?_,
    .field distance nofun parses lists⟩
  have delimited : Delimited (moreText fields) := by
    cases fields <;> (rintro c ⟨⟩; rfl)
  have lexes : Lexeme.Lexes 0 (objectText (first :: fields)).toList
      ([keyword] ++ opening :: (own ++ (more ++ [closing]))) := by
    rw [toList_objectText]
    exact .unit (show LexicalUnit.next _ = .ok (.word "object".toList, _) from rfl) rfl
      (.symbol rfl (ownLexes delimited moreLexes))
  have trailing : ∀ frame, Builds [.optional [.token .comma]] frame [] frame := fun frame =>
    .of_alternative (List.mem_cons_of_mem _ List.mem_cons_self) (.nil _)
  have listed := (ownBuilds []).append ((moreBuilds _).append (trailing _))
  rw [List.append_nil, List.append_assoc] at listed
  have builds := builds_program (rfl : keyword.kind = .object) rfl rfl rfl
    (List.mem_cons_of_mem _ List.mem_cons_self) (builds_parenthesized listed 6 last)
  rw [List.append_assoc] at builds
  exact parse_of_builds lexes builds

/-- **The forest of an array** holds that of its chain. -/
theorem parse_arrayText {text : String} {forest : List Param} (chain : ChainText text forest) :
    ∃ distance, parse (arrayText text) =
      .ok [.validator (.mk "array" (forest.map (Param.relocate (distance + ·))) none)] := by
  obtain ⟨lexemes, chainLexes, chainBuilds⟩ := chain
  let keyword := Lexeme.ofKind .array "array" 0
  let opening := Lexeme.ofKind .leftParen "(" 5
  let closing := Lexeme.ofKind .rightParen ")" (6 + byteCount text.toList)
  refine ⟨6, ?_⟩
  have whole : (arrayText text).toList = "array".toList ++ '(' :: (text.toList ++ [')']) := by
    simp [arrayText]
  have delimited : Delimited [')'] := by
    rintro c ⟨⟩
    rfl
  have lexes : Lexeme.Lexes 0 (arrayText text).toList
      ([keyword] ++ opening :: (lexemes.map (Lexeme.relocate (6 + ·)) ++ [closing])) := by
    rw [whole]
    exact .unit (show LexicalUnit.next _ = .ok (.word "array".toList, _) from rfl) rfl
      (.symbol rfl ((chainLexes.shift 6).append delimited (.symbol rfl .nil)))
  have chained : Builds [.rule .chain] [] (lexemes.map (Lexeme.relocate (6 + ·)))
      (forest.map (Param.relocate (6 + ·))) :=
    .of_rule rfl (chainBuilds.relocate (6 + ·)) (RuleName.admits_of_ne (by decide) (by decide) _)
  have builds := builds_program (rfl : keyword.kind = .array) rfl rfl rfl
    (List.mem_cons_of_mem _ (List.mem_cons_of_mem _ (List.mem_cons_of_mem _ List.mem_cons_self)))
    (builds_parenthesized chained 5 (6 + byteCount text.toList))
  exact parse_of_builds lexes builds

end Schemata.Grammar
