/-
**Schemas one after another.**

A text behind another one, with a colon between them, hands on what the first one answers. Its chain
goes on where the first one ends, with larger handles.

* `Grammar.ChainText.sequence`: two chains with a colon between them are one chain;
* `Template.OfChain.sequence`: its steps are those of the first one, and then those of the second
  one;
* `Template.ofText_sequence`: so it is validated by both, one on the answer of the other.
-/

import Schemata.Proofs.Evaluation.Composition
import Schemata.Proofs.Validation.Groups

namespace Schemata

/-! ### Chains of validators -/

/-- A chain hands the value from each step to the next. -/
theorem Step.validateChain_eq_consecutive (bindings : Bindings) (call : Nat → Validator)
    (chain : List Step) :
    validateChain bindings call chain =
      Validator.consecutive (chain.map (validate bindings call)) := by
  induction chain with
  | nil => rfl
  | cons step rest ih => rw [validateChain, ih, List.map_cons, Validator.consecutive]

/-- **A chain goes on with what the steps before answer.** -/
theorem Step.validateChain_append (bindings : Bindings) (call : Nat → Validator)
    (first second : List Step) :
    validateChain bindings call (first ++ second) =
      (validateChain bindings call first).andThen (validateChain bindings call second) := by
  simp only [validateChain_eq_consecutive, List.map_append, Validator.consecutive_append]

/-! ### Texts -/

namespace Grammar

/-- More repetitions may stand behind some. -/
theorem Builds.many_append {body : List Item} {frame middle result : Frame}
    {taken rest : List Lexeme} (builds : Builds [.many body] frame taken middle)
    (later : Builds [.many body] middle rest result) :
    Builds [.many body] frame (taken ++ rest) result := by
  generalize repeats : [Item.many body] = items at builds
  induction builds with
  | stop inside =>
      cases repeats
      cases inside
      exact later
  | again inside _ _ ih =>
      cases repeats
      rw [List.append_assoc]
      exact .again inside (ih later rfl)
  | _ => cases repeats

/-- **A chain goes on behind a colon.** -/
theorem Builds.sequence {first second : List Lexeme} {frame middle result : Frame} {colon : Lexeme}
    (builds : Builds (RuleName.definition .chain).items frame first middle)
    (isColon : colon.kind = .colon) (silent : colon.carriesValue = false)
    (later : Builds (RuleName.definition .chain).items middle second result) :
    Builds (RuleName.definition .chain).items frame (first ++ colon :: second) result := by
  obtain ⟨entry, nodes, behind, others, rfl, inside, admits, reduces, more⟩ :=
    builds.constructed rfl
  obtain ⟨laterEntry, laterNodes, laterBehind, laterOthers, rfl, laterInside, laterAdmits,
    laterReduces, laterMore⟩ := later.constructed rfl
  have next : Builds [.token .colon, .rule .entry] middle (colon :: laterEntry) laterBehind := by
    refine .token isColon ?_
    rw [pushed, silent]
    exact .of_construct rfl laterInside laterAdmits laterReduces
  have goesOn := more.many_append (.again (.of_alternative List.mem_cons_self next) laterMore)
  rw [List.append_assoc]
  exact .construct rfl inside admits reduces goesOn

/-- **Two chains with a colon between them are one chain.** -/
theorem ChainText.sequence {first second : String} {chain others : List Param}
    (one : ChainText first chain) (two : ChainText second others) :
    ∃ distance, ChainText (first ++ " : " ++ second)
      (chain ++ others.map (Param.relocate (distance + ·))) := by
  obtain ⟨lexemes, lexes, builds⟩ := one
  obtain ⟨more, moreLexes, moreBuilds⟩ := two
  let colon := 0 + LexicalUnit.byteCount first.toList + 1
  let distance := colon + LexicalUnit.byteCount [':'] + 1
  have whole : (first ++ " : " ++ second).toList = first.toList ++ ' ' :: ':' :: ' ' ::
      second.toList := by
    simp
  have delimited : LexicalUnit.Delimited (' ' :: ':' :: ' ' :: second.toList) := by
    rintro c ⟨⟩
    rfl
  refine ⟨distance, lexemes ++ Lexeme.ofKind .colon ":" colon ::
    more.map (Lexeme.relocate (distance + ·)), ?_, ?_⟩
  · rw [whole]
    exact lexes.append delimited (.space (.symbol rfl (.space (moreLexes.shift distance))))
  · have behind := (moreBuilds.relocate (distance + ·)).behind chain
    rw [List.map_nil, List.append_nil] at behind
    exact builds.sequence rfl rfl behind

end Grammar

/-! ### Templates -/

/-- The steps of a chain and of one behind it. -/
theorem Param.compileChain_append {names : List String} {scopes : List Scope}
    {first second : List Param} {steps others : List Step}
    (here : compileChain names scopes first = .ok steps)
    (behind : compileChain names scopes second = .ok others) :
    compileChain names scopes (first ++ second) = .ok (steps ++ others) := by
  induction first generalizing steps with
  | nil =>
      cases here
      exact behind
  | cons param rest ih =>
      rw [compileChain] at here
      obtain ⟨own, compiles, inner⟩ := bind_eq_ok.mp here
      obtain ⟨later, compilesLater, same⟩ := bind_eq_ok.mp inner
      cases same
      rw [List.cons_append, compileChain, List.append_assoc]
      exact bind_eq_ok.mpr ⟨own, compiles, bind_eq_ok.mpr ⟨_, ih compilesLater, rfl⟩⟩

namespace Template

/-- **The template of a text behind another one** holds the steps of both. -/
theorem OfChain.sequence {first second : String} {chain others : List Param} {one two : Template}
    (of : OfChain first chain one) (ofOther : OfChain second others two)
    (disjoint : List.Disjoint (Param.schemaNames chain) (Param.schemaNames others)) :
    ∃ template, ofText (first ++ " : " ++ second) = .ok template ∧
      template.root = Step.renumberAll 0 one.root ++ Step.renumberAll one.schemaCount two.root ∧
      template.suffixes = [] ∧
      ∀ definition ∈ Step.definitionsOfAll template.root,
        template.bodies[definition.1]? = some definition.2 := by
  obtain ⟨distance, sequenced⟩ := of.chainText.sequence ofOther.chainText
  rw [← Param.relocateAll_eq_map] at sequenced
  have formed := formed_of_parse sequenced.parse_eq fun param member => by
    rcases List.mem_append.mp member with here | there
    · exact of.formed.isSuffix_eq_false here
    · rw [Param.relocateAll_eq_map] at there
      obtain ⟨original, listed, rfl⟩ := List.mem_map.mp there
      exact (Param.isSuffix_relocate _ original).trans (ofOther.formed.isSuffix_eq_false listed)
  have names : Param.schemaNames (chain ++ Param.relocateAll (distance + ·) others) =
      Param.schemaNames chain ++ Param.schemaNames others := by
    rw [Param.schemaNames_append, Param.schemaNames_relocateAll]
  have distinct : (Param.schemaNames chain ++ Param.schemaNames others).Nodup :=
    of.distinct.append ofOther.distinct disjoint
  have here := @OfChain.compileChain _ _ _ of [] (Param.schemaNames others) distinct []
  have behind := @OfChain.compileChain _ _ _ ofOther (Param.schemaNames chain) []
    ((List.append_nil _).symm ▸ distinct) []
  rw [List.append_nil, ← of.count, ← Param.compileChain_relocate (distance + ·)] at behind
  have compiled := Param.compileChain_append here behind
  rw [List.nil_append, ← names] at compiled
  rw [← names] at distinct
  obtain ⟨template, compiles, root, unsuffixed, bodies⟩ :=
    exists_template sequenced.parse_eq formed distinct compiled
  exact ⟨template, compiles, root, unsuffixed, root ▸ bodies⟩

/-- **A text behind another one is validated by both**, the second on the answer of the first,
whatever the bindings, the value and the metadata are. -/
theorem ofText_sequence {first second : String} {one two : Template}
    (compiles : ofText first = .ok one) (compilesOther : ofText second = .ok two)
    (unsuffixed : one.suffixes = []) (unsuffixedOther : two.suffixes = [])
    (disjoint : List.Disjoint (Grammar.schemaNames first) (Grammar.schemaNames second)) :
    ∃ template, ofText (first ++ " : " ++ second) = .ok template ∧ ∀ bindings,
      template.validate bindings =
        Validator.consecutive [one.validate bindings, two.validate bindings] := by
  obtain ⟨chain, of⟩ := exists_ofChain compiles unsuffixed
  obtain ⟨others, ofOther⟩ := exists_ofChain compilesOther unsuffixedOther
  rw [Grammar.schemaNames, Grammar.schemaNames, of.parses, ofOther.parses] at disjoint
  obtain ⟨template, sequenced, root, plain, defined⟩ := of.sequence ofOther disjoint
  rw [root, Step.definitionsOfAll_append] at defined
  obtain ⟨definedHere, definedBehind⟩ := List.forall_mem_append.mp defined
  refine ⟨template, sequenced, fun bindings => ?_⟩
  calc template.validate bindings
    _ = Step.validateChain bindings (Step.invoke template.bodies bindings)
          (Step.renumberAll 0 one.root ++ Step.renumberAll one.schemaCount two.root) := by
        rw [validate_of_plain plain, root]
    _ = (one.validate bindings).andThen (two.validate bindings) :=
        (Step.validateChain_append bindings _ _ _).trans (congrArg₂ Validator.andThen
          (validateChain_eq compiles unsuffixed definedHere)
          (validateChain_eq compilesOther unsuffixedOther definedBehind))
    _ = Validator.consecutive [one.validate bindings, two.validate bindings] := by
        rw [Validator.consecutive, Validator.consecutive, Validator.consecutive,
          Validator.andThen_accept]

/-- A tree, and a number behind it, both with a schema of their own. -/
theorem ofText_sequence_tree_and_number : ∃ one two template,
    ofText "#t(@o(l: @a(##t)))" = .ok one ∧ ofText "#u(@n)" = .ok two ∧
    one.suffixes = [] ∧ two.suffixes = [] ∧
    List.Disjoint (Grammar.schemaNames "#t(@o(l: @a(##t)))") (Grammar.schemaNames "#u(@n)") ∧
    ofText ("#t(@o(l: @a(##t)))" ++ " : " ++ "#u(@n)") = .ok template ∧ ∀ bindings,
      template.validate bindings =
        Validator.consecutive [one.validate bindings, two.validate bindings] := by
  let tree : List Step := [.object [.mk "l" [.array [.call 0] none] false] none]
  let number : List Step := [.primitive .number none]
  have compiles : ofText "#t(@o(l: @a(##t)))" = .ok ⟨[.define 0 tree], [tree], []⟩ := by cbv
  have compilesOther : ofText "#u(@n)" = .ok ⟨[.define 0 number], [number], []⟩ := by cbv
  have disjoint : List.Disjoint (Grammar.schemaNames "#t(@o(l: @a(##t)))")
      (Grammar.schemaNames "#u(@n)") := by
    have trees : Grammar.schemaNames "#t(@o(l: @a(##t)))" = ["t"] := by cbv
    have numbers : Grammar.schemaNames "#u(@n)" = ["u"] := by cbv
    rw [trees, numbers]
    simp
  obtain ⟨template, sequenced, same⟩ := ofText_sequence compiles compilesOther rfl rfl disjoint
  exact ⟨_, _, template, compiles, compilesOther, rfl, rfl, disjoint, sequenced, same⟩

end Template

end Schemata
