/-
**A definition and a reference may be exchanged.**

A named schema may be defined at any of the places where it is used, if its body has no field
operands: the body has the same handle at all of them, up to the order of the handles.

* `Param.Exchanges` says that a definition and a reference to it have been exchanged;
* `Param.Exchanges.counterparts`: so the chains are counterparts, and compile alike;
* `Template.validate_eq_of_alike`: templates whose handles stand for one another validate alike;
* `Template.ofText_exchanged`: so the exchange changes no run.
-/

import Schemata.Proofs.Language.Writable

namespace Schemata

/-! ### Two replacements -/

namespace Invocation.Variation

/-- One invocation may be replaced by another. -/
def replacing (old new : Invocation) : Invocation.Variation where
  exchanges first second := first = old ∧ second = new
  retags := Eq
  orders _ _ := False

/-- Two invocations may be replaced by one another. -/
def swapping (one two : Invocation) : Invocation.Variation where
  exchanges first second := (first = one ∧ second = two) ∨ (first = two ∧ second = one)
  retags := Eq
  orders _ _ := False

end Invocation.Variation

open Invocation.Variation (replacing swapping)

section Swap

variable {one two : Invocation}

/-- An invocation with plain parameters only varies where it is exchanged. -/
theorem Invocation.Varies.eq_of_plain {variation : Invocation.Variation} {first second : Invocation}
    (retags : ∀ tag other, variation.retags tag other → tag = other)
    (varies : Varies variation first second)
    (plain : (∀ param ∈ first.params, param.invocation? = none) ∨
      ∀ param ∈ second.params, param.invocation? = none) :
    first = second ∨ variation.exchanges first second := by
  cases varies with
  | exchanged exchanges => exact .inr exchanges
  | kept inside tags _ =>
      have same := plain.elim inside.eq_of_plain inside.eq_of_plain_right
      rw [same, retags _ _ tags]
      exact .inl rfl

mutual

/-- **One replacement and then the other way round** exchanges the two invocations. -/
theorem Invocation.varies_swapping (plain : ∀ param ∈ two.params, param.invocation? = none) :
    (first : Invocation) → ∀ second third, Invocation.Varies (replacing one two) first second →
      Invocation.Varies (replacing two one) second third →
      Invocation.Varies (swapping one two) first third
  | .mk validator params tag => by
      intro second third varies further
      cases varies with
      | exchanged exchanges =>
          obtain ⟨rfl, rfl⟩ := exchanges
          rcases further.eq_of_plain (fun _ _ => id) (.inl plain) with same | ⟨-, same⟩
          · exact same ▸ .exchanged (.inl ⟨rfl, rfl⟩)
          · exact same ▸ .refl (fun _ => rfl) _
      | kept inside same schemas =>
          cases further with
          | exchanged exchanges =>
              obtain ⟨rfl, rfl⟩ := exchanges
              rw [inside.eq_of_plain_right plain, show tag = _ from same]
              exact .exchanged (.inr ⟨rfl, rfl⟩)
          | kept behind sameOther schemasOther =>
              exact .kept (Param.allVary_swapping plain params _ _ inside behind)
                (Eq.trans same sameOther) fun schema => (schemas schema).trans (schemasOther schema)

theorem Param.allVary_swapping (plain : ∀ param ∈ two.params, param.invocation? = none) :
    (params : List Param) → ∀ others further, Param.AllVary (replacing one two) params others →
      Param.AllVary (replacing two one) others further →
      Param.AllVary (swapping one two) params further
  | [] => by
      intro others further vary behind
      cases vary
      cases behind
      exact .nil
  | param :: rest => by
      intro others further vary behind
      cases vary with
      | cons here later =>
          cases behind with
          | cons hereOther laterOther =>
              exact .cons (Param.varies_swapping plain param _ _ here hereOther)
                (Param.allVary_swapping plain rest _ _ later laterOther)

theorem Param.varies_swapping (plain : ∀ param ∈ two.params, param.invocation? = none) :
    (param : Param) → ∀ other further, Param.Varies (replacing one two) param other →
      Param.Varies (replacing two one) other further → Param.Varies (swapping one two) param further
  | .validator invocation => by
      intro other further varies behind
      cases varies with
      | plain plain => cases plain
      | invocation varies =>
          cases behind with
          | plain plain => cases plain
          | invocation behind =>
              exact .invocation (Invocation.varies_swapping plain invocation _ _ varies behind)
  | .token _ | .text _ | .injection _ | .comparison _ => by
      intro other further varies behind
      cases varies
      cases behind
      exact .plain rfl

end

end Swap

/-! ### Exchanges -/

/-- **A definition and a reference have been exchanged**: there are references at both places
between. -/
def Param.Exchanges (definition reference : Invocation) (forest exchanged : List Param) : Prop :=
  ∃ between, Replaces definition reference forest between ∧
    Replaces reference definition between exchanged

/-- The definition of a schema with this name and body. -/
def Invocation.definition (name : Lexeme) (body : List Param) : Invocation :=
  .mk "define" (.token name :: body) none

/-- The reference to the schema with this name. -/
def Invocation.reference (name : Lexeme) : Invocation :=
  .mk "reference" [.token name] none

namespace Invocation

theorem definition_not_isSuffix (name : Lexeme) (body : List Param) :
    (definition name body).isSuffix = false := by
  simp [definition, isSuffix, Invocation.name]

theorem reference_not_isSuffix (name : Lexeme) : (reference name).isSuffix = false := by
  simp [reference, isSuffix, Invocation.name]

theorem reference_plain (name : Lexeme) :
    ∀ param ∈ (reference name).params, param.invocation? = none := by
  simp [reference, params, Param.invocation?]

end Invocation

/-- Nothing stands inside an invocation with plain parameters. -/
theorem Param.Occurs.eq_of_plain {outer : Invocation}
    (plain : ∀ param ∈ outer.params, param.invocation? = none) {scopes : List Scope}
    {invocation : Invocation} (occurs : Occurs [.validator outer] scopes invocation) :
    invocation = outer := by
  induction occurs with
  | root member =>
      cases List.mem_singleton.mp member
      rfl
  | @field _ _ before after invocation _ ih =>
      subst ih
      cases plain (.validator invocation) (List.mem_append_right _ List.mem_cons_self)
  | inside _ _ member ih =>
      subst ih
      cases plain _ member

/-- An invocation compiles among more names of schemas, in the same order or in another one. -/
theorem Invocation.exists_compile {names others : List String} (known : names ⊆ others)
    {scopes : List Scope} {invocation : Invocation} {step : Step}
    (compiles : invocation.compile names scopes = .ok step) :
    ∃ further, invocation.compile others scopes = .ok further := by
  have nothing :
      Invocation.Variation.Compiles ⟨fun _ _ => False, Eq, fun _ _ => False⟩ names others :=
    ⟨known, nofun, nofun⟩
  obtain ⟨further, compiled, -⟩ :=
    invocation.compile_varies nothing _ _ _ (.refl (fun _ => rfl) _) compiles
  exact ⟨further, compiled⟩

namespace Param.Exchanges

variable {name : Lexeme} {body forest exchanged : List Param}
  (exchanges : Exchanges (.definition name body) (.reference name) forest exchanged)
include exchanges

/-- Forests with an exchange vary in it only. -/
theorem allVary :
    AllVary (swapping (.definition name body) (.reference name)) forest exchanged := by
  obtain ⟨between, first, second⟩ := exchanges
  exact allVary_swapping (Invocation.reference_plain name) _ _ _
    (first.allVary (fun _ => rfl) ⟨rfl, rfl⟩) (second.allVary (fun _ => rfl) ⟨rfl, rfl⟩)

/-- The same schemas are defined. -/
theorem schemaNames_perm : (schemaNames forest).Perm (schemaNames exchanged) := by
  obtain ⟨between, first, second⟩ := exchanges
  have none : (Invocation.reference name).schemaNames = [] := rfl
  have there := first.schemaNames_perm
  have back := second.schemaNames_perm
  rw [none, List.append_nil] at there back
  exact there.trans back

/-- **Chains with an exchange are counterparts**, if the body of the definition has no field
operands. -/
theorem counterparts (closed : referencedFields body = []) {chain other : List Param}
    {suffixes : List Suffix} {template : Template}
    (whole : forest = chain ++ suffixes.map Suffix.node)
    (wholeOther : exchanged = other ++ suffixes.map Suffix.node)
    (of : Template.OfSuffixed chain suffixes template)
    (vary : AllVary (swapping (.definition name body) (.reference name)) chain other) :
    Counterparts (swapping (.definition name body) (.reference name)) chain other := by
  have names := exchanges.schemaNames_perm
  rw [whole, wholeOther, schemaNames_append_suffixes, schemaNames_append_suffixes] at names
  have known := names.subset
  have closedDefinition : (Invocation.definition name body).referencedFields = [] := closed
  obtain ⟨between, first, second⟩ := exchanges
  -- the definition stands in both chains
  obtain ⟨_, there⟩ := first.exists_occurs_old fun _ member => ⟨[], .root member⟩
  rw [whole] at there
  replace there := there.of_suffixed (Invocation.definition_not_isSuffix name body)
  obtain ⟨_, thereOther⟩ := second.exists_occurs_new fun _ member => ⟨[], .root member⟩
  rw [wholeOther] at thereOther
  replace thereOther := thereOther.of_suffixed (Invocation.definition_not_isSuffix name body)
  obtain ⟨step, compiles, -⟩ := there.compiles of.formed of.root
  obtain ⟨further, compilesOther⟩ := Invocation.exists_compile known compiles
  obtain ⟨_, _, same, identifier, isChain⟩ := (of.formed.occurring there).shapes.2.1 rfl
  cases same
  refine ⟨vary, fun _ => rfl, ⟨known, ?_, ?_⟩, names, ?_⟩
  · rintro one two (⟨rfl, rfl⟩ | ⟨rfl, rfl⟩)
    · exact closedDefinition
    · exact closedDefinition.symm
  · rintro one two scopes step (⟨rfl, rfl⟩ | ⟨rfl, rfl⟩) compiled
    · rw [Invocation.definition, Invocation.compile_define identifier isChain] at compiled
      obtain ⟨handle, handled, inner⟩ := bind_eq_ok.mp compiled
      obtain ⟨steps, -, same⟩ := bind_eq_ok.mp inner
      cases same
      obtain ⟨place, found⟩ :=
        exists_handle (known (List.mem_of_getElem? (getElem?_of_handle handled)))
      refine ⟨.call place, ?_, .named rfl rfl ⟨name.value, handled, found⟩⟩
      rw [Invocation.reference, Invocation.compile_reference identifier]
      exact bind_eq_ok.mpr ⟨place, found, rfl⟩
    · rw [Invocation.reference, Invocation.compile_reference identifier] at compiled
      obtain ⟨handle, handled, same⟩ := bind_eq_ok.mp compiled
      cases same
      rw [Invocation.compile_scopes _ closedDefinition _ scopes] at compilesOther
      refine ⟨further, compilesOther, ?_⟩
      rw [Invocation.definition, Invocation.compile_define identifier isChain] at compilesOther
      obtain ⟨place, found, inner⟩ := bind_eq_ok.mp compilesOther
      obtain ⟨steps, -, same⟩ := bind_eq_ok.mp inner
      cases same
      exact .named rfl rfl ⟨name.value, handled, found⟩
  · rintro params tag ⟨one, two, scopes, ⟨rfl, rfl⟩ | ⟨rfl, rfl⟩, inside⟩
    · exact ⟨inside.referencedFields_eq_nil closedDefinition, inside.trans thereOther⟩
    · have same := inside.eq_of_plain (Invocation.reference_plain name)
      simp [Invocation.reference] at same

end Param.Exchanges

/-! ### Templates with exchanged handles -/

/-- **Everything is compared.** -/
def Run.Simulation.exact : Run.Simulation :=
  .ofReports Eq rfl (fun first second => congrArg₂ (· ++ ·) first second) Eq.trans

theorem Run.Simulation.exact_matches_iff {α : Type} {run other : Run α} :
    Run.Simulation.exact.Matches run other ↔ run = other := by
  constructor
  · intro same
    funext known
    have runs := same known known rfl
    generalize run known = first, other known = second at runs
    cases runs with
    | none => rfl
    | @some first second similar =>
        obtain ⟨result, events, after⟩ := first
        obtain ⟨result', events', after'⟩ := second
        obtain ⟨rfl, rfl, rfl⟩ := similar
        rfl
  · rintro rfl known _ rfl
    cases run known with
    | none => exact .none
    | some outcome => exact .some ⟨rfl, rfl, rfl⟩

/-- **Templates that are alike up to exchanged invocations validate alike**, if their suffixes are
the same. -/
theorem Template.validate_eq_of_alike {one two : Invocation} {names others : List String}
    {template other : Template}
    (alike : Alike ((swapping one two).likeness names others) template other)
    (suffixes : other.suffixes = template.suffixes) : other.validate = template.validate := by
  funext bindings
  have holds : ∀ call further : Nat → Validator, True →
      (∀ handle changed, ((swapping one two).likeness names others).handles handle changed →
        ∀ value, Run.Simulation.exact.Matches (call handle value) (further changed value)) →
      ((swapping one two).likeness names others).Holds Run.Simulation.exact bindings bindings call
        further := by
    intro call further _ handlesMatch
    refine ⟨?_, ?_, fun {handle changed} => handlesMatch handle changed, nofun⟩
    · rintro _ _ ⟨step, tag, _, check, rfl, rfl, rfl⟩ value
      rw [Step.validate_of_isCheck (Step.isCheck_retag check tag) bindings call further,
        Run.Simulation.exact_matches_iff]
    · rintro tag _ rfl name params
      exact Run.Simulation.exact_matches_iff.mpr rfl
  have chains :=
    @Alike.validateChain_matches _ _ _ _ _ _ (fun _ => True) alike (fun _ => trivial) holds
  have same := funext fun value => Run.Simulation.exact_matches_iff.mp (chains value)
  rw [validate_eq_foldl, validate_eq_foldl, suffixes, same]

/-! ### Exchanged texts -/

section Texts

variable {name : Lexeme} {body : List Param}

theorem Invocation.Variation.swapping_keepsSuffixes :
    (swapping (.definition name body) (.reference name)).KeepsSuffixes := by
  rintro _ _ (⟨rfl, rfl⟩ | ⟨rfl, rfl⟩)
  · exact ⟨Invocation.definition_not_isSuffix name body, Invocation.reference_not_isSuffix name⟩
  · exact ⟨Invocation.reference_not_isSuffix name, Invocation.definition_not_isSuffix name body⟩

/-- A reference can be written where the definition can. -/
theorem Invocation.Variation.swapping_keepsWritable
    (writable : (Invocation.definition name body).Writable) :
    (swapping (.definition name body) (.reference name)).KeepsWritable where
  exchanges := by
    rintro _ _ (⟨rfl, rfl⟩ | ⟨rfl, rfl⟩) _
    · obtain ⟨head, tagged⟩ := Invocation.writable_iff.mp writable
      exact Invocation.writable_iff.mpr ⟨head.reference, tagged⟩
    · exact writable
  retags _ _ := id

/-- **A forest with an exchange is that of a text**, if the forest is. -/
theorem Param.Exchanges.exists_text {text : String} {forest exchanged : List Param}
    (parses : Grammar.parse text = .ok forest)
    (exchanges : Exchanges (.definition name body) (.reference name) (unplaced forest) exchanged) :
    ∃ other changed, Grammar.parse other = .ok changed ∧ unplaced changed = exchanged := by
  have writable := writableForest_of_parse parses
  obtain ⟨chain, suffixes, whole, root, -⟩ := writableForest_iff.mp writable
  obtain ⟨_, there⟩ : ∃ scopes, Occurs (unplaced forest) scopes (.definition name body) := by
    obtain ⟨_, first, -⟩ := exchanges
    exact first.exists_occurs_old fun _ member => ⟨[], .root member⟩
  rw [whole] at there
  have defined := (there.of_suffixed (Invocation.definition_not_isSuffix name body)).writable root
  exact (exchanges.allVary.writable Invocation.Variation.swapping_keepsSuffixes
    (Invocation.Variation.swapping_keepsWritable defined) writable).exists_text

end Texts

/-- **A definition and a reference to it may be exchanged**, if the body has no field operands. The
schema with the exchange has a text, and each of its texts compiles to a template with as many
schemas that runs alike on all bindings, values and metadata. -/
theorem Template.ofText_exchanged {text : String} {forest exchanged body : List Param}
    {name : Lexeme} {template : Template} (parses : Grammar.parse text = .ok forest)
    (compiles : ofText text = .ok template) (closed : Param.referencedFields body = [])
    (exchanges : Param.Exchanges (.definition name body) (.reference name) (Param.unplaced forest)
      exchanged) :
    (∃ other changed, Grammar.parse other = .ok changed ∧ Param.unplaced changed = exchanged) ∧
      ∀ other changed, Grammar.parse other = .ok changed → Param.unplaced changed = exchanged →
        ∃ further, ofText other = .ok further ∧ further.schemaCount = template.schemaCount ∧
          further.validate = template.validate := by
  refine ⟨exchanges.exists_text parses, fun other changed parsesOther same => ?_⟩
  subst same
  obtain ⟨further, compiled, suffixes, count, _, _, alike⟩ :=
    exists_alike parses parsesOther compiles Invocation.Variation.swapping_keepsSuffixes
      exchanges.allVary fun chain other suffixes whole wholeOther of _ vary =>
        exchanges.counterparts closed whole wholeOther of vary
  exact ⟨further, compiled, count, validate_eq_of_alike alike suffixes⟩

/-- A recursive schema that is used before it is defined, and the other way round. -/
theorem Template.ofText_exchanged_nodes : ∃ template further,
    ofText "@o(a: ##t, b: #t(@a(##t)))" = .ok template ∧
      ofText "@o(a: #t(@a(##t)), b: ##t)" = .ok further ∧
      further.schemaCount = template.schemaCount ∧ further.validate = template.validate := by
  let word (name : String) : Lexeme := .ofKind .identifier name 0
  let comma : Param := .token (.ofKind .comma "," 0)
  let reference : Invocation := .reference (word "t")
  let definition : Invocation :=
    .definition (word "t") [.validator (.mk "array" [.validator reference] none)]
  let pair (first second : Invocation) : List Param :=
    [.validator
      (.mk "object" [.token (word "a"), .validator first, comma, .token (word "b"),
        .validator second] none)]
  have forests : (Grammar.parse "@o(a: ##t, b: #t(@a(##t)))").map Param.unplaced =
      .ok (pair reference definition) := by cbv
  have compiles : ofText "@o(a: ##t, b: #t(@a(##t)))" = .ok
      ⟨[.object [.mk "a" [.call 0] false, .mk "b" [.define 0 [.array [.call 0] none]] false] none],
        [[.array [.call 0] none]], []⟩ :=
    (ofText_of_unplaced forests).trans (by cbv)
  have forestsOther : (Grammar.parse "@o(a: #t(@a(##t)), b: ##t)").map Param.unplaced =
      .ok (pair definition reference) := by cbv
  obtain ⟨forest, parses, whole⟩ := LexicalUnit.map_eq_ok.mp forests
  obtain ⟨changed, parsesOther, wholeOther⟩ := LexicalUnit.map_eq_ok.mp forestsOther
  have exchanges :
      Param.Exchanges definition reference (Param.unplaced forest) (pair definition reference) := by
    rw [whole]
    exact ⟨pair reference reference,
      .inside [] [] "object" none
        (.here [.token (word "a"), .validator reference, comma, .token (word "b")] []),
      .inside [] [] "object" none
        (.here [.token (word "a")] [comma, .token (word "b"), .validator reference])⟩
  obtain ⟨further, compiled, same⟩ :=
    (ofText_exchanged parses compiles rfl exchanges).2 _ changed parsesOther wholeOther
  exact ⟨_, further, compiles, compiled, same⟩

end Schemata
