/-
**A text compiles if and only if its forest satisfies the requirements.**

The forest of a text is a well-formed chain with suffixes behind it. Suffixes neither satisfy nor
violate a requirement, so what holds of chains holds of texts.

* `Param.Violates.of_occurs`: the requirements only concern what occurs in a forest;
* `Template.ofText_isOk_iff_admissible`: which texts compile, and what the errors of the others
  tell.
-/

import Mathlib
import Schemata.Proofs.Compilation.Diagnosis
import Schemata.Proofs.Compilation.Parsed

namespace Schemata

namespace Param

variable {forest other chain : List Param} {suffixes : List Suffix} {scopes : List Scope}
  {invocation : Invocation} {error : CompileError}

/-! ### Suffixes -/

/-- What occurs in a forest occurs in a longer one. -/
theorem Occurs.append (occurs : Occurs forest scopes invocation) (more : List Param) :
    Occurs (forest ++ more) scopes invocation := by
  induction occurs with
  | root member => exact .root (List.mem_append_left _ member)
  | field _ ih => exact .field ih
  | inside _ other member ih => exact .inside ih other member

/-- What occurs in a chain with suffixes occurs in the chain, or is a suffix. -/
theorem Occurs.of_append (occurs : Occurs (chain ++ suffixes.map Suffix.node) scopes invocation) :
    Occurs chain scopes invocation ∨ ∃ suffix : Suffix, .validator invocation = suffix.node := by
  induction occurs with
  | root member =>
      rcases List.mem_append.mp member with member | member
      · exact .inl (.root member)
      · obtain ⟨suffix, -, same⟩ := List.mem_map.mp member
        exact .inr ⟨suffix, same.symm⟩
  | field _ ih =>
      rcases ih with outer | ⟨suffix, same⟩
      · exact .inl (.field outer)
      · cases suffix <;> simp [Suffix.node, Suffix.name] at same
  | inside _ other member ih =>
      rcases ih with outer | ⟨suffix, same⟩
      · exact .inl (.inside outer other member)
      · simp only [Suffix.node, Param.validator.injEq, Invocation.mk.injEq] at same
        rw [same.2.1] at member
        rcases suffix with (_ | _) | _ <;> simp [Suffix.params] at member

/-- Suffixes define no schemas. -/
theorem schemaNames_append_suffixes (chain : List Param) (suffixes : List Suffix) :
    schemaNames (chain ++ suffixes.map Suffix.node) = schemaNames chain := by
  have none : schemaNames (suffixes.map Suffix.node) = [] := by
    induction suffixes with
    | nil => rfl
    | cons suffix rest ih =>
        have first : schemaNamesOf suffix.node = [] := by
          rcases suffix with (_ | _) | _ <;> rfl
        rw [List.map_cons, schemaNames, first, ih]
        rfl
  rw [schemaNames_append, none, List.append_nil]

/-! ### Transfer -/

/-- The names of suffixes, which no requirement concerns. -/
def suffixNames : List String :=
  ["~error", "~meta"]

/-- **A violation only concerns the names of schemas and what occurs, but for suffixes.** -/
theorem Violates.of_occurs (violates : Violates forest error)
    (names : schemaNames forest = schemaNames other)
    (occurs : ∀ {scopes validator params tag}, Occurs forest scopes (.mk validator params tag) →
      validator ∉ suffixNames → Occurs other scopes (.mk validator params tag)) :
    Violates other error := by
  have compares : ∀ validator ∈ comparators, validator ∉ suffixNames := by decide
  have keywords : ∀ validator ∈ schemaKeywords, validator ∉ suffixNames := by decide
  cases violates with
  | duplicateSchema twice => exact .duplicateSchema (names ▸ twice)
  | undefinedSchema here refers undefined =>
      exact .undefinedSchema (occurs here (by decide)) refers (names ▸ undefined)
  | taggedSchema here schema => exact .taggedSchema (occurs here (keywords _ schema)) schema
  | repeatedField here twice => exact .repeatedField (occurs here (by decide)) twice
  | textBound here => exact .textBound (occurs here (by decide))
  | invalidPattern here unreadable => exact .invalidPattern (occurs here (by decide)) unreadable
  | unknownDependency here compared undeclared =>
      exact .unknownDependency (occurs here (compares _ compared)) compared undeclared
  | forwardDependency here compared declared late =>
      exact .forwardDependency (occurs here (compares _ compared)) compared declared late

/-- **Suffixes behind a chain neither add nor remove a violation.** -/
theorem violates_append_iff :
    Violates (chain ++ suffixes.map Suffix.node) error ↔ Violates chain error := by
  constructor
  · intro violates
    refine violates.of_occurs (schemaNames_append_suffixes chain suffixes) fun here other => ?_
    rcases here.of_append with occurs | ⟨suffix, same⟩
    · exact occurs
    · cases suffix <;> simp_all [Suffix.node, Suffix.name, suffixNames]
  · intro violates
    exact violates.of_occurs (schemaNames_append_suffixes chain suffixes).symm fun here _ =>
      here.append _

end Param

/-! ### Texts -/

namespace Template

/-- The template of a text is that of its forest. -/
theorem ofText_eq {text : String} {forest : List Param} (parses : Grammar.parse text = .ok forest) :
    ofText text = ofForest forest := by
  unfold ofText
  rw [parses]
  rfl

/-- **A text that has a forest compiles if and only if the forest satisfies the requirements.**
Otherwise the error tells of a requirement that is violated, so it is none of those that no text can
give rise to. -/
theorem ofText_isOk_iff_admissible {text : String} {forest : List Param}
    (parses : Grammar.parse text = .ok forest) :
    ((∃ template, ofText text = .ok template) ↔ Param.Admissible forest) ∧
    (∀ error, ofText text = .error error → Param.Violates forest error) ∧
    (∀ name, ofText text ≠ .error (.unknownValidator name) ∧
      ofText text ≠ .error (.misplacedSuffix name)) ∧
    ∀ validator fault, ofText text = .error (.invalidParams validator fault) →
      fault = .taggedSchema ∨ fault = .textBound ∨ ∃ name, fault = .repeatedField name := by
  obtain ⟨chain, suffixes, rfl, formed⟩ := Grammar.forest_of_parse parses
  rw [ofText_eq parses]
  have violates : ∀ error, ofForest (chain ++ suffixes.map Suffix.node) = .error error →
      Param.Violates (chain ++ suffixes.map Suffix.node) error :=
    fun error fails => Param.violates_append_iff.mpr (formed.violates suffixes fails)
  refine ⟨?_, violates, fun name => ⟨fun fails => ?_, fun fails => ?_⟩,
    fun validator fault fails => ?_⟩
  · rw [formed.isOk_iff suffixes, Param.admissible_iff, Param.admissible_iff]
    exact forall_congr' fun error => not_congr Param.violates_append_iff.symm
  · cases violates _ fails
  · cases violates _ fails
  · cases violates _ fails with
    | taggedSchema => exact .inl rfl
    | textBound => exact .inr (.inl rfl)
    | repeatedField => exact .inr (.inr ⟨_, rfl⟩)

/-- A field that depends on a later one is told of. -/
theorem violates_forward_dependency : ∃ forest,
    Grammar.parse "@o(m: @c(=n), n: @s)" = .ok forest ∧ ¬Param.Admissible forest ∧
      Param.Violates forest (.forwardDependency "m" "n") := by
  have parses : ∃ forest, Grammar.parse "@o(m: @c(=n), n: @s)" = .ok forest := ⟨_, by cbv⟩
  obtain ⟨forest, parses⟩ := parses
  obtain ⟨-, violates, -⟩ := ofText_isOk_iff_admissible parses
  have fails : ofText "@o(m: @c(=n), n: @s)" = .error (.forwardDependency "m" "n") := by cbv
  exact ⟨forest, parses, (violates _ fails).not_admissible, violates _ fails⟩

end Template

end Schemata
