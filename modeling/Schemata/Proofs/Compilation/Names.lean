/-
**The names that a forest declares are those of the definitions that occur in it.**

* `Param.Occurs.child`: the invocations inside one that occurs occur too;
* `Param.defines_of_mem` and `Param.Occurs.schemaNames_subset`: a name is listed if and only if
  a definition of it occurs;
* `Param.declareAll_eq`: the declared names are the listed ones;
* `Param.declareAll_error`: declaring fails only where a name is defined twice.
-/

import Schemata.Proofs.Compilation.Form
import Schemata.Proofs.Compilation.Suffix

namespace Schemata

/-- **A chain is well formed**: so are all invocations that occur in it. -/
structure Param.Formed (chain : List Param) : Prop extends Param.IsChain chain where
  occurring : ∀ {scopes invocation}, Param.Occurs chain scopes invocation → invocation.Formed

/-- Parameters name a schema if they start with an identifier. -/
theorem Param.schemaName_eq_ok_iff {validator : String} {params : List Param} {name : String} :
    schemaName validator params = .ok name ↔ schemaName? params = some name := by
  cases params with
  | nil => constructor <;> intro same <;> cases same
  | cons param rest =>
      cases found : param.token? .identifier <;> simp [schemaName, schemaName?, found]

namespace Param

variable {forest : List Param}

theorem schemaName?_token {lexeme : Lexeme} {rest : List Param}
    (identifier : lexeme.kind = .identifier) :
    schemaName? (.token lexeme :: rest) = some lexeme.value := by
  simp [schemaName?, token?, identifier]

/-! ### Occurrences -/

/-- What an invocation holds occurs where it does. -/
theorem Occurs.child {scopes : List Scope} {validator : String} {params : List Param}
    {tag : Option ErrorTag} {invocation : Invocation}
    (occurs : Occurs forest scopes (.mk validator params tag))
    (member : .validator invocation ∈ params) : ∃ inner, Occurs forest inner invocation := by
  by_cases object : validator = "object"
  · subst object
    obtain ⟨before, after, rfl⟩ := List.append_of_mem member
    exact ⟨_, .field occurs⟩
  · exact ⟨_, .inside occurs object member⟩

theorem schemaNames_append (first second : List Param) :
    schemaNames (first ++ second) = schemaNames first ++ schemaNames second := by
  induction first with
  | nil => rfl
  | cons param rest ih => rw [List.cons_append, schemaNames, schemaNames, ih, List.append_assoc]

/-- What is collected from an invocation with all inside it is collected where the invocation
occurs. -/
theorem Occurs.subset {α : Type} {of : Invocation → List α} {all : List α}
    (root : ∀ invocation, .validator invocation ∈ forest → of invocation ⊆ all)
    (inside : ∀ validator params tag child, .validator child ∈ params →
      of child ⊆ of (.mk validator params tag))
    {scopes : List Scope} {invocation : Invocation} (occurs : Occurs forest scopes invocation) :
    of invocation ⊆ all := by
  induction occurs with
  | root member => exact root _ member
  | field _ ih =>
      exact List.Subset.trans (inside _ _ _ _ (List.mem_append_right _ List.mem_cons_self)) ih
  | inside _ _ member ih => exact List.Subset.trans (inside _ _ _ _ member) ih

/-- The schemas that an occurring invocation defines are defined in the forest. -/
theorem Occurs.schemaNames_subset {scopes : List Scope} {invocation : Invocation}
    (occurs : Occurs forest scopes invocation) : invocation.schemaNames ⊆ schemaNames forest :=
  have collects {params : List Param} {child : Invocation} (member : .validator child ∈ params) :
      child.schemaNames ⊆ schemaNames params := subset_of_mem schemaNamesOf (fun _ _ => rfl) member
  occurs.subset (fun _ => collects) fun _ _ _ _ member =>
    List.subset_append_of_subset_right _ (collects member)

/-- The name of an occurring definition is listed. -/
theorem Occurs.mem_schemaNames {scopes : List Scope} {params : List Param} {tag : Option ErrorTag}
    {name : String} (occurs : Occurs forest scopes (.mk "define" params tag))
    (named : schemaName? params = some name) : name ∈ schemaNames forest := by
  refine occurs.schemaNames_subset ?_
  rw [Invocation.schemaNames, if_pos rfl, named]
  exact List.mem_cons_self

/-! ### Listed names -/

/-- A definition of a name occurs. -/
def Defines (forest : List Param) (name : String) : Prop :=
  ∃ scopes params tag, Occurs forest scopes (.mk "define" params tag) ∧
    schemaName? params = some name

end Param

section Listed

variable {forest : List Param} {name : String}

mutual

theorem Invocation.defines_of_mem : (invocation : Invocation) → ∀ scopes,
    Param.Occurs forest scopes invocation → name ∈ invocation.schemaNames →
      Param.Defines forest name
  | .mk validator params tag => by
      intro scopes occurs member
      rw [Invocation.schemaNames] at member
      rcases List.mem_append.mp member with here | inside
      · by_cases define : validator = "define"
        · subst define
          rw [if_pos rfl, Option.mem_toList] at here
          exact ⟨scopes, params, tag, occurs, here⟩
        · rw [if_neg define] at here
          cases here
      · exact Param.defines_of_mem_schemaNames params (fun _ member => occurs.child member) inside

theorem Param.defines_of_mem_schemaNames : (params : List Param) →
    (∀ invocation, .validator invocation ∈ params → ∃ scopes,
      Param.Occurs forest scopes invocation) →
      name ∈ Param.schemaNames params → Param.Defines forest name
  | [] => by
      intro _ member
      cases member
  | param :: rest => by
      intro occurs member
      rw [Param.schemaNames] at member
      rcases List.mem_append.mp member with here | later
      · exact Param.defines_of_mem_schemaNamesOf param
          (fun invocation same => occurs invocation (same ▸ List.mem_cons_self)) here
      · exact Param.defines_of_mem_schemaNames rest
          (fun invocation member => occurs invocation (List.mem_cons_of_mem _ member)) later

theorem Param.defines_of_mem_schemaNamesOf : (param : Param) →
    (∀ invocation, param = .validator invocation → ∃ scopes,
      Param.Occurs forest scopes invocation) →
      name ∈ Param.schemaNamesOf param → Param.Defines forest name
  | .validator invocation => by
      intro occurs member
      obtain ⟨scopes, occurs⟩ := occurs invocation rfl
      exact Invocation.defines_of_mem invocation scopes occurs member
  | .token _ | .text _ | .injection _ | .comparison _ => by
      intro _ member
      cases member

end

/-- **A definition occurs of every name that is listed.** -/
theorem Param.defines_of_mem (member : name ∈ schemaNames forest) : Defines forest name :=
  defines_of_mem_schemaNames forest (fun _ member => ⟨[], .root member⟩) member

end Listed

/-! ### Declared names -/

mutual

theorem Invocation.declare_eq : (invocation : Invocation) → ∀ (names after : List String),
    invocation.declare names = .ok after → after = names ++ invocation.schemaNames
  | .mk validator params tag => by
      intro names after declares
      rw [Invocation.declare] at declares
      rw [Invocation.schemaNames]
      by_cases define : validator = "define"
      · rw [if_pos define] at declares ⊢
        obtain ⟨name, named, declares⟩ := bind_eq_ok.mp declares
        split at declares
        · cases declares
        · rw [Param.schemaName_eq_ok_iff.mp named, Param.declareAll_eq params _ _ declares,
            List.append_assoc]
          rfl
      · rw [if_neg define] at declares ⊢
        exact Param.declareAll_eq params _ _ declares

/-- **The declared names are those that are listed.** -/
theorem Param.declareAll_eq : (params : List Param) → ∀ (names after : List String),
    Param.declareAll names params = .ok after → after = names ++ Param.schemaNames params
  | [] => by
      intro names after declares
      cases declares
      exact (List.append_nil _).symm
  | param :: rest => by
      intro names after declares
      rw [Param.declareAll] at declares
      obtain ⟨middle, first, second⟩ := bind_eq_ok.mp declares
      rw [Param.schemaNames, Param.declareAll_eq rest _ _ second, Param.declare_eq param _ _ first,
        List.append_assoc]

theorem Param.declare_eq : (param : Param) → ∀ (names after : List String),
    Param.declare names param = .ok after → after = names ++ Param.schemaNamesOf param
  | .validator invocation => fun names after declares =>
      Invocation.declare_eq invocation names after declares
  | .token _ | .text _ | .injection _ | .comparison _ => by
      intro names after declares
      cases declares
      exact (List.append_nil _).symm

end

/-- A name is defined twice in some names, and the error says so. -/
def TellsOfDuplicate (error : CompileError) (names : List String) : Prop :=
  ∃ name, error = .duplicateSchema name ∧ List.Duplicate name names

theorem TellsOfDuplicate.mono {error : CompileError} {names others : List String}
    (tells : TellsOfDuplicate error names) (sublist : names.Sublist others) :
    TellsOfDuplicate error others := by
  obtain ⟨name, same, twice⟩ := tells
  exact ⟨name, same, twice.mono_sublist sublist⟩

section Errors

variable {chain : List Param}

mutual

theorem Invocation.declare_error (formed : Param.Formed chain) : (invocation : Invocation) →
    ∀ scopes names error,
    Param.Occurs chain scopes invocation → invocation.declare names = .error error →
      TellsOfDuplicate error (names ++ invocation.schemaNames)
  | .mk validator params tag => by
      intro scopes names error occurs fails
      rw [Invocation.declare] at fails
      rw [Invocation.schemaNames]
      by_cases define : validator = "define"
      · subst define
        obtain ⟨lexeme, body, same, identifier, -⟩ := (formed.occurring occurs).shapes.2.1 rfl
        have named : Param.schemaName? params = some lexeme.value :=
          same ▸ Param.schemaName?_token identifier
        rw [if_pos rfl, Param.schemaName_eq_ok_iff.mpr named] at fails
        rw [if_pos rfl, named]
        change (if names.contains lexeme.value then _ else _) = _ at fails
        split at fails
        · rename_i present
          cases fails
          refine ⟨_, rfl, List.duplicate_iff_sublist.mpr ?_⟩
          have before := List.singleton_sublist.mpr (List.contains_iff_mem.mp present)
          exact before.append (List.sublist_append_left [lexeme.value] _)
        · have inside := Param.declareAll_error formed params _ _
            (fun _ member => occurs.child member) fails
          rwa [List.append_assoc] at inside
      · rw [if_neg define] at fails ⊢
        exact Param.declareAll_error formed params _ _ (fun _ member => occurs.child member) fails

/-- **Declaring fails only where a name is defined twice.** -/
theorem Param.declareAll_error (formed : Param.Formed chain) :
    (params : List Param) → ∀ names error,
    (∀ invocation, .validator invocation ∈ params → ∃ scopes,
      Param.Occurs chain scopes invocation) → Param.declareAll names params = .error error →
      TellsOfDuplicate error (names ++ Param.schemaNames params)
  | [] => by
      intro names error _ fails
      cases fails
  | param :: rest => by
      intro names error occurs fails
      rw [Param.declareAll] at fails
      rw [Param.schemaNames, ← List.append_assoc]
      rcases bind_eq_error.mp fails with fails | ⟨middle, declares, fails⟩
      · exact (Param.declare_error formed param _ _
          (fun invocation same => occurs invocation (same ▸ List.mem_cons_self)) fails).mono
          (List.sublist_append_left _ _)
      · rw [← Param.declare_eq param _ _ declares]
        exact Param.declareAll_error formed rest _ _
          (fun invocation member => occurs invocation (List.mem_cons_of_mem _ member)) fails

theorem Param.declare_error (formed : Param.Formed chain) : (param : Param) → ∀ names error,
    (∀ invocation, param = .validator invocation → ∃ scopes, Param.Occurs chain scopes invocation) →
      Param.declare names param = .error error →
      TellsOfDuplicate error (names ++ Param.schemaNamesOf param)
  | .validator invocation => by
      intro names error occurs fails
      obtain ⟨scopes, occurs⟩ := occurs invocation rfl
      exact Invocation.declare_error formed invocation scopes names error occurs fails
  | .token _ | .text _ | .injection _ | .comparison _ => by
      intro names error _ fails
      cases fails

end

end Errors

end Schemata
