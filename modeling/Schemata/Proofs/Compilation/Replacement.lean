/-
**An invocation that is replaced somewhere in a forest.**

* `Param.Replaces` says that one forest has an invocation where another one has another;
* `Param.Replaces.schemaNames_perm`: the schemas that are defined change by those of the two
  invocations;
* `Param.Replaces.exists_occurs_new`: what has been put in occurs there;
* `Param.Replaces.allVary`: the forests vary in the two invocations only.
-/

import Schemata.Proofs.Compilation.Counterpart

namespace Schemata

/-- **One forest has an invocation where another one has another**, at any depth. -/
inductive Param.Replaces (old new : Invocation) : List Param → List Param → Prop
  | here (before after : List Param) :
      Replaces old new (before ++ .validator old :: after) (before ++ .validator new :: after)
  | inside (before after : List Param) (validator : String) (tag : Option ErrorTag)
      {params others : List Param} (inner : Replaces old new params others) :
      Replaces old new (before ++ .validator (.mk validator params tag) :: after)
        (before ++ .validator (.mk validator others tag) :: after)

namespace Param.Replaces

variable {old new : Invocation} {params others forest : List Param}

/-- Other parameters than invocations are not replaced. -/
theorem schemaName?_eq (replaces : Replaces old new params others) :
    schemaName? params = schemaName? others := by
  cases replaces with
  | here before | inside before => cases before <;> rfl

/-- **The schemas that are defined** change by those of what is replaced. -/
theorem schemaNames_perm (replaces : Replaces old new params others) :
    (schemaNames params ++ new.schemaNames).Perm (schemaNames others ++ old.schemaNames) := by
  rw [List.perm_iff_count]
  intro name
  induction replaces with
  | here before after =>
      simp only [schemaNames_append, schemaNames, schemaNamesOf, List.count_append]
      omega
  | inside before after validator tag inner ih =>
      simp only [schemaNames_append, schemaNames, schemaNamesOf, Invocation.schemaNames,
        inner.schemaName?_eq, List.count_append] at ih ⊢
      omega

/-- The fields that are referred to stay if those of the two invocations are the same. -/
theorem referencedFields_eq (same : old.referencedFields = new.referencedFields)
    (replaces : Replaces old new params others) :
    referencedFields params = referencedFields others := by
  induction replaces with
  | here => simp only [referencedFields_append, referencedFields, referencedIn, same]
  | inside _ _ _ _ _ ih =>
      simp only [referencedFields_append, referencedFields, referencedIn,
        Invocation.referencedFields, ih]

/-- What is replaced occurs where the parameters do. -/
theorem exists_occurs_old (replaces : Replaces old new params others)
    (occurs : ∀ invocation, .validator invocation ∈ params → ∃ scopes,
      Occurs forest scopes invocation) :
    ∃ scopes, Occurs forest scopes old := by
  induction replaces with
  | here before after => exact occurs old (List.mem_append_right _ List.mem_cons_self)
  | inside before after validator tag _ ih =>
      obtain ⟨_, outer⟩ := occurs _ (List.mem_append_right _ List.mem_cons_self)
      exact ih fun _ member => outer.child member

/-- **What has been put in occurs** where the parameters do. -/
theorem exists_occurs_new (replaces : Replaces old new params others)
    (occurs : ∀ invocation, .validator invocation ∈ others → ∃ scopes,
      Occurs forest scopes invocation) :
    ∃ scopes, Occurs forest scopes new := by
  induction replaces with
  | here before after => exact occurs new (List.mem_append_right _ List.mem_cons_self)
  | inside before after validator tag _ ih =>
      obtain ⟨_, outer⟩ := occurs _ (List.mem_append_right _ List.mem_cons_self)
      exact ih fun _ member => outer.child member

/-- **The forests vary in the two invocations only.** -/
theorem allVary {variation : Invocation.Variation} (retags : ∀ tag, variation.retags tag tag)
    (exchanges : variation.exchanges old new) (replaces : Replaces old new params others) :
    AllVary variation params others := by
  have around {before after : List Param} {first second : Invocation}
      (varies : Invocation.Varies variation first second) :
      AllVary variation (before ++ .validator first :: after)
        (before ++ .validator second :: after) :=
    (AllVary.refl retags before).append (.cons (.invocation varies) (.refl retags after))
  induction replaces with
  | here => exact around (.exchanged exchanges)
  | inside _ _ _ tag _ ih => exact around (.kept ih (retags tag) fun _ => rfl)

end Param.Replaces

/-! ### What stands inside something that occurs -/

/-- What occurs in an invocation occurs where the invocation does. -/
theorem Param.Occurs.trans {forest : List Param} {outer : Invocation} {scopes around : List Scope}
    {invocation : Invocation} (inside : Occurs [.validator outer] scopes invocation)
    (occurs : Occurs forest around outer) : ∃ scopes, Occurs forest scopes invocation := by
  induction inside with
  | root member =>
      cases List.mem_singleton.mp member
      exact ⟨_, occurs⟩
  | field _ ih =>
      obtain ⟨_, there⟩ := ih
      exact ⟨_, there.field⟩
  | inside _ other member ih =>
      obtain ⟨_, there⟩ := ih
      exact ⟨_, .inside there other member⟩

/-- What occurs where nothing refers to a field refers to none. -/
theorem Param.Occurs.closed {forest : List Param} {scopes : List Scope} {invocation : Invocation}
    (occurs : Occurs forest scopes invocation) (closed : referencedFields forest = []) :
    invocation.referencedFields = [] := by
  have collects {params : List Param} {child : Invocation} (member : .validator child ∈ params) :
      child.referencedFields ⊆ referencedFields params :=
        subset_of_mem referencedIn (fun _ _ => rfl) member
  have subset : invocation.referencedFields ⊆ referencedFields forest :=
    occurs.subset (fun _ => collects) fun _ _ _ _ => collects
  rw [closed] at subset
  exact List.subset_nil.mp subset

/-- Inside an invocation without field operands there are none. -/
theorem Param.Occurs.referencedFields_eq_nil {outer : Invocation} {scopes : List Scope}
    {invocation : Invocation} (inside : Occurs [.validator outer] scopes invocation)
    (closed : outer.referencedFields = []) :
    invocation.referencedFields = [] :=
  inside.closed (by rw [referencedFields, referencedIn, closed]; rfl)

/-- What occurs in a chain with suffixes occurs in the chain, if it is no suffix. -/
theorem Param.Occurs.of_suffixed {chain : List Param} {suffixes : List Suffix} {scopes : List Scope}
    {invocation : Invocation}
    (occurs : Occurs (chain ++ suffixes.map Suffix.node) scopes invocation)
    (plain : invocation.isSuffix = false) : Occurs chain scopes invocation := by
  rcases occurs.of_append with inside | ⟨suffix, same⟩
  · exact inside
  · have suffixed := suffix.isSuffix_node
    rw [← same] at suffixed
    cases plain.symm.trans suffixed

end Schemata
