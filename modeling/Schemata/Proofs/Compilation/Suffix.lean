/-
**Suffixes behind a schema change nothing but the suffixes of its template.**

* `ofForest_append_suffixes`: the nodes of suffixes behind a forest compile to these suffixes;
* `ofText_append_suffixes`: so do suffixes behind the text of a schema.
-/

import Schemata.Proofs.Compilation.Handles
import Schemata.Proofs.Language.Suffix

namespace Schemata

namespace Suffix

/-! ### Nodes of suffixes -/

/-- The node of a suffix compiles to the suffix. -/
theorem compileSuffix_node (suffix : Suffix) : suffix.node.compileSuffix = .ok suffix := by
  cases suffix with
  | apart => rfl
  | collecting processor => cases processor <;> rfl

theorem isSuffix_node (suffix : Suffix) : suffix.node.isSuffix = true := by
  refine decide_eq_true ?_
  cases suffix with
  | collecting _ =>
      show "~error".toList.head? = some '~'
      rfl
  | apart => rfl

theorem mapM_compileSuffix_nodes (suffixes : List Suffix) :
    (suffixes.map node).mapM Param.compileSuffix = .ok suffixes := by
  induction suffixes with
  | nil => rfl
  | cons suffix rest ih =>
      rw [List.map_cons, List.mapM_cons, compileSuffix_node, ih]
      rfl

/-- Suffixes define no schemas. -/
theorem declareAll_nodes (suffixes : List Suffix) (names : List String) :
    Param.declareAll names (suffixes.map node) = .ok names := by
  induction suffixes with
  | nil => rfl
  | cons suffix rest ih =>
      have none : Param.declare names suffix.node = .ok names := by
        cases suffix with
        | apart => rfl
        | collecting processor => cases processor <;> rfl
      rw [List.map_cons, Param.declareAll, none]
      exact ih

/-- No node of a suffix goes on with a chain. -/
theorem head_nodes (suffixes : List Suffix) :
    ∀ param ∈ (suffixes.map node).head?, (!param.isSuffix) = false := by
  intro param front
  cases suffixes with
  | nil => cases front
  | cons suffix rest =>
      cases front
      rw [isSuffix_node]
      rfl

end Suffix

/-! ### Schemas with suffixes -/

/-- What may stand behind a first suffix may have suffixes behind it. -/
theorem Param.checkSuffixes_append {trailing : List Param}
    (checks : checkSuffixes trailing = .ok ()) (suffixes : List Suffix) :
    checkSuffixes (trailing ++ suffixes.map Suffix.node) = .ok () := by
  have nodes : ((suffixes.map Suffix.node).all isSuffix) = true := by
    rw [List.all_map, List.all_eq_true]
    exact fun suffix _ => suffix.isSuffix_node
  cases trailing with
  | nil =>
      cases suffixes with
      | nil => rfl
      | cons suffix rest =>
          rw [List.map_cons, List.all_cons, Bool.and_eq_true_iff] at nodes
          rw [List.nil_append, List.map_cons, Suffix.node, checkSuffixes, if_pos nodes.2]
  | cons param rest =>
      cases param with
      | validator first =>
          rw [checkSuffixes] at checks
          split at checks
          · rename_i others
            rw [List.cons_append, checkSuffixes, List.all_append, others, nodes]
            rfl
          · cases checks
      | _ => rfl

namespace Template

/-- **Suffixes behind a forest compile to the suffixes of its template.** -/
theorem ofForest_append_suffixes {forest : List Param} {template : Template}
    (compiles : ofForest forest = .ok template) (suffixes : List Suffix) :
    ofForest (forest ++ suffixes.map Suffix.node) =
      .ok { template with suffixes := template.suffixes ++ suffixes } := by
  obtain ⟨names, compiled⟩ := ofForest_eq_ok_iff.mp compiles
  have stops := Suffix.head_nodes suffixes
  have chain := LexicalUnit.takeWhile_append stops forest
  have trailing := LexicalUnit.dropWhile_append stops forest
  refine ofForest_eq_ok_iff.mpr ⟨names, ?_, ?_, ?_, ?_, ?_, compiled.bodies, ?_⟩
  · have nodes : Param.areInvocations (suffixes.map Suffix.node) = true := by
      rw [Param.areInvocations, List.all_map, List.all_eq_true]
      exact fun _ _ => rfl
    have invocations := compiled.invocations
    rw [Param.areInvocations] at *
    rw [List.all_append, invocations, nodes]
    rfl
  · rw [trailing]
    exact Param.checkSuffixes_append compiled.trailing suffixes
  · rw [chain]
    exact compiled.nonempty
  · rw [Param.declareAll_append, compiled.declares]
    exact Suffix.declareAll_nodes suffixes names
  · rw [chain]
    exact compiled.root
  · rw [trailing, List.mapM_append, compiled.suffixes, Suffix.mapM_compileSuffix_nodes]
    rfl

/-- **Suffixes behind the text of a schema compile to the suffixes of its template.** -/
theorem ofText_append_suffixes {text : String} {template : Template}
    (compiles : ofText text = .ok template) {suffixes : List Suffix}
    (writable : ∀ suffix ∈ suffixes, suffix.Writable) :
    ofText (text ++ Suffix.textOfAll suffixes) =
      .ok { template with suffixes := template.suffixes ++ suffixes } := by
  unfold ofText at compiles ⊢
  cases parses : Grammar.parse text with
  | error failure =>
      rw [parses] at compiles
      cases compiles
  | ok forest =>
      rw [parses] at compiles
      rw [Grammar.parse_append_suffixes parses writable]
      exact ofForest_append_suffixes compiles suffixes

end Template

end Schemata
