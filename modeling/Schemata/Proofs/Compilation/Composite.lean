/-
**The templates of containers that are written around chains.**

* `Template.OfChain`: a text without suffixes is a chain, and this is its template;
* `Part` is a field that an object is written around, and `Part.fields` are the compiled fields of
  some parts;
* `Part.ofText_objectText` and `Template.OfChain.ofText_arrayText`: the templates of an object and
  of an array hold the chains of their parts, with larger handles.
-/

import Schemata.Proofs.Compilation.Admission
import Schemata.Proofs.Compilation.Containers
import Schemata.Proofs.Compilation.Relocation

namespace Schemata

/-! ### Chains -/

/-- **A text is this chain, which is compiled to a template.** -/
structure Template.OfChain (text : String) (chain : List Param) (template : Template) : Prop where
  parses : Grammar.parse text = .ok chain
  formed : Param.Formed chain
  distinct : (Param.schemaNames chain).Nodup
  root : Param.compileChain (Param.schemaNames chain) [] chain = .ok template.root
  count : template.schemaCount = (Param.schemaNames chain).length
  bodies : ∀ {handle : Nat} {body : List Step}, template.bodies[handle]? = some body →
    (handle, body) ∈ Step.definitionsOfAll template.root

namespace Param.Formed

variable {chain : List Param} (formed : Formed chain)
include formed

/-- A well-formed chain holds no suffixes. -/
theorem isSuffix_eq_false {param : Param} (member : param ∈ chain) : param.isSuffix = false := by
  obtain ⟨invocation, rfl⟩ := exists_invocation formed.invocations member
  have form := formed.occurring (.root member)
  exact form.not_isSuffix

/-- Schemas of different names are declared. -/
theorem declareAll_eq_ok (distinct : (schemaNames chain).Nodup) :
    declareAll [] chain = .ok (schemaNames chain) := by
  cases declares : declareAll [] chain with
  | ok names => rw [declareAll_eq chain [] names declares, List.nil_append]
  | error error =>
      obtain ⟨name, -, twice⟩ := declareAll_error formed chain [] error
        (fun _ member => ⟨[], .root member⟩) declares
      exact absurd twice (List.nodup_iff_forall_not_duplicate.mp distinct name)

end Param.Formed

namespace Template

/-- A text without suffixes has a well-formed chain as its forest. -/
theorem formed_of_parse {text : String} {forest : List Param}
    (parses : Grammar.parse text = .ok forest)
    (unsuffixed : ∀ param ∈ forest, param.isSuffix = false) : Param.Formed forest := by
  obtain ⟨chain, suffixes, rfl, formed⟩ := Grammar.forest_of_parse parses
  cases suffixes with
  | nil => rwa [List.map_nil, List.append_nil]
  | cons suffix rest =>
      have plain := unsuffixed suffix.node (List.mem_append_right _ List.mem_cons_self)
      rw [suffix.isSuffix_node] at plain
      cases plain

/-- **A text whose template has no suffixes is a chain.** -/
theorem exists_ofChain {text : String} {template : Template} (compiles : ofText text = .ok template)
    (unsuffixed : template.suffixes = []) : ∃ chain, OfChain text chain template := by
  obtain ⟨forest, parses, made⟩ := bind_eq_ok.mp compiles
  have parses : Grammar.parse text = .ok forest := by
    cases parsed : Grammar.parse text <;> (rw [parsed] at parses; cases parses)
    rfl
  obtain ⟨names, compiled⟩ := ofForest_eq_ok_iff.mp made
  obtain ⟨chain, suffixes, rfl, formed⟩ := Grammar.forest_of_parse parses
  rw [formed.ofForest_eq] at made
  obtain ⟨declared, declares, inner⟩ := bind_eq_ok.mp made
  obtain ⟨root, rootCompiles, inner⟩ := bind_eq_ok.mp inner
  obtain ⟨bodies, found, same⟩ := bind_eq_ok.mp inner
  cases same
  cases unsuffixed
  have listed := Param.declareAll_eq chain [] declared declares
  rw [List.nil_append] at listed
  subst listed
  rw [List.map_nil, List.append_nil] at parses
  refine ⟨chain, parses, formed,
    (Param.declareAll_grows chain _ _ declares).distinct List.nodup_nil,
    rootCompiles, ?_, fun {handle body} here => ?_⟩
  · rw [schemaCount, (mapM_eq_ok found).1, List.length_zipIdx]
  · obtain ⟨definition, first, rfl⟩ := compiled.find?_of_body here
    have handled : definition.1 = handle := by simpa using List.find?_some first
    exact handled ▸ List.mem_of_find?_eq_some first

/-- **A chain whose steps compile has a template**, which holds the chains of all definitions. -/
theorem exists_template {text : String} {chain : List Param} {root : List Step}
    (parses : Grammar.parse text = .ok chain) (formed : Param.Formed chain)
    (distinct : (Param.schemaNames chain).Nodup)
    (compiled : Param.compileChain (Param.schemaNames chain) [] chain = .ok root) :
    ∃ template, ofText text = .ok template ∧ template.root = root ∧ template.suffixes = [] ∧
      ∀ definition ∈ Step.definitionsOfAll root,
        template.bodies[definition.1]? = some definition.2 := by
  obtain ⟨bodies, found⟩ := formed.exists_bodies distinct compiled
  have made : ofForest chain = .ok ⟨root, bodies, []⟩ := by
    have whole := formed.ofForest_eq []
    rw [List.map_nil, List.append_nil] at whole
    rw [whole]
    exact bind_eq_ok.mpr ⟨_, formed.declareAll_eq_ok distinct, bind_eq_ok.mpr ⟨_, compiled,
      bind_eq_ok.mpr ⟨_, found, rfl⟩⟩⟩
  obtain ⟨names, compiles⟩ := ofForest_eq_ok_iff.mp made
  exact ⟨_, (ofText_eq parses).trans made, rfl, rfl,
    fun definition member => compiles.body_of_definition member⟩

namespace OfChain

variable {text : String} {chain : List Param} {template : Template}

/-- The chain of a text may stand in another text. -/
theorem chainText (of : OfChain text chain template) : Grammar.ChainText text chain :=
  Grammar.chainText_of_parse of.parses fun _ member => of.formed.isSuffix_eq_false member

/-- The handle of a name is larger among more names. -/
theorem handle_append {names before after : List String}
    (distinct : (before ++ names ++ after).Nodup) {name : String} {handle : Nat}
    (handled : Param.handle names name = .ok handle) :
    Param.handle (before ++ names ++ after) name = .ok (before.length + handle) := by
  have place : names.findIdx? (· = name) = some handle := by
    unfold Param.handle at handled
    split at handled
    · rename_i found
      cases handled
      exact found
    · cases handled
  have member : name ∈ names := List.mem_of_getElem? (Param.getElem?_of_handle handled)
  have absent : before.findIdx? (· = name) = none := by
    refine List.findIdx?_eq_none_iff.mpr fun other there => decide_eq_false ?_
    rintro rfl
    exact (List.nodup_append.mp (List.nodup_append.mp distinct).1).2.2 other there other member rfl
  have found : (before ++ names ++ after).findIdx? (· = name) = some (before.length + handle) := by
    rw [List.append_assoc, List.findIdx?_append, absent, List.findIdx?_append, place]
    exact congrArg some (Nat.add_comm _ _)
  unfold Param.handle
  rw [found]

/-- **The chain of a text becomes a part of another schema**, behind the schemas that are defined
before it. -/
theorem compileChain (of : OfChain text chain template) {before after : List String}
    (distinct : (before ++ Param.schemaNames chain ++ after).Nodup) (scopes : List Scope) :
    Param.compileChain (before ++ Param.schemaNames chain ++ after) scopes chain =
      .ok (Step.renumberAll before.length template.root) :=
  Param.compileChain_within scopes (fun _ _ => handle_append distinct) chain [] _ of.root

end OfChain

end Template

/-! ### Fields -/

/-- **A field that an object is written around**: its name, and the text and the template of its
chain. -/
structure Part where
  name : String
  text : String
  template : Template

/-- The names of the schemas that a text defines. -/
def Grammar.schemaNames (text : String) : List String :=
  match parse text with
  | .ok forest => Param.schemaNames forest
  | .error _ => []

namespace Part

/-- The name of a part, and the text of its chain. -/
def field (part : Part) : String × String :=
  (part.name, part.text)

/-- **The fields of an object that is written around some parts**, behind some schemas. -/
def fields (referenced : List String) : (before : Nat) → List Part → List Field
  | _, [] => []
  | before, part :: rest =>
    .mk part.name (Step.renumberAll before part.template.root) (referenced.contains part.name) ::
      fields referenced (before + part.template.schemaCount) rest

end Part

section Compiled

variable {names declared referenced : List String} {scopes : List Scope} {rest : List Param}
  {first steps : List Step} {fields : List Field} {started : Nat}

/-- Commas between fields leave nothing. -/
theorem Param.compileFields_commas {separator : List Param}
    (separates : ∀ param ∈ separator, ∃ lexeme, param = .token lexeme ∧ lexeme.kind = .comma)
    (compiled : compileFields names scopes declared referenced started rest = .ok (first, fields)) :
    compileFields names scopes declared referenced started (separator ++ rest) =
      .ok (first, fields) := by
  induction separator with
  | nil => exact compiled
  | cons param separator ih =>
      obtain ⟨⟨lexeme, rfl, comma⟩, others⟩ := List.forall_mem_cons.mp separates
      have unnamed : (Param.token lexeme).fieldName? = none := by simp [fieldName?, comma]
      rw [List.cons_append, compileFields, unnamed]
      exact bind_eq_ok.mpr ⟨[], rfl, bind_eq_ok.mpr ⟨_, ih others, rfl⟩⟩

/-- The chain of a field comes before the fields behind it. -/
theorem Param.compileFields_chain {chain : List Param} (invocations : areInvocations chain = true) :
    ∀ {steps : List Step},
    compileChain names (⟨declared, started - 1⟩ :: scopes) chain = .ok steps →
    compileFields names scopes declared referenced started rest = .ok (first, fields) →
    compileFields names scopes declared referenced started (chain ++ rest) =
      .ok (steps ++ first, fields) := by
  induction chain with
  | nil =>
      intro steps chainCompiles restCompiles
      cases chainCompiles
      exact restCompiles
  | cons param chain ih =>
      intro steps chainCompiles restCompiles
      obtain ⟨invocation, rfl⟩ := exists_invocation invocations List.mem_cons_self
      rw [compileChain] at chainCompiles
      obtain ⟨one, firstCompiles, inner⟩ := bind_eq_ok.mp chainCompiles
      obtain ⟨others, laterCompile, same⟩ := bind_eq_ok.mp inner
      cases same
      have unnamed : (Param.validator invocation).fieldName? = none := rfl
      rw [List.cons_append, compileFields, unnamed, List.append_assoc]
      exact bind_eq_ok.mpr ⟨_, firstCompiles,
        bind_eq_ok.mpr ⟨_, ih invocations laterCompile restCompiles, rfl⟩⟩

end Compiled

/-- Fields of different names are declared. -/
theorem Param.AreFields.exists_declaredFields {params : List Param} (fields : AreFields params)
    (distinct : (fieldNames params).Nodup) : ∃ declared, declaredFields params = .ok declared := by
  cases declares : declaredFields params with
  | ok declared => exact ⟨declared, rfl⟩
  | error error =>
      obtain ⟨name, -, twice⟩ := fields.declaredFields_error declares
      exact absurd twice (List.nodup_iff_forall_not_duplicate.mp distinct name)

namespace Grammar.ListsFields

/-- Commas define no schemas. -/
theorem schemaNames_separator {separator : List Param}
    (separates : ∀ param ∈ separator, ∃ lexeme, param = .token lexeme ∧ lexeme.kind = .comma) :
    Param.schemaNames separator = [] := by
  induction separator with
  | nil => rfl
  | cons param separator ih =>
      obtain ⟨⟨lexeme, rfl, -⟩, others⟩ := List.forall_mem_cons.mp separates
      exact ih others

/-- **Fields define the schemas of their chains.** -/
theorem schemaNames_eq {fields : List (String × String)} {params : List Param}
    (lists : ListsFields fields params) :
    Param.schemaNames params = (fields.map fun field => schemaNames field.2).flatten := by
  induction lists with
  | nil => rfl
  | @field field fields separator forest params distance separates parses later ih =>
      rw [List.map_cons, List.flatten_cons, ← ih, Param.schemaNames_append,
        schemaNames_separator separates, List.nil_append, Param.schemaNames,
        Param.schemaNames_append,
        ← Param.relocateAll_eq_map, Param.schemaNames_relocateAll, schemaNames, parses]
      rfl

/-- Nodes that start no field have no field names. -/
theorem fieldNames_eq_nil {params : List Param} (none : ∀ param ∈ params, param.fieldName? = none) :
    Param.fieldNames params = [] :=
  List.filterMap_eq_nil_iff.mpr none

/-- **Fields have the names that they are written with.** -/
theorem fieldNames_eq {fields : List (String × String)} {params : List Param}
    (lists : ListsFields fields params) : Param.fieldNames params = fields.map Prod.fst := by
  induction lists with
  | nil => rfl
  | @field field fields separator forest params distance separates parses later ih =>
      obtain ⟨chain, suffixes, rfl, formed⟩ := forest_of_parse parses
      have commas : Param.fieldNames separator = [] := by
        refine fieldNames_eq_nil fun param member => ?_
        obtain ⟨lexeme, rfl, comma⟩ := separates param member
        simp [Param.fieldName?, comma]
      have invoked : Param.fieldNames
          ((chain ++ suffixes.map Suffix.node).map (Param.relocate (distance + ·))) =
          [] := by
        refine fieldNames_eq_nil fun shifted member => ?_
        obtain ⟨param, there, rfl⟩ := List.mem_map.mp member
        rw [Param.fieldName?_relocate]
        rcases List.mem_append.mp there with there | there
        · obtain ⟨invocation, rfl⟩ := Param.exists_invocation formed.invocations there
          rfl
        · obtain ⟨suffix, -, rfl⟩ := List.mem_map.mp there
          rfl
      unfold Param.fieldNames at *
      rw [List.filterMap_append, commas, List.nil_append, List.filterMap_cons,
        List.filterMap_append, invoked, ih]
      rfl

end Grammar.ListsFields

namespace Part

variable {parts : List Part}

/-- **The fields that are compiled hold the chains of the parts**, with larger handles. -/
theorem compileFields {names declared referenced : List String} (distinct : names.Nodup) :
    ∀ {parts : List Part} {params : List Param} {before : List String} {started : Nat},
    (∀ part ∈ parts, ∃ chain, Template.OfChain part.text chain part.template) →
    Grammar.ListsFields (parts.map field) params → names = before ++ Param.schemaNames params →
    Param.compileFields names [] declared referenced started params =
      .ok ([], fields referenced before.length parts) := by
  intro parts
  induction parts with
  | nil =>
      rintro params before started _ ⟨⟩ _
      rfl
  | cons part parts ih =>
      intro params before started chains lists listed
      obtain ⟨⟨chain, of⟩, others⟩ := List.forall_mem_cons.mp chains
      cases lists with
      | @field _ _ separator forest params distance separates parses later =>
          cases parses.symm.trans of.parses
          have whole : names = before ++ Param.schemaNames chain ++ Param.schemaNames params := by
            rw [listed, Param.schemaNames_append,
              Grammar.ListsFields.schemaNames_separator separates,
              List.nil_append, Param.schemaNames, Param.schemaNames_append,
              ← Param.relocateAll_eq_map, Param.schemaNames_relocateAll, List.append_assoc]
            rfl
          have rest :=
            @ih params (before ++ Param.schemaNames chain) (started + 1) others later whole
          rw [List.length_append, ← of.count] at rest
          have invocations :
              Param.areInvocations (chain.map (Param.relocate (distance + ·))) = true := by
            rw [← Param.relocateAll_eq_map, Param.areInvocations_relocateAll]
            exact of.formed.invocations
          have chainCompiles := of.compileChain (whole ▸ distinct) [⟨declared, started + 1 - 1⟩]
          rw [← whole, ← Param.compileChain_relocate (distance + ·),
            Param.relocateAll_eq_map] at chainCompiles
          have behind := Param.compileFields_chain invocations chainCompiles rest
          refine Param.compileFields_commas separates ?_
          rw [Param.compileFields]
          refine bind_eq_ok.mpr ⟨_, behind, ?_⟩
          rw [List.append_nil]
          rfl

/-- Parts define different schemas if those of any two of them differ. -/
theorem nodup_schemaNames
    (chains : ∀ part ∈ parts, ∃ chain, Template.OfChain part.text chain part.template)
    (disjoint : (parts.map fun part => Grammar.schemaNames part.text).Pairwise List.Disjoint) :
    (parts.map fun part => Grammar.schemaNames part.text).flatten.Nodup := by
  refine List.nodup_flatten.mpr ⟨fun listed member => ?_, disjoint⟩
  obtain ⟨part, there, rfl⟩ := List.mem_map.mp member
  obtain ⟨chain, of⟩ := chains part there
  rw [Grammar.schemaNames, of.parses]
  exact of.distinct

/-- **The template of an object** that is written around some parts. -/
theorem ofText_objectText (nonempty : parts ≠ [])
    (chains : ∀ part ∈ parts, ∃ chain, Template.OfChain part.text chain part.template)
    (distinct : (parts.map name).Nodup)
    (disjoint : (parts.map fun part => Grammar.schemaNames part.text).Pairwise List.Disjoint) :
    ∃ template referenced, Template.ofText (Grammar.objectText (parts.map field)) = .ok template ∧
      template.root = [.object (fields referenced 0 parts) none] ∧ template.suffixes = [] ∧
      ∀ definition ∈ Field.definitionsOfAll (fields referenced 0 parts),
        template.bodies[definition.1]? = some definition.2 := by
  obtain ⟨first, others, rfl⟩ := List.exists_cons_of_ne_nil nonempty
  have chainTexts : ∀ pair ∈ first.field :: others.map field, ∃ forest,
      Grammar.parse pair.2 = .ok forest ∧ Grammar.ChainText pair.2 forest := by
    intro pair member
    rw [← List.map_cons] at member
    obtain ⟨part, there, rfl⟩ := List.mem_map.mp member
    obtain ⟨chain, of⟩ := chains part there
    exact ⟨chain, of.parses, of.chainText⟩
  obtain ⟨params, parses, lists⟩ := Grammar.parse_objectText chainTexts
  have unsuffixed : (Param.validator (.mk "object" params none)).isSuffix = false := by
    simp [Param.isSuffix, Invocation.isSuffix, Invocation.name]
  have formed := Template.formed_of_parse parses fun param member => by
    rw [List.mem_singleton.mp member, unsuffixed]
  have names :
      Param.schemaNames [.validator (.mk "object" params none)] = Param.schemaNames params := by
    simp [Param.schemaNames, Param.schemaNamesOf, Invocation.schemaNames]
  have schemas : (Param.schemaNames params).Nodup := by
    rw [lists.schemaNames_eq, ← List.map_cons, List.map_map]
    exact nodup_schemaNames chains disjoint
  have fieldNames : (Param.fieldNames params).Nodup := by
    rw [lists.fieldNames_eq, ← List.map_cons, List.map_map]
    exact distinct
  have areFields := (formed.occurring (.root List.mem_cons_self)).shapes.1 rfl
  obtain ⟨declared, declares⟩ := areFields.exists_declaredFields fieldNames
  have compiled : Param.compileChain (Param.schemaNames params) []
      [.validator (.mk "object" params none)] =
        .ok [.object (fields (Param.referencedFields params) 0 (first :: others)) none] := by
    have inside : Param.compileFields (Param.schemaNames params) [] declared
        (Param.referencedFields params) 0 params =
          .ok ([], fields (Param.referencedFields params) 0 (first :: others)) :=
      compileFields schemas chains lists (List.nil_append _).symm
    have object :
        Invocation.compile (Param.schemaNames params) [] (.mk "object" params none) = .ok _ :=
      Invocation.Compiles.compile (.object declares inside)
    rw [Param.compileChain, Param.compileOne, Param.compileChain, object]
    rfl
  rw [← names] at schemas compiled
  obtain ⟨template, compiles, root, plain, bodies⟩ :=
    Template.exists_template parses formed schemas compiled
  refine ⟨template, _, compiles, root, plain, fun definition member => bodies definition ?_⟩
  rw [Step.definitionsOfAll, Step.definitions]
  exact List.mem_append_left _ member

end Part

namespace Template

/-- **The template of an array** that is written around a chain. -/
theorem OfChain.ofText_arrayText {text : String} {chain : List Param} {template : Template}
    (of : OfChain text chain template) :
    ∃ array, ofText (Grammar.arrayText text) = .ok array ∧
      array.root = [.array (Step.renumberAll 0 template.root) none] ∧ array.suffixes = [] ∧
      ∀ definition ∈ Step.definitionsOfAll (Step.renumberAll 0 template.root),
        array.bodies[definition.1]? = some definition.2 := by
  obtain ⟨distance, parses⟩ := Grammar.parse_arrayText of.chainText
  rw [← Param.relocateAll_eq_map] at parses
  have formed := formed_of_parse parses fun param member => by
    rw [List.mem_singleton.mp member]
    simp [Param.isSuffix, Invocation.isSuffix, Invocation.name]
  have names :
      Param.schemaNames [.validator (.mk "array" (Param.relocateAll (distance + ·) chain) none)] =
      Param.schemaNames chain := by
    simp [Param.schemaNames, Param.schemaNamesOf, Invocation.schemaNames,
      Param.schemaNames_relocateAll]
  have compiled : Param.compileChain (Param.schemaNames chain) []
      [.validator (.mk "array" (Param.relocateAll (distance + ·) chain) none)] =
        .ok [.array (Step.renumberAll 0 template.root) none] := by
    have invocations :=
      (Param.areInvocations_relocateAll (distance + ·) chain).trans of.formed.invocations
    have distinct : ([] ++ Param.schemaNames chain ++ []).Nodup := by
      rw [List.append_nil]
      exact of.distinct
    have inside := of.compileChain distinct []
    rw [List.append_nil, List.nil_append, ← Param.compileChain_relocate (distance + ·)] at inside
    have array : Invocation.compile (Param.schemaNames chain) []
        (.mk "array" (Param.relocateAll (distance + ·) chain) none) = .ok _ :=
      Invocation.Compiles.compile (.array invocations inside)
    rw [Param.compileChain, Param.compileOne, Param.compileChain, array]
    rfl
  rw [← names] at compiled
  obtain ⟨array, compiles, root, plain, bodies⟩ :=
    exists_template parses formed (names ▸ of.distinct) compiled
  refine ⟨array, compiles, root, plain, fun definition member => bodies definition ?_⟩
  rw [Step.definitionsOfAll, Step.definitions]
  exact List.mem_append_left _ member

end Template

end Schemata
