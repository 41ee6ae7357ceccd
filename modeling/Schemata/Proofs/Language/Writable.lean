/-
**Which forests have texts.**

A forest without places has a text if its parts can be written by lexemes of whole units, and these
parts may be written apart from one another. So a part may be put in the place of another one, and
fields in another order.

* `Lexeme.Whole` says that lexemes are those of whole units, without their places;
* `Invocation.Writable`, `Param.WritableChain` and `Param.WritableFields` say that nodes are written
  by such lexemes, and `writableChain_iff` and `writableFields_iff` take them apart;
* `Param.Permutes.writableFields` and `Invocation.WritableHead.reference`: fields can be written in
  any order, and a reference wherever the definition can;
* `Param.WritableForest.exists_text`: a forest that can be written is that of a text;
* `Param.AllVary.writable`: so is one that varies from it, if what is exchanged can be written.
-/

import Schemata.Proofs.Compilation.Counterpart
import Schemata.Proofs.Compilation.Listing
import Schemata.Proofs.Compilation.Replacement
import Schemata.Proofs.Language.Assembly
import Schemata.Proofs.Language.Written

namespace Schemata

/-! ### Whole units -/

namespace Lexeme

/-- **Some lexemes are those of whole units**, as they are classified, without their places. -/
structure Whole (lexemes : List Lexeme) : Prop where
  canonical : ∀ lexeme ∈ lexemes, lexeme.Canonical
  unplaced : ∀ lexeme ∈ lexemes, lexeme.offset = 0
  spelled : Spelled (lexemes.map head)

/-- The first of some lexemes is the first one of a unit. -/
def Starts (lexemes : List Lexeme) : Prop :=
  ∃ first ∈ lexemes.head?, startsUnit first.kind = true

theorem Starts.append {lexemes : List Lexeme} (starts : Starts lexemes) (others : List Lexeme) :
    Starts (lexemes ++ others) := by
  obtain ⟨first, front, start⟩ := starts
  exact ⟨first, List.mem_head?_append_of_mem_head? front, start⟩

namespace Whole

variable {first second : List Lexeme}

theorem nil : Whole [] :=
  ⟨by simp, by simp, .nil⟩

theorem append (whole : Whole first) (later : Whole second) : Whole (first ++ second) where
  canonical := List.forall_mem_append.mpr ⟨whole.canonical, later.canonical⟩
  unplaced := List.forall_mem_append.mpr ⟨whole.unplaced, later.unplaced⟩
  spelled := by
    rw [List.map_append]
    exact whole.spelled.append later.spelled

/-- Whole units may be cut between two of them. -/
theorem cut (whole : Whole (first ++ second))
    (apart : (∀ last ∈ first.getLast?, endsUnit last.kind = true) ∨
      ∀ next ∈ second.head?, startsUnit next.kind = true) : Whole first ∧ Whole second := by
  obtain ⟨canonical, canonicalOther⟩ := List.forall_mem_append.mp whole.canonical
  obtain ⟨unplaced, unplacedOther⟩ := List.forall_mem_append.mp whole.unplaced
  have spelled := whole.spelled
  rw [List.map_append] at spelled
  obtain ⟨front, behind⟩ := spelled.cut fun last ends next starts => by
    rw [List.getLast?_map] at ends
    rw [List.head?_map] at starts
    obtain ⟨last, final, rfl⟩ := Option.map_eq_some_iff.mp ends
    obtain ⟨next, front, rfl⟩ := Option.map_eq_some_iff.mp starts
    rintro ⟨open', inside⟩
    rcases apart with apart | apart
    · exact absurd ((apart last final).symm.trans open') (by decide)
    · exact absurd ((apart next front).symm.trans inside) (by decide)
  exact ⟨⟨canonical, unplaced, front⟩, canonicalOther, unplacedOther, behind⟩

/-- Units may be cut before one. -/
theorem cut_before (whole : Whole (first ++ second)) (starts : Starts second) :
    Whole first ∧ Whole second := by
  obtain ⟨next, front, start⟩ := starts
  refine whole.cut (.inr fun other here => ?_)
  cases front.symm.trans here
  exact start

/-- Units may be cut behind a lexeme that ends one. -/
theorem cut_behind {last : Lexeme} (whole : Whole (first ++ last :: second))
    (ends : endsUnit last.kind = true) :
    Whole (first ++ [last]) ∧ Whole second := by
  have joined : first ++ last :: second = (first ++ [last]) ++ second := by simp
  rw [joined] at whole
  exact whole.cut (.inl (by simpa using ends))

/-- The lexeme of a unit that has one. -/
theorem singleton {unit : LexicalUnit} {lexeme : Lexeme}
    (read : LexicalUnit.next unit.spelling = .ok (unit, []))
    (classifies : ofUnit 0 unit = .ok [lexeme])
    (canonical : lexeme.Canonical) (unplaced : lexeme.offset = 0) : Whole [lexeme] where
  canonical := List.forall_mem_singleton.mpr canonical
  unplaced := List.forall_mem_singleton.mpr unplaced
  spelled := @Spelled.unit unit 0 _ [] read classifies .nil

theorem comma : Whole [ofKind .comma "," 0] :=
  @singleton (.symbol ',') _ rfl rfl (canonical_ofKind _ _ (by decide)) rfl

theorem leftParen : Whole [ofKind .leftParen "(" 0] :=
  @singleton (.symbol '(') _ rfl rfl (canonical_ofKind _ _ (by decide)) rfl

theorem rightParen : Whole [ofKind .rightParen ")" 0] :=
  @singleton (.symbol ')') _ rfl rfl (canonical_ofKind _ _ (by decide)) rfl

theorem object : Whole [ofKind .object "object" 0] :=
  @singleton (.word "object".toList) _ rfl rfl (canonical_ofEntry (by decide) 0) rfl

/-- There is one comma. -/
theorem eq_of_comma {lexeme : Lexeme} (whole : Whole [lexeme]) (comma : lexeme.kind = .comma) :
    lexeme = ofKind .comma "," 0 := by
  have carries := (whole.canonical lexeme List.mem_cons_self).carries
  have offset := whole.unplaced lexeme List.mem_cons_self
  have spelled := whole.spelled
  obtain ⟨kind, value, carried, place⟩ := lexeme
  cases comma
  cases carries
  cases offset
  cases (spelled.eq_of_comma : value = ",")
  rfl

end Whole

end Lexeme

open Grammar
open Lexeme (Whole Starts endsUnit startsUnit)

/-! ### Where nodes start -/

namespace Grammar

theorem OptionalColon.starts {colon rest : List Lexeme} (separates : OptionalColon colon)
    (starts : Starts rest) :
    Starts (colon ++ rest) := by
  cases separates with
  | absent => exact starts
  | colon isColon => exact ⟨_, rfl, by rw [isColon]; rfl⟩

theorem RendersHead.starts {name : String} {params : List Param} {taken : List Lexeme}
    (head : RendersHead name params taken) : Starts taken := by
  cases head with
  | bare kind => exact ⟨_, rfl, by rcases kind with kind | kind | kind <;> rw [kind] <;> rfl⟩
  | comparison kind => exact ⟨_, rfl, by rcases kind with kind | kind <;> rw [kind] <;> rfl⟩
  | object kind | emptyArray kind | array kind | matching kind | equality kind | membership kind
  | definition kind | reference kind => exact ⟨_, rfl, by rw [kind]; rfl⟩

theorem RendersEntry.starts {invocation : Invocation} {taken : List Lexeme}
    (entry : RendersEntry invocation taken) : Starts taken := by
  obtain ⟨head, -⟩ := entry
  exact head.starts.append _

theorem RendersChain.starts {chain : List Param} {taken : List Lexeme}
    (renders : RendersChain chain taken) :
    Starts taken := by
  cases renders with
  | last entry => exact entry.starts
  | more entry => exact entry.starts.append _

end Grammar

theorem Grammar.RendersName.isSome_fieldName? {name : Param} {taken : List Lexeme}
    (renders : RendersName name taken) : name.fieldName?.isSome := by
  cases renders with
  | text => rfl
  | @token lexeme names =>
      have other : lexeme.kind ≠ .comma := by
        rintro comma
        rw [comma] at names
        revert names
        decide
      rw [Param.fieldName?, if_neg other]
      rfl

/-! ### Nodes that can be written -/

/-- A tag can be written. -/
def ErrorTag.Writable (tag : Option ErrorTag) : Prop :=
  ∃ taken, RendersTag tag taken ∧ Whole taken

/-- A keyword can be written with these parameters. -/
def Invocation.WritableHead (validator : String) (params : List Param) : Prop :=
  ∃ taken, RendersHead validator params taken ∧ Whole taken

/-- **An invocation can be written.** -/
def Invocation.Writable (invocation : Invocation) : Prop :=
  ∃ taken, RendersEntry invocation taken ∧ Whole taken

/-- **A chain can be written.** -/
def Param.WritableChain (chain : List Param) : Prop :=
  ∃ taken, RendersChain chain taken ∧ Whole taken

/-- The name of a field can be written. -/
def Param.WritableName (name : Param) : Prop :=
  ∃ taken, RendersName name taken ∧ Whole taken

/-- **Fields can be written.** -/
def Param.WritableFields (params : List Param) : Prop :=
  ∃ taken, RendersFields params taken ∧ Whole taken

/-- **An invocation can be written if its head and its tag can.** -/
theorem Invocation.writable_iff {validator : String} {params : List Param} {tag : Option ErrorTag} :
    Writable (.mk validator params tag) ↔
      WritableHead validator params ∧ ErrorTag.Writable tag := by
  constructor
  · rintro ⟨_, @⟨_, _, _, taken, behind, head, tagged⟩, whole⟩
    have starts : behind = [] ∨ Starts behind := by
      cases tagged with
      | untagged => exact .inl rfl
      | positional opens => exact .inr ⟨_, rfl, by rw [opens]; rfl⟩
      | literal opens => exact .inr ⟨_, rfl, by rw [opens]; rfl⟩
    rcases starts with rfl | starts
    · rw [List.append_nil] at whole
      exact ⟨⟨taken, head, whole⟩, [], tagged, .nil⟩
    · obtain ⟨first, second⟩ := whole.cut_before starts
      exact ⟨⟨taken, head, first⟩, behind, tagged, second⟩
  · rintro ⟨⟨taken, head, first⟩, behind, tagged, second⟩
    exact ⟨_, .mk head tagged, first.append second⟩

namespace Param

/-- **A chain can be written if it is not empty and its invocations can.** -/
theorem writableChain_iff {chain : List Param} : WritableChain chain ↔
    chain ≠ [] ∧ ∀ param ∈ chain, ∃ invocation, param = .validator invocation ∧
      invocation.Writable := by
  constructor
  · rintro ⟨taken, renders, whole⟩
    -- the derivation is followed with its entries written apart
    suffices every : ∀ param ∈ chain, ∃ invocation, param = .validator invocation ∧
        invocation.Writable from
      ⟨by cases renders <;> simp, every⟩
    induction chain generalizing taken with
    | nil => simp
    | cons param rest ih =>
        cases renders with
        | last entry => exact List.forall_mem_singleton.mpr ⟨_, rfl, _, entry, whole⟩
        | more entry separates later =>
            obtain ⟨first, others⟩ := whole.cut_before (separates.starts later.starts)
            exact List.forall_mem_cons.mpr ⟨⟨_, rfl, _, entry, first⟩,
              ih _ later (others.cut_before later.starts).2⟩
  · rintro ⟨nonempty, every⟩
    induction chain with
    | nil => exact absurd rfl nonempty
    | cons param rest ih =>
        obtain ⟨⟨invocation, rfl, taken, entry, whole⟩, others⟩ := List.forall_mem_cons.mp every
        cases rest with
        | nil => exact ⟨taken, .last entry, whole⟩
        | cons next more =>
            obtain ⟨behind, later, wholeOther⟩ := ih (List.cons_ne_nil _ _) others
            exact ⟨_, .more entry .absent later, whole.append wholeOther⟩

/-- A field can be written. -/
def WritableField (field : Param × List Param) : Prop :=
  WritableName field.1 ∧ WritableChain field.2

theorem WritableField.isField {field : Param × List Param} (writable : WritableField field) :
    IsField field := by
  obtain ⟨⟨_, renders, _⟩, chain⟩ := writable
  obtain ⟨nonempty, every⟩ := writableChain_iff.mp chain
  refine ⟨renders.isSome_fieldName?, nonempty, List.all_eq_true.mpr fun param member => ?_⟩
  obtain ⟨_, rfl, -⟩ := every param member
  rfl

theorem writableField_of_renders {start : Param} {chain : List Param} {taken : List Lexeme}
    (field : RendersField start chain taken) (whole : Whole taken) :
    WritableField (start, chain) := by
  obtain ⟨name, separates, renders⟩ := field
  obtain ⟨first, others⟩ := whole.cut_before (separates.starts renders.starts)
  exact ⟨⟨_, name, first⟩, _, renders, (others.cut_before renders.starts).2⟩

theorem WritableField.exists_renders {field : Param × List Param} (writable : WritableField field) :
    ∃ taken, RendersField field.1 field.2 taken ∧ Whole taken := by
  obtain ⟨⟨taken, name, first⟩, rest, renders, second⟩ := writable
  exact ⟨_, .mk name .absent renders, first.append second⟩

theorem exists_lists {params : List Param} {taken : List Lexeme} :
    RendersFields params taken → Whole taken →
    ∃ fields, Lists fields params ∧ ∀ field ∈ fields, WritableField field
  | .empty, _ => ⟨[], .empty, by simp⟩
  | .last field, whole => by
      have writable := writableField_of_renders field whole
      exact ⟨[(_, _)], .last writable.isField, List.forall_mem_singleton.mpr writable⟩
  | @RendersFields.more start chain params comma taken rest field separates later, whole => by
      obtain ⟨front, behind⟩ := whole.cut_behind (by rw [separates]; rfl)
      obtain ⟨here, alone⟩ := front.cut_before ⟨comma, rfl, by rw [separates]; rfl⟩
      obtain ⟨fields, lists, every⟩ := exists_lists later behind
      have writable := writableField_of_renders field here
      rw [alone.eq_of_comma separates]
      exact ⟨(start, chain) :: fields, .more writable.isField lists,
        List.forall_mem_cons.mpr ⟨writable, every⟩⟩

/-- **Fields can be written if they are listed and each of them can.** -/
theorem writableFields_iff {params : List Param} :
    WritableFields params ↔ ∃ fields, Lists fields params ∧ ∀ field ∈ fields,
      WritableField field := by
  constructor
  · rintro ⟨taken, renders, whole⟩
    exact exists_lists renders whole
  · rintro ⟨fields, lists, every⟩
    induction lists with
    | empty => exact ⟨[], .empty, .nil⟩
    | last =>
        obtain ⟨taken, renders, whole⟩ := (every _ List.mem_cons_self).exists_renders
        exact ⟨taken, .last renders, whole⟩
    | more _ _ ih =>
        obtain ⟨here, others⟩ := List.forall_mem_cons.mp every
        obtain ⟨taken, renders, whole⟩ := here.exists_renders
        obtain ⟨rest, later, wholeOther⟩ := ih others
        exact ⟨_, .more renders rfl later, whole.append (Whole.comma.append wholeOther)⟩

/-- **What stands in an object that can be written can be written**: invocations, and the names of
fields. -/
theorem WritableFields.of_mem {params : List Param} (writable : WritableFields params)
    {param : Param} (member : param ∈ params) :
    (∀ invocation, param = .validator invocation → invocation.Writable) ∧
      (param.fieldName?.isSome → WritableName param) := by
  obtain ⟨fields, lists, every⟩ := writableFields_iff.mp writable
  obtain rfl | ⟨field, listed, rfl | inside⟩ := lists.exists_of_mem member
  · exact ⟨nofun, nofun⟩
  · obtain ⟨name, -⟩ := every field listed
    obtain ⟨_, renders, _⟩ := name
    refine ⟨?_, fun _ => ⟨_, renders, ‹_›⟩⟩
    intro invocation same
    have named := renders.isSome_fieldName?
    rw [same] at named
    cases named
  · obtain ⟨-, chain⟩ := every field listed
    obtain ⟨_, rfl, invocation⟩ := (writableChain_iff.mp chain).2 _ inside
    exact ⟨fun _ same => Param.validator.inj same ▸ invocation, nofun⟩

/-- **Fields can be written in any order.** -/
theorem Permutes.writableFields {params others : List Param} (permutes : Permutes params others)
    (writable : WritableFields params) : WritableFields others := by
  obtain ⟨fields, permuted, lists, listsOther, perm⟩ := permutes
  refine writableFields_iff.mpr ⟨permuted, listsOther, fun field listed => ?_⟩
  obtain ⟨isField, inside⟩ := lists.mem_of_mem (perm.symm.subset listed)
  obtain ⟨here, chain⟩ := List.cons_subset.mp inside
  refine ⟨(writable.of_mem here).2 isField.named,
    writableChain_iff.mpr ⟨isField.chain.nonempty, ?_⟩⟩
  intro param member
  obtain ⟨invocation, rfl⟩ := exists_invocation isField.chain.invocations member
  exact ⟨invocation, rfl, (writable.of_mem (chain member)).1 invocation rfl⟩

end Param

/-! ### Invocations in a node -/

theorem Grammar.RendersName.plain {name : Param} {taken : List Lexeme}
    (renders : RendersName name taken) :
    name.invocation? = none := by
  cases renders <;> rfl

theorem Grammar.RendersValue.plain {value : Param} {taken : List Lexeme}
    (renders : RendersValue value taken) :
    value.invocation? = none := by
  cases renders <;> rfl

theorem Grammar.RendersValues.plain {values : List Param} {taken : List Lexeme}
    (renders : RendersValues values taken) : ∀ value ∈ values, value.invocation? = none := by
  induction renders with
  | last value => exact List.forall_mem_singleton.mpr value.plain
  | more value _ _ ih =>
      exact List.forall_mem_cons.mpr ⟨value.plain, List.forall_mem_cons.mpr ⟨rfl, ih⟩⟩

/-- The lexemes in parentheses are whole units, and others may be put there. -/
theorem Grammar.Enclosed.whole {inside taken : List Lexeme} (enclosed : Enclosed inside taken)
    (front : List Lexeme) (whole : Whole (front ++ taken)) : Whole inside ∧ ∀ others, Whole others →
      ∃ further, Enclosed others further ∧ Whole (front ++ further) := by
  obtain @⟨left, right, opens, closes⟩ := enclosed
  obtain ⟨before, behind⟩ := whole.cut_behind (by rw [opens]; rfl)
  obtain ⟨within, after⟩ := behind.cut_before ⟨right, rfl, by rw [closes]; rfl⟩
  refine ⟨within, fun others wholeOther => ⟨_, .mk opens closes, ?_⟩⟩
  have joined := before.append (wholeOther.append after)
  rwa [List.append_assoc] at joined

namespace Invocation

variable {variation : Invocation.Variation}

/-- What stands in a head that can be written can be written. -/
theorem WritableHead.of_mem {validator : String} {params : List Param}
    (writable : WritableHead validator params) {invocation : Invocation}
    (member : .validator invocation ∈ params) : invocation.Writable := by
  have inChain {chain : List Param} (writable : Param.WritableChain chain)
      (member : .validator invocation ∈ chain) : invocation.Writable := by
    obtain ⟨_, same, writable⟩ := (Param.writableChain_iff.mp writable).2 _ member
    cases same
    exact writable
  obtain ⟨taken, head, whole⟩ := writable
  cases head with
  | bare | emptyArray | comparison | matching | reference => simp at member
  | @object lexeme params inside taken _ renders enclosed =>
      have fields : Param.WritableFields _ := ⟨_, renders, (enclosed.whole [lexeme] whole).1⟩
      exact (fields.of_mem member).1 invocation rfl
  | @array lexeme chain inside taken _ renders enclosed =>
      exact inChain ⟨_, renders, (enclosed.whole [lexeme] whole).1⟩ member
  | @equality lexeme value _ _ _ renders =>
      have plain := renders.plain
      rw [← List.mem_singleton.mp member] at plain
      cases plain
  | membership _ renders => cases renders.plain _ member
  | @definition lexeme name body inside taken _ _ renders enclosed =>
      rcases List.mem_cons.mp member with same | member
      · cases same
      · exact inChain ⟨_, renders, (enclosed.whole [lexeme, name] whole).1⟩ member

end Invocation

/-! ### Objects, definitions and references -/

/-- The keyword of a head has the kind of its name. -/
theorem Grammar.RendersHead.exists_keyword {name : String} {params : List Param}
    {taken : List Lexeme} (head : RendersHead name params taken) (whole : Whole taken)
    {kind : TokenKind}
    (entry : (kind, name) ∈ Lexeme.keywords) : ∃ lexeme ∈ taken.head?, lexeme.kind = kind := by
  have named {lexeme : Lexeme} {rest : List Lexeme} (whole : Whole (lexeme :: rest))
      (entry : (kind, lexeme.value) ∈ Lexeme.keywords) (keyword : lexeme.kind.isKeyword = true) :
      ∃ first ∈ (lexeme :: rest).head?, first.kind = kind :=
    ⟨lexeme, rfl, (whole.canonical lexeme List.mem_cons_self).kind_eq keyword entry⟩
  cases head with
  | bare kind =>
      exact named whole entry (by rcases kind with kind | kind | kind <;> rw [kind] <;> rfl)
  | comparison kind =>
      exact named whole entry (by rcases kind with kind | kind <;> rw [kind] <;> rfl)
  | object kind | emptyArray kind | array kind | matching kind | equality kind | membership kind
  | definition kind | reference kind => exact named whole entry (by rw [kind]; rfl)

namespace Invocation

/-- **An object can be written if its fields can.** -/
theorem writableHead_object_iff {params : List Param} :
    WritableHead "object" params ↔ Param.WritableFields params := by
  constructor
  · rintro ⟨taken, head, whole⟩
    have entry : (TokenKind.object, "object") ∈ Lexeme.keywords := by decide
    obtain ⟨first, front, object⟩ := head.exists_keyword whole entry
    generalize "object" = validator at head
    cases head with
    | bare => exact ⟨[], .empty, .nil⟩
    | @object lexeme _ _ _ _ renders enclosed =>
        exact ⟨_, renders, (enclosed.whole [lexeme] whole).1⟩
    | comparison kind =>
        cases front
        rcases kind with kind | kind <;> cases object.symm.trans kind
    | emptyArray kind | array kind | matching kind | equality kind | membership kind
    | definition kind
    | reference kind =>
        cases front
        cases object.symm.trans kind
  · rintro ⟨inside, fields, whole⟩
    have head : RendersHead "object" params
        (.ofKind .object "object" 0 :: .ofKind .leftParen "(" 0 ::
          (inside ++ [Lexeme.ofKind .rightParen ")" 0])) :=
      @RendersHead.object (.ofKind .object "object" 0) _ _ _ rfl fields (.mk rfl rfl)
    exact ⟨_, head, Whole.object.append (Whole.leftParen.append (whole.append Whole.rightParen))⟩

/-- **What can be defined can be referred to.** -/
theorem WritableHead.reference {name : Lexeme} {body : List Param}
    (writable : WritableHead "define" (.token name :: body)) :
    WritableHead "reference" [.token name] := by
  obtain ⟨taken, head, whole⟩ := writable
  have entry : (TokenKind.define, "define") ∈ Lexeme.keywords := by decide
  obtain ⟨first, front, define⟩ := head.exists_keyword whole entry
  generalize "define" = validator at head
  generalize params : Param.token name :: body = others at head
  cases head with
  | bare kind => cases params
  | comparison kind => cases params
  | object kind | emptyArray kind | array kind | matching kind | equality kind | membership kind
  | reference kind =>
      cases front
      cases define.symm.trans kind
  | @definition lexeme _ _ _ taken kind isName =>
      cases params
      have canonical := whole.canonical name (by simp)
      have unplaced := whole.unplaced name (by simp)
      have spelled := whole.spelled
      rw [List.map_cons, List.map_cons, Lexeme.head, Lexeme.head, kind, isName] at spelled
      have reference :
          RendersHead "reference" [.token name] [.ofKind .reference "reference" 0, name] :=
        @RendersHead.reference (.ofKind .reference "reference" 0) name rfl isName
      refine ⟨_, reference, ?_, ?_, ?_⟩
      · have keyword := Lexeme.canonical_ofEntry
          (show (TokenKind.reference, "reference") ∈ Lexeme.keywords by decide) 0
        exact List.forall_mem_cons.mpr ⟨keyword, List.forall_mem_singleton.mpr canonical⟩
      · exact List.forall_mem_cons.mpr ⟨rfl, List.forall_mem_singleton.mpr unplaced⟩
      · rw [List.map_cons, List.map_cons, Lexeme.head, Lexeme.head, isName]
        exact spelled.reference_of_define

end Invocation

/-! ### Nodes that vary -/

section Vary

variable {variation : Invocation.Variation}

/-- **What is exchanged can be written** in the place of something that can, and tags stay. -/
structure Invocation.Variation.KeepsWritable (variation : Invocation.Variation) : Prop where
  exchanges : ∀ first second, variation.exchanges first second → first.Writable → second.Writable
  retags : ∀ tag other, variation.retags tag other → tag = other

namespace Param

variable {params others : List Param} (vary : AllVary variation params others)
  (inside : ∀ first, .validator first ∈ params → ∀ second,
    Invocation.Varies variation first second → first.Writable → second.Writable)
include vary inside

/-- A chain can be written if its invocations can. -/
theorem WritableChain.varies (writable : WritableChain params) : WritableChain others := by
  obtain ⟨nonempty, every⟩ := writableChain_iff.mp writable
  refine writableChain_iff.mpr
    ⟨fun none => nonempty (vary.eq_nil_iff.mpr none), fun other member => ?_⟩
  obtain ⟨param, listed, varies⟩ := vary.exists_of_mem_right member
  obtain ⟨first, rfl, firstWritable⟩ := every param listed
  cases varies with
  | invocation varies => exact ⟨_, rfl, inside first listed _ varies firstWritable⟩
  | plain plain => cases plain

/-- Fields can be written if their invocations can. -/
theorem Lists.varies {fields : List (Param × List Param)} (lists : Lists fields params)
    (every : ∀ field ∈ fields, WritableField field) :
    ∃ further, Lists further others ∧ ∀ field ∈ further, WritableField field := by
  induction lists generalizing others with
  | empty =>
      cases vary
      exact ⟨[], .empty, by simp⟩
  | @last field =>
      obtain ⟨⟨_, renders, whole⟩, chain⟩ := every field List.mem_cons_self
      cases vary with
      | @cons _ _ _ others here later =>
          cases here.eq_of_plain renders.plain
          have further := chain.varies later fun first member =>
            inside first (List.mem_cons_of_mem _ member)
          have writable : WritableField (field.1, others) := ⟨⟨_, renders, whole⟩, further⟩
          exact ⟨_, .last writable.isField, List.forall_mem_singleton.mpr writable⟩
  | @more field _ _ _ _ ih =>
      obtain ⟨⟨⟨_, renders, whole⟩, chain⟩, every⟩ := List.forall_mem_cons.mp every
      cases vary with
      | cons here later =>
          cases here.eq_of_plain renders.plain
          obtain ⟨front, _, rfl, frontVary, behind⟩ := later.exists_of_append
          cases behind with
          | cons comma rest =>
              cases comma.eq_of_plain rfl
              have further := chain.varies frontVary fun first member =>
                inside first (List.mem_cons_of_mem _ (List.mem_append_left _ member))
              obtain ⟨others, listed, restEvery⟩ := ih rest
                (fun first member => inside first (List.mem_cons_of_mem _
                  (List.mem_append_right _ (List.mem_cons_of_mem _ member)))) every
              have writable : WritableField (field.1, front) := ⟨⟨_, renders, whole⟩, further⟩
              exact ⟨_, .more writable.isField listed,
                List.forall_mem_cons.mpr ⟨writable, restEvery⟩⟩

/-- A head can be written if the invocations in it can. -/
theorem writableHead_varies {validator : String}
    (writable : Invocation.WritableHead validator params) :
    Invocation.WritableHead validator others := by
  obtain ⟨taken, head, whole⟩ := writable
  -- where no invocation stands inside, the lexemes stay
  have same : (∀ param ∈ params, param.invocation? = none) →
      Invocation.WritableHead validator others := by
    intro plain
    rw [← vary.eq_of_plain plain]
    exact ⟨taken, head, whole⟩
  cases head with
  | bare | emptyArray | comparison | matching | reference => exact same (by simp [invocation?])
  | equality _ renders => exact same (List.forall_mem_singleton.mpr renders.plain)
  | membership _ renders => exact same renders.plain
  | @object lexeme _ _ _ kind renders enclosed =>
      obtain ⟨within, put⟩ := enclosed.whole [lexeme] whole
      obtain ⟨fields, lists, every⟩ := exists_lists renders within
      obtain ⟨others, further⟩ := writableFields_iff.mpr (lists.varies vary inside every)
      obtain ⟨taken, enclosed, whole⟩ := put others further.2
      exact ⟨_, .object kind further.1 enclosed, whole⟩
  | @array lexeme _ _ _ kind renders enclosed =>
      obtain ⟨within, put⟩ := enclosed.whole [lexeme] whole
      obtain ⟨others, further⟩ := WritableChain.varies vary inside ⟨_, renders, within⟩
      obtain ⟨taken, enclosed, whole⟩ := put others further.2
      exact ⟨_, .array kind further.1 enclosed, whole⟩
  | @definition lexeme name _ _ _ kind isName renders enclosed =>
      obtain ⟨within, put⟩ := enclosed.whole [lexeme, name] whole
      cases vary with
      | cons here later =>
          cases here.eq_of_plain rfl
          obtain ⟨others, further⟩ := WritableChain.varies later
            (fun first member => inside first (List.mem_cons_of_mem _ member)) ⟨_, renders, within⟩
          obtain ⟨taken, enclosed, whole⟩ := put others further.2
          exact ⟨_, .definition kind isName further.1 enclosed, whole⟩

end Param

mutual

/-- **What varies from an invocation that can be written can be written.** -/
theorem Invocation.writable_of_varies (keeps : variation.KeepsWritable) :
    (first : Invocation) → ∀ second,
    Invocation.Varies variation first second → first.Writable → second.Writable
  | .mk validator params tag => by
      intro second varies writable
      cases varies with
      | exchanged exchanges => exact keeps.exchanges _ _ exchanges writable
      | kept vary retags _ =>
          obtain ⟨head, tagged⟩ := Invocation.writable_iff.mp writable
          rw [← keeps.retags _ _ retags]
          exact Invocation.writable_iff.mpr
            ⟨Param.writableHead_varies vary (Param.writable_of_varies keeps params) head, tagged⟩

theorem Param.writable_of_varies (keeps : variation.KeepsWritable) : (params : List Param) →
    ∀ first, .validator first ∈ params → ∀ second, Invocation.Varies variation first second →
      first.Writable → second.Writable
  | [] => fun _ member => nomatch member
  | .validator invocation :: rest => fun first member => by
      rcases List.mem_cons.mp member with same | later
      · cases same
        exact Invocation.writable_of_varies keeps invocation
      · exact Param.writable_of_varies keeps rest first later
  | .token _ :: rest | .text _ :: rest | .injection _ :: rest | .comparison _ :: rest =>
      fun first member => by
        rcases List.mem_cons.mp member with same | later
        · cases same
        · exact Param.writable_of_varies keeps rest first later

end

end Vary

/-! ### Forests that can be written -/

/-- Suffixes can be written. -/
def Param.WritableSuffixes (suffixes : List Suffix) : Prop :=
  ∃ taken, RendersSuffixes (suffixes.map Suffix.node) taken ∧ Whole taken

/-- **A forest without places can be written.** -/
def Param.WritableForest (forest : List Param) : Prop :=
  ∃ taken, Renders forest taken ∧ Whole taken

/-- What is written as suffixes is the nodes of suffixes. -/
theorem Grammar.RendersSuffixes.exists_nodes {params : List Param} {taken : List Lexeme}
    (renders : RendersSuffixes params taken) (canonical : ∀ lexeme ∈ taken, lexeme.Canonical) :
    ∃ suffixes, params = List.map Suffix.node suffixes := by
  have named {lexeme : Lexeme} (canonical : lexeme.Canonical) (kind : lexeme.kind = .errorSuffix) :
      lexeme.value = "~error" := canonical.spelling (· = "~error") kind rfl (by decide)
  induction renders with
  | nil => exact ⟨[], rfl⟩
  | @bare lexeme _ _ kind _ ih =>
      obtain ⟨here, later⟩ := List.forall_mem_cons.mp canonical
      obtain ⟨suffixes, rfl⟩ := ih later
      rcases kind with kind | kind
      · exact ⟨.collecting none :: suffixes, by rw [named here kind]; rfl⟩
      · have value : lexeme.value = "~meta" := here.spelling (· = "~meta") kind rfl (by decide)
        exact ⟨.apart :: suffixes, by rw [value]; rfl⟩
  | @collecting lexeme index _ _ _ _ kind _ _ _ ih =>
      obtain ⟨here, others⟩ := List.forall_mem_cons.mp canonical
      obtain ⟨suffixes, rfl⟩ := ih (List.forall_mem_append.mp others).2
      exact ⟨.collecting (some index) :: suffixes, by rw [named here kind]; rfl⟩

theorem Lexeme.Proper.relocate {lexeme : Lexeme} (proper : lexeme.Proper) (move : Nat → Nat) :
    (lexeme.relocate move).Proper :=
  ⟨proper.carries, proper.operator, proper.number⟩

/-- Without their places lexemes write the forest without its places. -/
theorem Grammar.Renders.unplaced {forest : List Param} {lexemes : List Lexeme}
    (renders : Renders forest lexemes) (proper : ∀ lexeme ∈ lexemes, lexeme.Proper) :
    Renders (Param.unplaced forest) (lexemes.map (Lexeme.relocate fun _ => 0)) := by
  have builds := (renders.builds proper).relocate fun _ => 0
  rw [← Param.relocateAll_eq_map _ forest] at builds
  have properOther : ∀ lexeme ∈ lexemes.map (Lexeme.relocate fun _ => 0), lexeme.Proper :=
    List.forall_mem_map.mpr fun lexeme member => (proper lexeme member).relocate _
  exact (interpret_eq_ok_iff_renders properOther _).mp (interpret_of_builds builds)

namespace Param

/-- **A forest can be written if its chain and its suffixes can.** -/
theorem writableForest_iff {forest : List Param} : WritableForest forest ↔
    ∃ chain suffixes, forest = chain ++ List.map Suffix.node suffixes ∧ WritableChain chain ∧
      WritableSuffixes suffixes := by
  constructor
  · rintro ⟨_, @⟨chain, params, taken, rest, root, behind⟩, whole⟩
    have starts : rest = [] ∨ Starts rest := by
      cases behind with
      | nil => exact .inl rfl
      | bare kind => exact .inr ⟨_, rfl, by rcases kind with kind | kind <;> rw [kind] <;> rfl⟩
      | collecting kind => exact .inr ⟨_, rfl, by rw [kind]; rfl⟩
    obtain ⟨first, second⟩ : Whole taken ∧ Whole rest := by
      rcases starts with rfl | starts
      · rw [List.append_nil] at whole
        exact ⟨whole, .nil⟩
      · exact whole.cut_before starts
    obtain ⟨suffixes, rfl⟩ := behind.exists_nodes second.canonical
    exact ⟨chain, suffixes, rfl, ⟨taken, root, first⟩, rest, behind, second⟩
  · rintro ⟨chain, suffixes, rfl, ⟨taken, root, first⟩, rest, behind, second⟩
    exact ⟨_, .mk root behind, first.append second⟩

/-- The forest of a text can be written. -/
theorem writableForest_of_parse {text : String} {forest : List Param}
    (parses : parse text = .ok forest) :
    WritableForest (unplaced forest) := by
  obtain ⟨lexemes, tokenizes, interprets⟩ := bind_eq_ok.mp parses
  have canonical := Lexeme.tokenize_canonical tokenizes
  have proper : ∀ lexeme ∈ lexemes, lexeme.Proper := fun lexeme member =>
    (canonical lexeme member).toProper
  have renders := (interpret_eq_ok_iff_renders proper forest).mp interprets
  refine ⟨_, renders.unplaced proper, ?_, ?_, ?_⟩
  · exact List.forall_mem_map.mpr fun lexeme member =>
      ⟨(proper lexeme member).relocate _, (canonical lexeme member).spelled⟩
  · exact List.forall_mem_map.mpr fun _ _ => rfl
  · rw [List.map_map]
    exact Lexeme.spelled_iff.mpr ⟨text, lexemes, tokenizes, rfl⟩

/-- **A forest that can be written is that of a text.** -/
theorem WritableForest.exists_text {forest : List Param} (writable : WritableForest forest) :
    ∃ text other, parse text = .ok other ∧ unplaced other = forest := by
  obtain ⟨taken, renders, whole⟩ := writable
  have proper : ∀ lexeme ∈ taken, lexeme.Proper := fun lexeme member =>
    (whole.canonical lexeme member).toProper
  -- the lexemes have no places, and neither has their forest
  have unplaced := renders.unplaced proper
  rw [List.map_congr_left (g := id) fun lexeme member => by
    rw [Lexeme.relocate, ← whole.unplaced lexeme member]; rfl, List.map_id] at unplaced
  have same := (unplaced.interpret proper).symm.trans (renders.interpret proper)
  obtain ⟨text, lexemes, tokenizes, heads⟩ := Lexeme.spelled_iff.mp whole.spelled
  have properOther : ∀ lexeme ∈ lexemes, lexeme.Proper := fun lexeme member =>
    (Lexeme.tokenize_canonical tokenizes lexeme member).toProper
  have interprets := interpret_relocate_of_renders renders proper properOther heads
  obtain ⟨other, interpreted, placed⟩ := LexicalUnit.map_eq_ok.mp interprets
  refine ⟨text, other, bind_eq_ok.mpr ⟨lexemes, tokenizes, interpreted⟩, ?_⟩
  exact placed.trans (Except.ok.inj same)

/-- What occurs in a chain that can be written can be written. -/
theorem Occurs.writable {chain : List Param} (writable : WritableChain chain) {scopes : List Scope}
    {invocation : Invocation} (occurs : Occurs chain scopes invocation) : invocation.Writable := by
  induction occurs with
  | root member =>
      obtain ⟨_, same, writable⟩ := (writableChain_iff.mp writable).2 _ member
      cases same
      exact writable
  | field _ ih =>
      exact (Invocation.writable_iff.mp ih).1.of_mem (List.mem_append_right _ List.mem_cons_self)
  | inside _ _ member ih => exact (Invocation.writable_iff.mp ih).1.of_mem member

/-- **Every object of a text lists its fields.** -/
theorem Occurs.exists_lists {text : String} {forest params : List Param} {tag : Option ErrorTag}
    {scopes : List Scope} (parses : parse text = .ok forest)
    (occurs : Occurs (unplaced forest) scopes (.mk "object" params tag)) :
    ∃ fields, Lists fields params := by
  obtain ⟨chain, suffixes, whole, root, -⟩ := writableForest_iff.mp (writableForest_of_parse parses)
  rw [whole] at occurs
  have plain : (Invocation.mk "object" params tag).isSuffix = false := by
    simp [Invocation.isSuffix, Invocation.name]
  have writable := (occurs.of_suffixed plain).writable root
  obtain ⟨fields, lists, -⟩ := writableFields_iff.mp
    (Invocation.writableHead_object_iff.mp (Invocation.writable_iff.mp writable).1)
  exact ⟨fields, lists⟩

section Vary

variable {variation : Invocation.Variation}

theorem AllVary.eq_nodes (keeps : variation.KeepsSuffixes)
    (retags : ∀ tag other, variation.retags tag other →
    tag = other) {suffixes : List Suffix} {others : List Param}
    (vary : AllVary variation (suffixes.map Suffix.node) others) :
    others = suffixes.map Suffix.node := by
  induction suffixes generalizing others with
  | nil =>
      cases vary
      rfl
  | cons suffix suffixes ih =>
      cases vary with
      | cons here later =>
          rw [ih later, List.map_cons]
          cases here with
          | plain plain => rfl
          | invocation varies =>
              cases varies with
              | exchanged exchanges => cases suffix.isSuffix_node.symm.trans (keeps exchanges).1
              | kept inside same _ =>
                  rw [← inside.eq_of_plain suffix.plain_params, ← retags _ _ same]; rfl

/-- **A forest that varies from one that can be written can be written**, if what is exchanged
can. -/
theorem AllVary.writable (keeps : variation.KeepsSuffixes) (keepsWritable : variation.KeepsWritable)
    {forest others : List Param} (vary : AllVary variation forest others)
    (writable : WritableForest forest) :
    WritableForest others := by
  obtain ⟨chain, suffixes, rfl, root, behind⟩ := writableForest_iff.mp writable
  obtain ⟨front, _, rfl, frontVary, nodesVary⟩ := vary.exists_of_append
  rw [nodesVary.eq_nodes keeps keepsWritable.retags]
  have inside := writable_of_varies keepsWritable chain
  exact writableForest_iff.mpr ⟨front, suffixes, rfl, root.varies frontVary inside, behind⟩

end Vary

end Param

end Schemata
