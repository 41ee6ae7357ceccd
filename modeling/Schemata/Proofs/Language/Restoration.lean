/-
**Calls leave the open frames in order, and cuts restore them.**

A snapshot holds only two numbers of a stack, and parameters take a node off that may have been
there when the snapshot was taken. Cuts restore the stack nevertheless: no rule reaches below the
frame that was the innermost when it was called, and where it takes a node off, no failure follows
that would be cut back.

* `Call.Keeps` says what a call does to the open frames, and `Record.Keeps` also that a cut has
  restored them;
* `Follows` says that a derivation on a stack does to the innermost frame what the derivation
  without a stack does to the frame that is handed to it, leaves the others alone, and records what
  keeps the frames;
* `items_follow` and its companions: sequences, items and choices do so if rules do, by the table
  and by `deriveItems_grows`;
* `rule_follows`: so rules do, by induction on the lexemes that are left and on the rank;
* `calls_keep_frames` says of all calls that are made one after the other on a fresh context, and of
  those inside them, that they keep the frames, and of all cuts that they restore the stack;
* `interpret_eq`: whole lists of lexemes are interpreted on a stack as they are without one.
-/

import Schemata.Proofs.Language.Ending
import Schemata.Proofs.Language.Leaves
import Schemata.Proofs.Language.Stack

namespace Schemata.Grammar

/-- No rule is opened in a frame that collects a text. -/
theorem RuleName.definition_literal {name : RuleName} {construct : Construct}
    (constructs : name.definition.construct = some construct)
    (literal : construct.collectsText = true) :
    Item.sequenceAvoids RuleName.all name.definition.items = true := by
  cases name <;> first | rfl | cases constructs <;> cases literal

namespace Stacked

/-! ### What is kept -/

/-- **A call that derives a construct adds one node to the innermost frame.** Parameters replace the
keyword that is the last node there. -/
inductive Collects (construct : Construct) : Stack → Stack → Prop
  | adds {construct? : Option Construct} {nodes : Frame} {below : Stack}
      (other : construct ≠ .params) (node : Param) :
      Collects construct (⟨construct?, .nodes nodes⟩ :: below)
        (⟨construct?, .nodes (nodes ++ [node])⟩ :: below)
  | replaces {construct? : Option Construct} {nodes : Frame} {below : Stack}
      (same : construct = .params) (keyword : Lexeme) (params : Frame) :
      Collects construct (⟨construct?, .nodes (nodes ++ [Param.token keyword])⟩ :: below)
        (⟨construct?, .nodes (nodes ++ [Param.validator (.mk keyword.value params none)])⟩ :: below)

/-- **What a call does to the open frames.** As many are open behind it as before. If its rule has a
construct, then nothing has changed when it fails, and when it derives there is one node more, or
another node for the last one. The innermost frame is as the derivation without a stack leaves
it. -/
structure Call.Keeps (lexemes : List Lexeme) (call : Call) : Prop where
  depth : call.after.length = call.before.length
  failed : call.name.definition.construct ≠ none → call.next? = none → call.after = call.before
  derived : ∀ construct, call.name.definition.construct = some construct → call.next? ≠ none →
    Collects construct call.before call.after
  innermost : ∃ construct? below frame, call.before = ⟨construct?, .nodes frame⟩ :: below ∧
    call.after =
      ⟨construct?, .nodes (derive call.name frame (lexemes.drop call.offset)).frame⟩ :: below ∧
    call.next?.map (lexemes.drop ·) = (derive call.name frame (lexemes.drop call.offset)).rest?

/-- A call keeps the open frames, and a cut leaves the stack of which the snapshot had been
taken. -/
def Record.Keeps (lexemes : List Lexeme) : Record → Prop
  | .call ended => ended.Keeps lexemes
  | .cut taken left => left = taken

/-- One context comes behind another: there are more records, which all keep the frames. -/
def Context.Behind (lexemes : List Lexeme) (before after : Context) : Prop :=
  ∃ made, after.records = before.records ++ made ∧ ∀ record ∈ made, record.Keeps lexemes

namespace Context.Behind

variable {lexemes : List Lexeme} {before middle after : Context}

theorem refl (context : Context) : Behind lexemes context context :=
  ⟨[], (List.append_nil _).symm, nofun⟩

theorem trans (first : Behind lexemes before middle) (second : Behind lexemes middle after) :
    Behind lexemes before after := by
  obtain ⟨made, more, keep⟩ := first
  obtain ⟨others, most, keepOthers⟩ := second
  refine ⟨made ++ others, ?_, List.forall_mem_append.mpr ⟨keep, keepOthers⟩⟩
  rw [most, more, List.append_assoc]

theorem record {stack : Stack} {record : Record} (behind : Behind lexemes before middle)
    (keeps : record.Keeps lexemes) : Behind lexemes before ⟨stack, middle.records ++ [record]⟩ :=
  behind.trans ⟨[record], rfl, List.forall_mem_singleton.mpr keeps⟩

end Context.Behind

/-! ### Following the derivation without a stack -/

/-- **An attempt on a stack follows one without a stack**: at its place it collects the same, it
ends where the other ends, and behind the offset if it takes a lexeme. -/
structure Follows (lexemes : List Lexeme) (place : Place) (offset : Nat) (context : Context)
    (attempt : Attempt) (outcome : Outcome) : Prop where
  holds : place.Holds outcome.context.stack attempt.frame
  rest : outcome.next?.map (lexemes.drop ·) = attempt.rest?
  advances : ∀ next, outcome.next? = some next →
    next = offset ∨ offset < next ∧ next ≤ lexemes.length
  behind : context.Behind lexemes outcome.context

/-- A derivation on a stack ends, and follows one without a stack. -/
def EndsAs (lexemes : List Lexeme) (place : Place) (offset : Nat) (context : Context)
    (attempt : Attempt) (result : Option Outcome) : Prop :=
  ∃ outcome, result = some outcome ∧ Follows lexemes place offset context attempt outcome

section Follows

variable {lexemes : List Lexeme} {place : Place} {offset : Nat} {context : Context} {frame : Frame}

namespace Follows

theorem failed (holds : place.Holds context.stack frame) :
    Follows lexemes place offset context ⟨none, frame⟩ ⟨none, context⟩ :=
  ⟨holds, rfl, nofun, .refl _⟩

theorem stay {middle : Context} (holds : place.Holds middle.stack frame)
    (behind : context.Behind lexemes middle) :
    Follows lexemes place offset context ⟨some (lexemes.drop offset), frame⟩
      ⟨some offset, middle⟩ :=
  ⟨holds, rfl, fun _ same => .inl (Option.some.inj same).symm, behind⟩

/-- An attempt that goes on in a later context, and at a later offset. -/
theorem later {middle : Context} {next : Nat} {attempt : Attempt} {outcome : Outcome}
    (follows : Follows lexemes place next middle attempt outcome)
    (advances : next = offset ∨ offset < next ∧ next ≤ lexemes.length)
    (behind : context.Behind lexemes middle) :
    Follows lexemes place offset context attempt outcome where
  holds := follows.holds
  rest := follows.rest
  advances last same := by
    have := follows.advances last same
    omega
  behind := behind.trans follows.behind

/-- What follows a failure fails. -/
theorem next?_of_fails {after : Frame} {outcome : Outcome}
    (follows : Follows lexemes place offset context ⟨none, after⟩ outcome) : outcome.next? = none :=
  Option.map_eq_none_iff.mp follows.rest

/-- What follows an attempt that derives does so, and the same lexemes are left. -/
theorem next?_of_derives {after : Frame} {rest : List Lexeme} {outcome : Outcome}
    (follows : Follows lexemes place offset context ⟨some rest, after⟩ outcome) :
    ∃ next, outcome.next? = some next ∧ lexemes.drop next = rest :=
  Option.map_eq_some_iff.mp follows.rest

end Follows

theorem token_follows (kind : TokenKind) (holds : place.Holds context.stack frame) :
    Follows lexemes place offset context (deriveToken kind frame (lexemes.drop offset))
      (token lexemes kind offset context) := by
  unfold token
  cases found : lexemes[offset]? with
  | none =>
      rw [List.drop_eq_nil_of_le (List.getElem?_eq_none_iff.mp found)]
      exact .failed holds
  | some lexeme =>
      obtain ⟨inside, rfl⟩ := List.getElem?_eq_some_iff.mp found
      rw [List.drop_eq_getElem_cons inside, deriveToken]
      dsimp only
      have advances : ∀ next, some (offset + 1) = some next →
          next = offset ∨ offset < next ∧ next ≤ lexemes.length := by
        intro next same
        cases same
        exact .inr ⟨Nat.lt_succ_self _, inside⟩
      by_cases same : lexemes[offset].kind = kind
      · rw [if_pos same, if_pos same]
        by_cases carries : lexemes[offset].carriesValue = true
        · obtain ⟨buffer, held, stacked⟩ := holds
          rw [if_pos carries, if_pos carries, stacked]
          exact ⟨⟨_, held.push _, rfl⟩, rfl, advances, ⟨[], (List.append_nil _).symm, nofun⟩⟩
        · rw [if_neg carries, if_neg carries]
          exact ⟨holds, rfl, advances, .refl _⟩
      · rw [if_neg same, if_neg same]
        exact .failed holds

/-- **A cut restores the stack** if the failed attempt has only added to the innermost frame. -/
theorem cutBack_restores (lexemes : List Lexeme) {taken after : Context} {more : Frame}
    (holds : place.Holds taken.stack frame) (held : place.Holds after.stack more)
    (grows : frame <+: more) :
    (taken.cutBack after).stack = taken.stack ∧ after.Behind lexemes (taken.cutBack after) := by
  have restored := Place.restore_stack holds held grows
  have keeps :
      (Record.cut taken.stack ((Snapshot.of taken.stack).restore after.stack)).Keeps lexemes :=
    restored
  exact ⟨restored, .record (.refl _) keeps⟩

/-- A repetition follows if its body does. Each step that goes on takes a lexeme, so it ends. -/
theorem many_follows {body : List Item} {count : Nat}
    (follows : ∀ frame offset context, place.Holds context.stack frame →
      (lexemes.drop offset).length ≤ count →
      EndsAs lexemes place offset context (deriveItems derive body frame (lexemes.drop offset))
        (items lexemes body offset context))
    (grows : ∀ frame rest, frame <+: (deriveItems derive body frame rest).frame) (fuel : Nat) :
    ∀ frame offset context, place.Holds context.stack frame → (lexemes.drop offset).length ≤ count →
      (lexemes.drop offset).length < fuel →
      EndsAs lexemes place offset context
        (repeatStep (deriveItems derive body) fuel frame (lexemes.drop offset))
        (many lexemes body offset context) := by
  induction fuel with
  | zero => exact fun _ _ _ _ _ none => absurd none (Nat.not_lt_zero _)
  | succ fuel ih =>
      intro frame offset context holds le enough
      obtain ⟨⟨next?, after⟩, ends, step⟩ := follows frame offset context holds le
      have grown := grows frame (lexemes.drop offset)
      rw [many, ends, repeatStep]
      generalize deriveItems derive body frame (lexemes.drop offset) = attempt at step grown ⊢
      obtain ⟨rest?, more⟩ := attempt
      obtain ⟨restored, behind⟩ := cutBack_restores lexemes holds step.holds grown
      -- the step that ends the repetition is cut off, on the stack and without one
      have stays : Follows lexemes place offset context
          ⟨some (lexemes.drop offset), more.take frame.length⟩
          ⟨some offset, context.cutBack after⟩ := by
        rw [Frame.take_of_grown grown]
        exact .stay (restored.symm ▸ holds) (step.behind.trans behind)
      cases rest? with
      | none =>
          obtain rfl : next? = none := step.next?_of_fails
          exact ⟨_, rfl, stays⟩
      | some rest =>
          obtain ⟨next, rfl, rfl⟩ := step.next?_of_derives
          have advances := step.advances next rfl
          simp only [Option.bind_eq_bind, Option.bind_some]
          by_cases takes : offset < next
          · have shorter : (lexemes.drop next).length < (lexemes.drop offset).length := by
              simp only [List.length_drop]
              omega
            rw [if_pos takes, if_pos shorter]
            obtain ⟨outcome, ends, goesOn⟩ := ih more next after step.holds (by omega) (by omega)
            exact ⟨outcome, ends, goesOn.later advances step.behind⟩
          · obtain rfl : next = offset := by omega
            rw [if_neg takes, if_neg (Nat.lt_irrefl _)]
            exact ⟨_, rfl, stays⟩

/-! ### Sequences, items and choices -/

/-- Rules follow in frames of nodes: on fewer lexemes than this, and on this many if their rank is
lower. -/
def FollowBelow (lexemes : List Lexeme) (count limit : Nat) : Prop :=
  ∀ name construct? below frame offset (context : Context),
    context.stack = ⟨construct?, .nodes frame⟩ :: below →
    (lexemes.drop offset).length < count ∨
      (lexemes.drop offset).length = count ∧ name.rank < limit →
    EndsAs lexemes ⟨false, construct?, below⟩ offset context
      (derive name frame (lexemes.drop offset)) (rule lexemes name offset context)

variable {count limit : Nat}

mutual

/-- **An item follows** if the rules do that it opens before it takes a lexeme. -/
theorem item_follows (follow : FollowBelow lexemes count limit) :
    (item : Item) → item.keeps = true → (place.literal = true → item.avoids RuleName.all = true) →
    ∀ frame offset context, place.Holds context.stack frame →
      (lexemes.drop offset).length < count ∨
        (lexemes.drop offset).length = count ∧ item.opensBelow limit = true →
      EndsAs lexemes place offset context (deriveItem derive item frame (lexemes.drop offset))
        (Stacked.item lexemes item offset context)
  | .token kind => by
      intro _ _ frame offset context holds _
      rw [Stacked.item, deriveItem]
      exact ⟨_, rfl, token_follows kind holds⟩
  | .rule name => by
      intro _ literal frame offset context holds opens
      obtain ⟨place, construct?, below⟩ := place
      obtain ⟨_, held, stacked⟩ := holds
      rw [Stacked.item, deriveItem]
      cases held with
      | nodes =>
          exact follow name construct? below frame offset context stacked
            (opens.imp_right fun ⟨same, opens⟩ => ⟨same, of_decide_eq_true opens⟩)
      | text =>
          have never : name ∉ RuleName.all := of_decide_eq_true (literal rfl)
          exact absurd (by cases name <;> decide) never
  | .choice alternatives => by
      intro keeps literal frame offset context holds opens
      rw [Stacked.item, deriveItem]
      exact choice_follows follow alternatives keeps literal frame offset context context
        holds rfl opens
  | .many body => by
      intro keeps literal frame offset context holds opens
      obtain ⟨bodyKeeps, adds⟩ := Bool.and_eq_true_iff.mp keeps
      rw [Stacked.item, deriveItem]
      refine many_follows (fun frame shorter context holds le => ?_)
        (fun frame rest => deriveItems_grows derive_growing body bodyKeeps frame rest (.inr adds))
        _ frame offset context holds (Nat.le_refl _) (Nat.lt_succ_self _)
      exact items_follow follow body (Item.keeps_of_sequenceKeeps bodyKeeps) literal frame
        shorter context holds (below_of_le le opens)

/-- **A sequence follows**, if each of its items leaves the frame in front when it fails. -/
theorem items_follow (follow : FollowBelow lexemes count limit) : (items : List Item) →
    (∀ item ∈ items, item.keeps = true) →
    (place.literal = true → Item.sequenceAvoids RuleName.all items = true) →
    ∀ frame offset context, place.Holds context.stack frame →
      (lexemes.drop offset).length < count ∨
        (lexemes.drop offset).length = count ∧ Item.sequenceOpensBelow limit items = true →
      EndsAs lexemes place offset context (deriveItems derive items frame (lexemes.drop offset))
        (Stacked.items lexemes items offset context)
  | [] => by
      intro _ _ frame offset context holds _
      rw [Stacked.items, deriveItems]
      exact ⟨_, rfl, .stay holds (.refl _)⟩
  | item :: others => by
      intro keeps literal frame offset context holds opens
      obtain ⟨here, later⟩ := List.forall_mem_cons.mp keeps
      obtain ⟨⟨next?, after⟩, ends, first⟩ := item_follows follow item here
        (fun text => (Bool.and_eq_true_iff.mp (literal text)).1) frame offset context holds
        (opens.imp_right fun ⟨same, opens⟩ => ⟨same, (Bool.and_eq_true_iff.mp opens).1⟩)
      have leaves := deriveItem_leaves derive_consuming item frame (lexemes.drop offset)
      rw [Stacked.items, ends, deriveItems]
      rcases derives : deriveItem derive item frame (lexemes.drop offset) with ⟨_ | rest, more⟩
      · rw [derives] at first
        obtain rfl : next? = none := first.next?_of_fails
        exact ⟨_, rfl, first⟩
      · rw [derives] at first leaves
        obtain ⟨next, rfl, rfl⟩ := first.next?_of_derives
        obtain ⟨suffix, less⟩ := leaves _ rfl
        obtain ⟨outcome, ends, second⟩ := items_follow follow others later
          (fun text => (Bool.and_eq_true_iff.mp (literal text)).2) more next after first.holds
          (Item.opensBelow_behind opens suffix less)
        exact ⟨outcome, ends, second.later (first.advances next rfl) first.behind⟩

/-- **A choice follows.** After each alternative that fails, both the stack and the frame are
restored. -/
theorem choice_follows (follow : FollowBelow lexemes count limit) :
    (alternatives : List (List Item)) → Item.allKeep alternatives = true →
    (place.literal = true → Item.allAvoid RuleName.all alternatives = true) →
    ∀ frame offset (taken context : Context), place.Holds taken.stack frame →
      context.stack = taken.stack →
      (lexemes.drop offset).length < count ∨
        (lexemes.drop offset).length = count ∧ Item.allOpenBelow limit alternatives = true →
      EndsAs lexemes place offset context
        (deriveChoice derive alternatives frame.length frame (lexemes.drop offset))
        (choice lexemes alternatives taken offset context)
  | [] => by
      intro _ _ frame offset taken context holds same _
      rw [choice, deriveChoice]
      exact ⟨_, rfl, .failed (same.symm ▸ holds)⟩
  | items :: others => by
      intro keeps literal frame offset taken context holds same opens
      obtain ⟨here, later⟩ := Bool.and_eq_true_iff.mp keeps
      obtain ⟨⟨next?, after⟩, ends, first⟩ :=
        items_follow follow items (Item.keeps_of_sequenceKeeps here)
        (fun text => (Bool.and_eq_true_iff.mp (literal text)).1) frame offset context
        (same.symm ▸ holds)
        (opens.imp_right fun ⟨same, opens⟩ => ⟨same, (Bool.and_eq_true_iff.mp opens).1⟩)
      have grows := deriveItems_grows derive_growing items here frame (lexemes.drop offset)
      rw [choice, ends, deriveChoice]
      rcases derives : deriveItems derive items frame (lexemes.drop offset) with ⟨_ | rest, more⟩
      · rw [derives] at first grows
        obtain rfl : next? = none := first.next?_of_fails
        have grown : frame <+: more := grows (.inl rfl)
        obtain ⟨restored, behind⟩ := cutBack_restores lexemes holds first.holds grown
        dsimp only
        rw [Frame.take_of_grown grown]
        obtain ⟨outcome, ends, second⟩ := choice_follows follow others later
          (fun text => (Bool.and_eq_true_iff.mp (literal text)).2) frame offset taken
          (taken.cutBack after) holds restored
          (opens.imp_right fun ⟨same, opens⟩ => ⟨same, (Bool.and_eq_true_iff.mp opens).2⟩)
        exact ⟨outcome, ends, second.later (.inl rfl) (first.behind.trans behind)⟩
      · rw [derives] at first
        obtain ⟨next, rfl, -⟩ := first.next?_of_derives
        exact ⟨_, rfl, first⟩

end

/-! ### Rules -/

/-- **A closed frame is reduced as its nodes are** by the construct. -/
theorem reduce_eq {construct : Construct} {buffer : Buffer} {nodes : Frame}
    (held : Buffer.Holds construct.collectsText buffer nodes) (construct? : Option Construct)
    (frame : Frame) (below : Stack) :
    reduce ⟨some construct, buffer⟩ (⟨construct?, .nodes frame⟩ :: below) =
      match construct.reduce? nodes frame with
      | some reduced => (true, ⟨construct?, .nodes reduced⟩ :: below)
      | none => (false, ⟨construct?, .nodes frame⟩ :: below) := by
  cases construct with
  | text =>
      obtain _ | joins := held
      rw [Construct.reduce?, joins]
      rfl
  | injection =>
      obtain _ | @⟨_, text, joins⟩ := held
      rw [Construct.reduce?, joins, reduce, reduceToNode]
      simp only [Option.bind_eq_bind, Option.bind_some]
      cases Numeral.natural? text <;> rfl
  | comparator =>
      cases held
      rw [Construct.reduce?, reduce, reduceToNode]
      dsimp only
      cases comparison? nodes <;> rfl
  | entry =>
      cases held
      rw [Construct.reduce?, reduce, reduceToNode]
      dsimp only
      cases invocation? nodes <;> rfl
  | params =>
      cases held
      rw [Construct.reduce?, applyParams?, reduce, reduceToNode]
      dsimp only
      rw [invokeKeyword]
      rcases frame.getLast? with _ | (_ | keyword | _ | _ | _)
      · rfl
      · rfl
      · by_cases isKeyword : keyword.kind.isKeyword = true
        · simp [isKeyword, splice]
        · simp [isKeyword]
      · rfl
      · rfl
      · rfl

/-- What is reduced is one node more, or another node for a keyword at the end. -/
theorem Collects.of_reduce? {construct : Construct} {nodes reduced : Frame}
    (reduces : construct.reduce? nodes frame = some reduced) (construct? : Option Construct)
    (below : Stack) :
    Collects construct (⟨construct?, .nodes frame⟩ :: below)
      (⟨construct?, .nodes reduced⟩ :: below) := by
  by_cases same : construct = .params
  · subst same
    obtain ⟨before, keyword, rfl, -, rfl⟩ := applyParams?_eq_some reduces
    exact .replaces rfl keyword nodes
  · obtain ⟨node, rfl⟩ := Construct.reduce?_grows same reduces
    exact .adds same node

/-- **A rule that follows the derivation without a stack keeps the open frames.** -/
theorem Follows.call_keeps {name : RuleName} {construct? : Option Construct} {below : Stack}
    {outcome : Outcome} (stacked : context.stack = ⟨construct?, .nodes frame⟩ :: below)
    (follows : Follows lexemes ⟨false, construct?, below⟩ offset context
      (derive name frame (lexemes.drop offset)) outcome) :
    (outcome.call name offset context).Keeps lexemes := by
  obtain ⟨_, ⟨_⟩, after⟩ := follows.holds
  dsimp only at after
  have ends := follows.rest
  refine ⟨?_, ?_, ?_, construct?, below, frame, stacked, after, ends⟩
  · show outcome.context.stack.length = context.stack.length
    rw [stacked, after]
    rfl
  · intro (constructs : name.definition.construct ≠ none) (fails : outcome.next? = none)
    obtain ⟨construct, same⟩ := Option.ne_none_iff_exists'.mp constructs
    show outcome.context.stack = context.stack
    rw [stacked, after]
    rcases derive_of_construct same frame (lexemes.drop offset) with failed | ⟨_, _, _, derived, -⟩
    · rw [failed]
    · rw [derived, fails] at ends
      cases ends
  · intro construct (constructs : name.definition.construct = some construct)
      (derives : outcome.next? ≠ none)
    show Collects construct context.stack outcome.context.stack
    rw [stacked, after]
    rcases derive_of_construct constructs frame (lexemes.drop offset) with
      failed | ⟨_, _, reduced, derived, reduces⟩
    · rw [failed] at ends
      exact absurd (Option.map_eq_none_iff.mp ends) derives
    · rw [derived]
      exact .of_reduce? reduces construct? below

/-- A rule has ended, and its call is recorded. -/
theorem Follows.recorded {name : RuleName} {construct? : Option Construct} {below : Stack}
    {outcome : Outcome} (stacked : context.stack = ⟨construct?, .nodes frame⟩ :: below)
    (follows : Follows lexemes ⟨false, construct?, below⟩ offset context
      (derive name frame (lexemes.drop offset)) outcome) :
    Follows lexemes ⟨false, construct?, below⟩ offset context
      (derive name frame (lexemes.drop offset))
      (outcome.recorded (outcome.call name offset context)) := by
  have keeps : (Record.call (outcome.call name offset context)).Keeps lexemes :=
    follows.call_keeps stacked
  exact ⟨follows.holds, follows.rest, follows.advances, follows.behind.record keeps⟩

/-- **A frame is closed** as the derivation without a stack reduces the nodes that it has
collected. -/
theorem Follows.closed {name : RuleName} {construct : Construct} {construct? : Option Construct}
    {below : Stack} {inside : Outcome} (constructs : name.definition.construct = some construct)
    (follows : Follows lexemes
      ⟨construct.collectsText, some construct, ⟨construct?, .nodes frame⟩ :: below⟩ offset
      (context.opened construct)
      (deriveItems derive name.definition.items [] (lexemes.drop offset)) inside) :
    Follows lexemes ⟨false, construct?, below⟩ offset context
      (derive name frame (lexemes.drop offset)) inside.closed := by
  rw [derive_eq, constructs]
  dsimp only
  obtain ⟨next?, stack, records⟩ := inside
  obtain ⟨buffer, held, same⟩ := follows.holds
  dsimp only at same
  subst same
  rcases derives : deriveItems derive name.definition.items [] (lexemes.drop offset) with
    ⟨_ | rest, nodes⟩
  · rw [derives] at follows
    obtain rfl : next? = none := follows.next?_of_fails
    exact ⟨⟨_, .nodes _, rfl⟩, rfl, nofun, follows.behind⟩
  · rw [derives] at follows held
    obtain ⟨next, rfl, rfl⟩ := follows.next?_of_derives
    rw [Outcome.closed]
    dsimp only
    rw [reduce_eq held]
    cases construct.reduce? nodes frame with
    | none => exact ⟨⟨_, .nodes _, rfl⟩, rfl, nofun, follows.behind⟩
    | some reduced => exact ⟨⟨_, .nodes _, rfl⟩, rfl, follows.advances, follows.behind⟩

/-- **A rule ends on a stack, and follows the derivation without one.** -/
theorem rule_follows (lexemes : List Lexeme) (name : RuleName) (construct? : Option Construct)
    (below : Stack) (frame : Frame) (offset : Nat) (context : Context)
    (stacked : context.stack = ⟨construct?, .nodes frame⟩ :: below) :
    EndsAs lexemes ⟨false, construct?, below⟩ offset context
      (derive name frame (lexemes.drop offset)) (rule lexemes name offset context) := by
  -- rules are opened with fewer lexemes left, or with as many and a lower rank
  induction needed : depthFor name (lexemes.drop offset) using Nat.strongRecOn
    generalizing name construct? below frame offset context with
  | ind needed ih =>
    have follow : FollowBelow lexemes (lexemes.drop offset).length name.rank := by
      intro inner construct? below frame place context stacked fewer
      have lower := inner.rank_lt
      refine ih (depthFor inner (lexemes.drop place)) ?_ inner construct? below frame place
        context stacked rfl
      unfold depthFor rankCount at *
      omega
    have opens : (lexemes.drop offset).length < (lexemes.drop offset).length ∨
        (lexemes.drop offset).length = (lexemes.drop offset).length ∧
          Item.sequenceOpensBelow name.rank name.definition.items = true :=
      .inr ⟨rfl, name.definition_opensBelow⟩
    rw [rule]
    cases constructs : name.definition.construct with
    | none =>
        have holds : Place.Holds ⟨false, construct?, below⟩ context.stack frame :=
          ⟨_, .nodes _, stacked⟩
        have literal : Place.literal ⟨false, construct?, below⟩ = true →
          Item.sequenceAvoids RuleName.all name.definition.items = true := nofun
        obtain ⟨outcome, ends, follows⟩ :=
          items_follow follow _ name.definition_all_keep literal frame offset context holds opens
        have derives : derive name frame (lexemes.drop offset) =
            deriveItems derive name.definition.items frame (lexemes.drop offset) := by
          rw [derive_eq, constructs]
        dsimp only
        rw [ends]
        exact ⟨_, rfl, .recorded stacked (derives ▸ follows)⟩
    | some construct =>
        have opened : Place.Holds
            ⟨construct.collectsText, some construct, ⟨construct?, .nodes frame⟩ :: below⟩
            (context.opened construct).stack [] := by
          rw [Context.opened, stacked]
          cases construct with
          | text | injection => exact ⟨_, .text rfl, rfl⟩
          | comparator | params | entry => exact ⟨_, .nodes _, rfl⟩
        obtain ⟨inside, ends, follows⟩ := items_follow follow _ name.definition_all_keep
          (RuleName.definition_literal constructs) [] offset (context.opened construct) opened opens
        dsimp only
        rw [ends]
        exact ⟨_, rfl, .recorded stacked (follows.closed constructs)⟩

end Follows

/-! ### Calls on one context -/

/-- One frame is open, which collects nodes. -/
def Context.AtBottom (context : Context) : Prop :=
  ∃ frame, context.stack = [⟨none, .nodes frame⟩]

/-- **Rules that are called one after the other end**, with one frame open. -/
theorem calls_end (lexemes : List Lexeme) :
    (earlier : List (RuleName × Nat)) → ∀ (context : Context),
    context.AtBottom → ∃ after, calls lexemes earlier context = some after ∧ after.AtBottom ∧
      context.Behind lexemes after
  | [], context, bottom => ⟨context, rfl, bottom, .refl _⟩
  | (name, offset) :: others, context, ⟨frame, stacked⟩ => by
      obtain ⟨outcome, ends, follows⟩ :=
        rule_follows lexemes name none [] frame offset context stacked
      obtain ⟨_, ⟨_⟩, left⟩ := follows.holds
      obtain ⟨after, endsLater, bottom, behind⟩ :=
        calls_end lexemes others outcome.context ⟨_, left⟩
      refine ⟨after, ?_, bottom, follows.behind.trans behind⟩
      rw [calls, ends]
      exact endsLater

/-- **Calls keep the open frames, and every cut restores them.** After any calls on a fresh context,
a rule that is called at any offset ends and keeps the frames. So did the calls before it and all
calls inside them, and each cut has left the stack as it was when the snapshot was taken. -/
theorem calls_keep_frames (lexemes : List Lexeme) (earlier : List (RuleName × Nat))
    (name : RuleName) (offset : Nat) :
    ∃ context outcome, calls lexemes earlier .start = some context ∧
      rule lexemes name offset context = some outcome ∧
      (outcome.call name offset context).Keeps lexemes ∧
      ∀ record ∈ outcome.context.records, record.Keeps lexemes := by
  obtain ⟨context, called, ⟨frame, stacked⟩, behindStart⟩ :=
    calls_end lexemes earlier .start ⟨[], rfl⟩
  obtain ⟨outcome, ends, follows⟩ := rule_follows lexemes name none [] frame offset context stacked
  refine ⟨context, outcome, called, ends, follows.call_keeps stacked, ?_⟩
  obtain ⟨made, all, keep⟩ := behindStart.trans follows.behind
  rw [all]
  exact keep

/-- Parameters are tried behind a keyword and fail, so the keyword is cut off. Then it is taken
alone. -/
example :
    let keyword : Lexeme := .ofKind .object "object" 0
    let bottom (nodes : Frame) : Stack := [⟨none, .nodes nodes⟩]
    (rule [keyword] .validator 0 .start).map (fun outcome => outcome.context.records) = some [
      .cut (bottom []) (bottom []),
      .call ⟨.objectParams, 1, bottom [.token keyword], none, bottom [.token keyword]⟩,
      .cut (bottom []) (bottom []),
      .call ⟨.validator, 0, bottom [], some 1, bottom [.token keyword]⟩] := by
  cbv

/-- **Whole lists of lexemes are interpreted on a stack** as they are without one. -/
theorem interpret_eq (lexemes : List Lexeme) :
    interpret lexemes = some (Grammar.interpret lexemes) := by
  obtain ⟨outcome, ends, follows⟩ := rule_follows lexemes .program none [] [] 0 .start rfl
  rw [List.drop_zero] at follows
  have all : outcome.next? = some lexemes.length ↔ (derive .program [] lexemes).rest? =
      some [] := by
    rw [← follows.rest, Option.map_eq_some_iff]
    constructor
    · exact fun whole => ⟨_, whole, List.drop_length⟩
    · rintro ⟨next, same, none⟩
      have le := List.drop_eq_nil_iff.mp none
      rw [same]
      rcases follows.advances next same with rfl | ⟨-, within⟩
      · rw [Nat.le_zero.mp le]
      · rw [Nat.le_antisymm within le]
  obtain ⟨_, ⟨_⟩, left⟩ := follows.holds
  rw [interpret, ends, Grammar.interpret]
  simp only [Option.bind_eq_bind, Option.bind_some, left, List.getLast?_singleton]
  generalize derive .program [] lexemes = attempt at all ⊢
  obtain ⟨rest?, forest⟩ := attempt
  by_cases whole : outcome.next? = some lexemes.length
  · rw [if_pos whole, show rest? = some [] from all.mp whole]
  · rw [if_neg whole]
    rcases rest? with _ | _ | _
    · rfl
    · exact absurd (all.mpr rfl) whole
    · rfl

end Stacked

end Schemata.Grammar
