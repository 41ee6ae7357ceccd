/-
**Layout, offsets and the spellings of keywords do not matter.**

Two texts whose lexemes agree in kind and value have the same template, or the same error.

* `Grammar.Derives.of_heads`: whether some lexemes are a sentence is said by their kinds and values;
* `Grammar.interpret_relocate`: so such lexemes have forests that differ in offsets, or none;
* `Template.ofForest_relocate`: offsets do not matter where a forest is compiled;
* `Template.ofText_alike`: so the texts compile alike.
-/

import Schemata.Proofs.Compilation.Relocation
import Schemata.Proofs.Language.Classification
import Schemata.Proofs.Language.Membership
import Schemata.Proofs.Language.Spelling

namespace Schemata

/-! ### Forests -/

/-- Lexemes that agree in kind and value are the same at one place. -/
theorem Lexeme.relocate_eq_of_heads {lexemes others : List Lexeme} (place : Nat)
    (proper : ∀ lexeme ∈ lexemes, lexeme.Proper) (properOther : ∀ lexeme ∈ others, lexeme.Proper)
    (same : lexemes.map head = others.map head) :
    lexemes.map (relocate fun _ => place) = others.map (relocate fun _ => place) := by
  induction lexemes generalizing others with
  | nil => rw [List.map_eq_nil_iff.mp same.symm]
  | cons lexeme rest ih =>
      obtain ⟨other, further, rfl, alike, sameRest⟩ := List.map_eq_cons_iff.mp same.symm
      obtain ⟨here, later⟩ := List.forall_mem_cons.mp proper
      obtain ⟨hereOther, laterOther⟩ := List.forall_mem_cons.mp properOther
      obtain ⟨kind, value⟩ := Prod.mk.inj alike
      have carries : lexeme.carriesValue = other.carriesValue := by
        rw [here.carries, hereOther.carries, kind]
      rw [List.map_cons, List.map_cons, ih later laterOther sameRest.symm, relocate, relocate,
        kind, value, carries]

namespace Grammar

theorem RuleName.Admits.of_heads {name : RuleName} {taken others : List Lexeme}
    (admits : name.Admits taken) (same : others.map Lexeme.head = taken.map Lexeme.head) :
    name.Admits others := by
  intro either lexeme member number
  have listed : lexeme.head ∈ taken.map Lexeme.head := same ▸ List.mem_map_of_mem member
  obtain ⟨original, there, alike⟩ := List.mem_map.mp listed
  obtain ⟨kind, value⟩ := Prod.mk.inj alike
  exact value ▸ admits either original there (kind.trans number)

/-- **Whether lexemes are a sentence is said by their kinds and values.** -/
theorem Derives.of_heads {items : List Item} {taken others : List Lexeme}
    (derives : Derives items taken) (same : others.map Lexeme.head = taken.map Lexeme.head) :
    Derives items others := by
  induction derives generalizing others with
  | nil =>
      rw [List.map_eq_nil_iff.mp same]
      exact .nil
  | token kind _ ih =>
      obtain ⟨lexeme, rest, rfl, alike, sameRest⟩ := List.map_eq_cons_iff.mp same
      exact .token ((Prod.mk.inj alike).1.trans kind) (ih sameRest)
  | rule _ admits _ ih ihLater =>
      rw [List.map_append] at same
      obtain ⟨front, behind, rfl, sameFront, sameBehind⟩ := List.map_eq_append_iff.mp same
      exact .rule (ih sameFront) (admits.of_heads sameFront) (ihLater sameBehind)
  | choice member _ _ ih ihLater =>
      rw [List.map_append] at same
      obtain ⟨front, behind, rfl, sameFront, sameBehind⟩ := List.map_eq_append_iff.mp same
      exact .choice member (ih sameFront) (ihLater sameBehind)
  | stop _ ih => exact .stop (ih same)
  | again _ _ ih ihLater =>
      rw [List.map_append] at same
      obtain ⟨front, behind, rfl, sameFront, sameBehind⟩ := List.map_eq_append_iff.mp same
      exact .again (ih sameFront) (ihLater sameBehind)

/-- Lexemes without a forest have one error. -/
theorem interpret_error {lexemes : List Lexeme} {error : ParseError}
    (fails : interpret lexemes = .error error) : error = .underivable := by
  unfold interpret at fails
  split at fails
  · cases fails
  · exact (Except.error.inj fails).symm

section Heads

variable {lexemes others : List Lexeme} (proper : ∀ lexeme ∈ lexemes, lexeme.Proper)
  (properOther : ∀ lexeme ∈ others, lexeme.Proper)
  (same : lexemes.map Lexeme.head = others.map Lexeme.head)

include proper properOther same

/-- Lexemes have a forest if others that agree with them in kind and value have one. -/
theorem exists_forest_of_heads {forest : Frame} (interprets : interpret lexemes = .ok forest) :
    ∃ other, interpret others = .ok other := by
  have derives := (derives_of_interpret proper interprets).of_heads same.symm
  obtain ⟨other, builds⟩ := derives.exists_forest properOther
  exact ⟨other, interpret_of_builds builds⟩

/-- **Lexemes that agree in kind and value have forests that are the same at one place**, or
none. -/
theorem interpret_relocate (place : Nat) :
    (interpret lexemes).map (Param.relocateAll fun _ => place) =
      (interpret others).map (Param.relocateAll fun _ => place) := by
  cases interprets : interpret lexemes with
  | ok forest =>
      obtain ⟨other, interpretsOther⟩ := exists_forest_of_heads proper properOther same interprets
      have built := ((interpret_eq_ok_iff proper forest).mp interprets).relocate fun _ => place
      have builtOther :=
        ((interpret_eq_ok_iff properOther other).mp interpretsOther).relocate fun _ => place
      rw [Lexeme.relocate_eq_of_heads place proper properOther same] at built
      have alike := (interpret_of_builds built).symm.trans (interpret_of_builds builtOther)
      rw [interpretsOther, Except.map, Except.map, Param.relocateAll_eq_map,
        Param.relocateAll_eq_map, Except.ok.inj alike]
  | error error =>
      cases interpretsOther : interpret others with
      | ok other =>
          obtain ⟨forest, interpreted⟩ :=
            exists_forest_of_heads properOther proper same.symm interpretsOther
          rw [interprets] at interpreted
          cases interpreted
      | error otherError => rw [interpret_error interprets, interpret_error interpretsOther]

end Heads

end Grammar

/-! ### Templates -/

namespace Template

/-- **Offsets do not matter where a forest is compiled.** -/
theorem ofForest_relocate (move : Nat → Nat) (forest : List Param) :
    ofForest (Param.relocateAll move forest) = ofForest forest := by
  have empty : ∀ params : List Param, (Param.relocateAll move params).isEmpty = params.isEmpty := by
    rintro (_ | _) <;> rfl
  have suffixes : ∀ params : List Param,
      (Param.relocateAll move params).mapM Param.compileSuffix =
        params.mapM Param.compileSuffix := by
    intro params
    rw [Param.relocateAll_eq_map, List.mapM_map]
    simp only [Function.comp_def, Param.compileSuffix_relocate]
  simp only [ofForest, Param.areInvocations_relocateAll, Param.takeWhile_relocateAll,
    Param.dropWhile_relocateAll, Param.checkSuffixes_relocateAll, empty,
    Param.declareAll_relocateAll, Param.compileChain_relocate, suffixes]

/-- A text compiles as its forest does with every lexeme at one place. -/
theorem ofText_eq_of_tokenize {text : String} {lexemes : List Lexeme} (place : Nat)
    (tokenizes : Lexeme.tokenize text = .ok lexemes) :
    ofText text =
      ((Grammar.interpret lexemes).map (Param.relocateAll fun _ => place)).mapError .unparsable
      >>= ofForest := by
  rw [ofText, Grammar.parse, tokenizes]
  show ((Grammar.interpret lexemes).mapError .unparsable >>= ofForest) = _
  cases Grammar.interpret lexemes with
  | error error => rfl
  | ok forest => exact (ofForest_relocate _ forest).symm

/-- **Texts whose lexemes agree in kind and value compile alike**: either both fail with the same
error, or both have the same template. So their runs are the same, whatever the offsets, the
spellings of keywords and the layout are. -/
theorem ofText_alike {first second : String} {lexemes others : List Lexeme}
    (tokenizes : Lexeme.tokenize first = .ok lexemes)
    (tokenizesOther : Lexeme.tokenize second = .ok others)
    (same : lexemes.map Lexeme.head = others.map Lexeme.head) :
    (∃ error, ofText first = .error error ∧ ofText second = .error error) ∨
      ∃ template, ofText first = .ok template ∧ ofText second = .ok template := by
  have proper := fun lexeme member => (Lexeme.tokenize_canonical tokenizes lexeme member).toProper
  have properOther := fun lexeme member =>
    (Lexeme.tokenize_canonical tokenizesOther lexeme member).toProper
  have alike : ofText first = ofText second := by
    rw [ofText_eq_of_tokenize 0 tokenizes, ofText_eq_of_tokenize 0 tokenizesOther,
      Grammar.interpret_relocate proper properOther same]
  cases compiles : ofText second with
  | error error => exact .inl ⟨error, alike.trans compiles, rfl⟩
  | ok template => exact .inr ⟨template, alike.trans compiles, rfl⟩

/-- An array of numbers in short keywords, and in long ones over two lines. -/
theorem ofText_alike_array :
    let lexemes :=
      [Lexeme.ofKind .array "array" 0, .ofKind .leftParen "(" 2, .ofKind .primitive "number" 3,
      .ofKind .rightParen ")" 5, .ofKind .metaSuffix "~meta" 6]
    let others := [Lexeme.ofKind .array "array" 0, .ofKind .leftParen "(" 6,
      .ofKind .primitive "number" 8, .ofKind .rightParen ")" 16, .ofKind .metaSuffix "~meta" 18]
    Lexeme.tokenize "@a(@n)~m" = .ok lexemes ∧
    Lexeme.tokenize "array ( @number )\n~meta" = .ok others ∧
    lexemes.map Lexeme.head = others.map Lexeme.head ∧
    ((∃ error, ofText "@a(@n)~m" = .error error ∧
        ofText "array ( @number )\n~meta" = .error error) ∨
      ∃ template, ofText "@a(@n)~m" = .ok template ∧
        ofText "array ( @number )\n~meta" = .ok template) := by
  intro lexemes others
  have tokenizes : Lexeme.tokenize "@a(@n)~m" = .ok lexemes := by cbv
  have tokenizesOther : Lexeme.tokenize "array ( @number )\n~meta" = .ok others := by cbv
  exact ⟨tokenizes, tokenizesOther, rfl, ofText_alike tokenizes tokenizesOther rfl⟩

end Template

end Schemata
