/-
**What suffixes make of a schema.**

The suffixes behind a text are put around what it compiles to, the first one innermost, and each
does there what a combinator does around a validator (`Template.validate_eq_foldl`). One that runs
apart starts from no metadata and gives those of its caller back, whether one that collects stands
inside it or around it, so the two may change places.

* `Validator.apart_collecting` and `Validator.apart_apart`: what validators around a validator come
  to;
* `Suffix.Rearranges`: suffixes of which neighbours are exchanged and repetitions left out;
* `Template.ofText_suffixes`: what a text with suffixes does, and that rearranging them changes
  nothing.
-/

import Mathlib
import Schemata.Proofs.Compilation.Suffix
import Schemata.Template.Evaluation

namespace Schemata

/-! ### Validators around validators -/

namespace Validator

/-- **Collecting inside metadata of its own** collects the same, and leaves the same metadata. -/
theorem apart_collecting (processor : Option Injected) (inner : Validator) :
    (inner.collecting processor).apart = inner.apart.collecting processor := by
  funext value known
  rw [apart_apply, collecting_apply, collecting_apply, apart_apply, Option.map_map, Option.map_map]
  rfl

/-- Metadata inside metadata of its own are the same. -/
theorem apart_apart (inner : Validator) : inner.apart.apart = inner.apart := by
  funext value known
  rw [apart_apply, apart_apply, apart_apply, Option.map_map]
  rfl

end Validator

/-! ### Rearranged suffixes -/

namespace Suffix

/-- **Suffixes that are rearranged**: one that collects changes places with a neighbour that runs
apart, or one that runs apart is repeated, any number of times. -/
inductive Rearranges : List Suffix → List Suffix → Prop
  | refl (suffixes : List Suffix) : Rearranges suffixes suffixes
  | exchange (before after : List Suffix) (processor : Option Nat) :
      Rearranges (before ++ .collecting processor :: .apart :: after)
        (before ++ .apart :: .collecting processor :: after)
  | repeated (before after : List Suffix) :
      Rearranges (before ++ .apart :: .apart :: after) (before ++ .apart :: after)
  | symm {suffixes others : List Suffix} (rearranges : Rearranges suffixes others) :
      Rearranges others suffixes
  | trans {suffixes middle others : List Suffix} (first : Rearranges suffixes middle)
      (second : Rearranges middle others) : Rearranges suffixes others

namespace Rearranges

variable {suffixes others : List Suffix}

/-- The same suffixes occur. -/
theorem mem_iff (rearranges : Rearranges suffixes others) (suffix : Suffix) :
    suffix ∈ suffixes ↔ suffix ∈ others := by
  induction rearranges with
  | refl => rfl
  | exchange before after processor =>
      simp only [List.mem_append, List.mem_cons]
      exact or_congr_right or_left_comm
  | repeated before after => simp
  | symm _ ih => exact ih.symm
  | trans _ _ ih ihLater => exact ih.trans ihLater

/-- **Rearranged suffixes make the same of a validator.** -/
theorem foldl_combinator (rearranges : Rearranges suffixes others) (bindings : Bindings)
    (inner : Validator) :
    suffixes.foldl (fun inner suffix => suffix.combinator bindings inner) inner =
      others.foldl (fun inner suffix => suffix.combinator bindings inner) inner := by
  induction rearranges with
  | refl => rfl
  | exchange before after processor =>
      simp only [List.foldl_append, List.foldl_cons, combinator, Validator.apart_collecting]
  | repeated before after =>
      simp only [List.foldl_append, List.foldl_cons, combinator, Validator.apart_apart]
  | symm _ ih => exact ih.symm
  | trans _ _ ih ihLater => exact ih.trans ihLater

end Rearranges

end Suffix

/-! ### Texts with suffixes -/

namespace Template

/-- **A text with suffixes behind it is validated by what the suffixes make of its validator**, one
after the other. Rearranging the suffixes changes neither that nor anything else that is known of
the template. -/
theorem ofText_suffixes {text : String} {template : Template}
    (compiles : ofText text = .ok template) (plain : template.suffixes = [])
    {suffixes : List Suffix} (writable : ∀ suffix ∈ suffixes, suffix.Writable) :
    ∃ suffixed, ofText (text ++ Suffix.textOfAll suffixes) = .ok suffixed ∧
      (∀ bindings, suffixed.validate bindings =
        suffixes.foldl (fun inner suffix => match suffix with
          | .collecting none => inner.collecting none
          | .collecting (some index) => inner.collecting (bindings.injection? index)
          | .apart => inner.apart) (template.validate bindings)) ∧
      ∀ others, Suffix.Rearranges suffixes others →
        ∃ other, ofText (text ++ Suffix.textOfAll others) = .ok other ∧
          other.validate = suffixed.validate ∧ other.collectsErrors = suffixed.collectsErrors ∧
          other.schemaCount = suffixed.schemaCount := by
  have compiled := @ofText_append_suffixes _ _ compiles
  rw [plain] at compiled
  refine ⟨_, compiled writable, fun bindings => ?_, fun others rearranges => ?_⟩
  · rw [validate_of_plain plain, validate_eq_foldl]
    refine congrArg (fun around => suffixes.foldl around _)
      (funext fun inner => funext fun suffix => ?_)
    rcases suffix with (_ | _) | _ <;> rfl
  · have writableOthers : ∀ suffix ∈ others, suffix.Writable :=
      fun suffix member => writable suffix ((rearranges.mem_iff suffix).mpr member)
    refine ⟨_, compiled writableOthers, funext fun bindings => ?_, ?_, rfl⟩
    · rw [validate_eq_foldl, validate_eq_foldl]
      exact (rearranges.foldl_combinator bindings _).symm
    · rw [collectsErrors, collectsErrors, Bool.eq_iff_iff, List.any_eq_true, List.any_eq_true]
      exact exists_congr fun suffix => and_congr_left' (rearranges.mem_iff suffix).symm

/-- A number with its failures collected, apart and then processed again, and the same
rearranged. -/
theorem ofText_suffixes_of_number : ∃ suffixed,
    ofText ("@n" ++ Suffix.textOfAll [.collecting none, .apart, .collecting (some 0)]) =
        .ok suffixed ∧
      (∀ bindings, suffixed.validate bindings =
        (((validate ⟨[.primitive .number none], [], []⟩ bindings).collecting none).apart).collecting
          (bindings.injection? 0)) ∧
      ∃ other, ofText ("@n" ++
          Suffix.textOfAll [.apart, .apart, .collecting none, .collecting (some 0)]) = .ok other ∧
        other.validate = suffixed.validate ∧ other.collectsErrors = suffixed.collectsErrors ∧
        other.schemaCount = suffixed.schemaCount := by
  have compiles : ofText "@n" = .ok ⟨[.primitive .number none], [], []⟩ := by cbv
  have writable : ∀ suffix ∈ [Suffix.collecting none, .apart, .collecting (some 0)],
      suffix.Writable := by
    exact List.forall_mem_cons.mpr ⟨trivial, List.forall_mem_cons.mpr ⟨trivial,
      List.forall_mem_singleton.mpr (Nat.two_pow_pos 64)⟩⟩
  obtain ⟨suffixed, compiled, validated, rearranged⟩ := ofText_suffixes compiles rfl writable
  exact ⟨suffixed, compiled, validated, rearranged _
    ((Suffix.Rearranges.exchange [] _ none).trans (Suffix.Rearranges.repeated [] _).symm)⟩

end Template

end Schemata
