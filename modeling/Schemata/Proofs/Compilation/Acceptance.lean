/-
**The compiler accepts every dependency of a template.**

While the compiler goes into objects it keeps the fields around it as scopes. The same scopes are
found again in the compiled steps, from the names and the positions of the fields.

* `Step.Accepted` says that the scopes accept every dependency inside a step;
* `Invocation.compile_accepted`: this holds of every compiled step.
-/

import Schemata.Proofs.Compilation.Inversion

namespace Schemata

mutual

/-- **The scopes around a step accept every dependency inside it.** -/
def Step.Accepted (scopes : List Scope) : Step → Prop
  | .comparison _ (.field name) _ | .lengthComparison _ (.field name) _ =>
    Scope.resolve name scopes = .ok ()
  | .object fields _ => Field.AllAccepted scopes (fields.map Field.name) 0 fields
  | .array chain _ | .define _ chain => Step.ChainAccepted scopes chain
  | _ => True

/-- The scopes around a chain accept every dependency inside it. -/
def Step.ChainAccepted (scopes : List Scope) : List Step → Prop
  | [] => True
  | step :: rest => step.Accepted scopes ∧ Step.ChainAccepted scopes rest

/-- The scopes around an object with these names accept every dependency inside its fields, from the
field of a position on. -/
def Field.AllAccepted (scopes : List Scope) (names : List String) (position : Nat) :
    List Field → Prop
  | [] => True
  | .mk _ chain _ :: rest =>
    Step.ChainAccepted (⟨names, position⟩ :: scopes) chain ∧
      Field.AllAccepted scopes names (position + 1) rest

end

theorem Step.chainAccepted_append {scopes : List Scope} {first second : List Step}
    (firstAccepted : ChainAccepted scopes first) (secondAccepted : ChainAccepted scopes second) :
    ChainAccepted scopes (first ++ second) := by
  induction first with
  | nil => exact secondAccepted
  | cons step rest ih => exact ⟨firstAccepted.1, ih firstAccepted.2⟩

/-- A check is accepted if the field is that it depends on. -/
theorem Step.accepted_of_isCheck {scopes : List Scope} {step : Step} (check : step.isCheck)
    (accepted : ∀ name, step.dependency? = some name → Scope.resolve name scopes = .ok ()) :
    step.Accepted scopes := by
  cases step with
  | object _ _ | array _ _ | call _ | define _ _ => cases check
  | comparison relation bound tag | lengthComparison relation bound tag =>
      cases bound with
      | field name => exact accepted name rfl
      | _ => trivial
  | _ => trivial

section Compiled

variable {names : List String}

mutual

/-- **A compiled step is accepted by the scopes that it was compiled with.** -/
theorem Invocation.compile_accepted : (invocation : Invocation) →
    ∀ (scopes : List Scope) (step : Step), invocation.compile names scopes = .ok step →
      step.Accepted scopes
  | .mk validator params tag => by
      have chainAccepted := Param.compileChain_accepted params
      have fieldsAccepted := Param.compileFields_accepted params
      intro scopes step compiles
      cases Invocation.compiles_of_ok compiles with
      | check checks => exact Step.accepted_of_isCheck checks.spec.1 checks.spec.2
      | object declares steps =>
          have named : _ = _ := (Param.declaredFields_eq declares).trans
            (Param.compileFields_names steps).symm
          subst named
          exact (fieldsAccepted _ _ _ _ _ _ steps).2
      | array _ steps => exact chainAccepted _ _ steps
      | definition named _ _ _ steps =>
          exact chainAccepted _ _ ((Param.compileChain_of_named named).trans steps)
      | reference _ _ => trivial

theorem Param.compileChain_accepted : (params : List Param) →
    ∀ (scopes : List Scope) (chain : List Step),
      Param.compileChain names scopes params = .ok chain → Step.ChainAccepted scopes chain
  | [] => by
      intro scopes chain compiles
      cases compiles
      trivial
  | param :: rest => by
      intro scopes chain compiles
      rw [Param.compileChain] at compiles
      obtain ⟨steps, first, inner⟩ := bind_eq_ok.mp compiles
      obtain ⟨others, second, same⟩ := bind_eq_ok.mp inner
      cases same
      exact Step.chainAccepted_append (Param.compileOne_accepted param _ _ first)
        (Param.compileChain_accepted rest _ _ second)

theorem Param.compileOne_accepted : (param : Param) →
    ∀ (scopes : List Scope) (steps : List Step),
      Param.compileOne names scopes param = .ok steps → Step.ChainAccepted scopes steps
  | .validator invocation => by
      intro scopes steps compiles
      rw [Param.compileOne] at compiles
      obtain ⟨step, inner, same⟩ := bind_eq_ok.mp compiles
      cases same
      exact ⟨Invocation.compile_accepted invocation _ _ inner, trivial⟩
  | .token _ | .text _ | .injection _ | .comparison _ => by
      intro scopes steps compiles
      cases compiles
      trivial

theorem Param.compileFields_accepted : (params : List Param) →
    ∀ (scopes : List Scope) (declared referenced : List String) (started : Nat)
      (first : List Step) (fields : List Field),
      Param.compileFields names scopes declared referenced started params = .ok (first, fields) →
      Step.ChainAccepted (⟨declared, started - 1⟩ :: scopes) first ∧
        Field.AllAccepted scopes declared started fields
  | [] => by
      intro scopes declared referenced started first fields compiles
      cases compiles
      exact ⟨trivial, trivial⟩
  | param :: rest => by
      intro scopes declared referenced started first fields compiles
      rw [Param.compileFields] at compiles
      split at compiles
      · obtain ⟨⟨steps, others⟩, inner, same⟩ := bind_eq_ok.mp compiles
        cases same
        exact ⟨trivial, Param.compileFields_accepted rest _ _ _ _ _ _ inner⟩
      · obtain ⟨one, first, inner⟩ := bind_eq_ok.mp compiles
        obtain ⟨⟨steps, others⟩, second, same⟩ := bind_eq_ok.mp inner
        cases same
        obtain ⟨stepsAccepted, fieldsAccepted⟩ :=
          Param.compileFields_accepted rest _ _ _ _ _ _ second
        exact ⟨Step.chainAccepted_append (Param.compileOne_accepted param _ _ first) stepsAccepted,
          fieldsAccepted⟩

end

end Compiled

end Schemata
