/-!
# Labelled partial transitions

A step function takes a state and a label and returns the next state, or
`none` where the label is not enabled.  A label carries whatever the
environment decides, so that a step is a function and a finite run can be
evaluated.

`Reachable` is relative to a predicate on the state before a step and its
label.  The predicate restricts the environment, or states the condition under
which a step is known to behave; the trivial predicate gives every run.

`Always` and `EachStep` speak about one list of labels, so that a condition on
the steps of a run can be compared with what holds in its states.
-/

namespace Foundation.Transition

universe u v

/-- A partial transition labelled by what the environment chooses. -/
abbrev Step (σ : Type u) (ℓ : Type v) := σ → ℓ → Option σ

variable {σ : Type u} {ℓ : Type v}

/-- States reached from `start` by runs all of whose steps are allowed. -/
inductive Reachable (next : Step σ ℓ) (allowed : σ → ℓ → Prop) (start : σ) : σ → Prop
  | refl : Reachable next allowed start start
  | tail {middle target : σ} :
      Reachable next allowed start middle →
      (label : ℓ) →
      allowed middle label →
      next middle label = some target →
      Reachable next allowed start target

/-- Execute a finite list of labels.  A label that is not enabled makes the
whole execution fail. -/
def execute (next : Step σ ℓ) : List ℓ → σ → Option σ
  | [], state => some state
  | label :: labels, state => (next state label).bind (execute next labels)

theorem execute_append {next : Step σ ℓ} (first second : List ℓ) (state : σ) :
    execute next (first ++ second) state =
      (execute next first state).bind (execute next second) := by
  induction first generalizing state with
  | nil => rfl
  | cons label first inductionHypothesis =>
      rw [List.cons_append, execute, execute, Option.bind_assoc]
      exact Option.bind_congr fun middle _ => inductionHypothesis middle

/-- The step function that checks whether a step is allowed. -/
def restrict (next : Step σ ℓ) (allowed : σ → ℓ → Prop)
    [∀ state label, Decidable (allowed state label)] : Step σ ℓ :=
  fun state label => if allowed state label then next state label else none

theorem restrict_eq_some {next : Step σ ℓ} {allowed : σ → ℓ → Prop}
    [∀ state label, Decidable (allowed state label)] {state after : σ} {label : ℓ}
    (stepEq : restrict next allowed state label = some after) :
    allowed state label ∧ next state label = some after := by
  unfold restrict at stepEq
  split at stepEq
  · rename_i permitted
    exact ⟨permitted, stepEq⟩
  · contradiction

namespace Reachable

variable {next : Step σ ℓ} {allowed weaker : σ → ℓ → Prop} {start middle target : σ}

/-- An invariant that holds at the start and survives every allowed step holds
in every reachable state. -/
theorem invariant {holds : σ → Prop} (initial : holds start)
    (preserved : ∀ state label after, holds state → allowed state label →
      next state label = some after → holds after)
    (reachable : Reachable next allowed start target) : holds target := by
  induction reachable with
  | refl => exact initial
  | tail _ label permitted stepEq held => exact preserved _ label _ held permitted stepEq

theorem trans (first : Reachable next allowed start middle)
    (second : Reachable next allowed middle target) :
    Reachable next allowed start target := by
  induction second with
  | refl => exact first
  | tail _ label permitted stepEq inductionHypothesis =>
      exact tail inductionHypothesis label permitted stepEq

/-- Runs allowed by a stronger predicate are allowed by a weaker one. -/
theorem mono (weaken : ∀ state label, allowed state label → weaker state label)
    (reachable : Reachable next allowed start target) :
    Reachable next weaker start target := by
  induction reachable with
  | refl => exact refl
  | tail _ label permitted stepEq inductionHypothesis =>
      exact tail inductionHypothesis label (weaken _ _ permitted) stepEq

/-- An execution in which every step was checked is a run. -/
theorem of_execute [∀ state label, Decidable (allowed state label)] {labels : List ℓ}
    (executed : execute (restrict next allowed) labels start = some target) :
    Reachable next allowed start target := by
  induction labels generalizing start with
  | nil =>
      cases executed
      exact refl
  | cons label labels inductionHypothesis =>
      obtain ⟨after, stepEq, rest⟩ := Option.bind_eq_some_iff.mp executed
      obtain ⟨permitted, stepEq⟩ := restrict_eq_some stepEq
      have head : Reachable next allowed start after :=
        tail refl label permitted stepEq
      exact head.trans (inductionHypothesis rest)

end Reachable

/-! ## One list of labels -/

/-- The predicate holds now and after every step the labels take. -/
def Always (next : Step σ ℓ) (holds : σ → Prop) : List ℓ → σ → Prop
  | [], state => holds state
  | label :: labels, state =>
      holds state ∧ ∀ after, next state label = some after → Always next holds labels after

/-- Every step the labels take meets the condition. -/
def EachStep (next : Step σ ℓ) (condition : σ → ℓ → Prop) : List ℓ → σ → Prop
  | [], _ => True
  | label :: labels, state =>
      ∀ after, next state label = some after →
        condition state label ∧ EachStep next condition labels after

theorem eachStep_of_none {next : Step σ ℓ} {condition : σ → ℓ → Prop} {label : ℓ}
    {labels : List ℓ} {state : σ} (blocked : next state label = none) :
    EachStep next condition (label :: labels) state := by
  intro after stepEq
  rw [blocked] at stepEq
  contradiction

theorem eachStep_iff_of_some {next : Step σ ℓ} {condition : σ → ℓ → Prop} {label : ℓ}
    {labels : List ℓ} {state after : σ} (stepEq : next state label = some after) :
    EachStep next condition (label :: labels) state ↔
      condition state label ∧ EachStep next condition labels after := by
  constructor
  · intro each
    exact each after stepEq
  · intro both other otherEq
    cases stepEq.symm.trans otherEq
    exact both

/-- A condition that can be checked can be checked along a list of labels. -/
instance EachStep.decidable (next : Step σ ℓ) (condition : σ → ℓ → Prop)
    [∀ state label, Decidable (condition state label)] :
    ∀ (labels : List ℓ) (state : σ), Decidable (EachStep next condition labels state)
  | [], _ => isTrue trivial
  | label :: labels, state =>
      match stepEq : next state label with
      | none => isTrue (eachStep_of_none stepEq)
      | some after =>
          have := EachStep.decidable next condition labels after
          decidable_of_iff' _ (eachStep_iff_of_some stepEq)

theorem EachStep.of_forall {next : Step σ ℓ} {condition : σ → ℓ → Prop} {labels : List ℓ}
    (meets : ∀ label ∈ labels, ∀ state, condition state label) (state : σ) :
    EachStep next condition labels state := by
  induction labels generalizing state with
  | nil => trivial
  | cons label labels inductionHypothesis =>
      intro after _
      exact ⟨meets label List.mem_cons_self state,
        inductionHypothesis (fun other member => meets other (List.mem_cons_of_mem _ member))
          after⟩

theorem Always.now {next : Step σ ℓ} {holds : σ → Prop} {labels : List ℓ} {state : σ}
    (always : Always next holds labels state) : holds state := by
  cases labels with
  | nil => exact always
  | cons label labels => exact always.1

theorem Always.after {next : Step σ ℓ} {holds : σ → Prop} {labels : List ℓ} {state target : σ}
    (always : Always next holds labels state) (runs : execute next labels state = some target) :
    holds target := by
  induction labels generalizing state with
  | nil =>
      cases runs
      exact always
  | cons label labels inductionHypothesis =>
      obtain ⟨middle, stepEq, rest⟩ := Option.bind_eq_some_iff.mp runs
      exact inductionHypothesis (always.2 middle stepEq) rest

theorem Always.mono {next : Step σ ℓ} {stronger holds : σ → Prop} {labels : List ℓ} {state : σ}
    (weaken : ∀ state, stronger state → holds state)
    (always : Always next stronger labels state) : Always next holds labels state := by
  induction labels generalizing state with
  | nil => exact weaken state always
  | cons label labels inductionHypothesis =>
      exact ⟨weaken state always.1, fun after stepEq =>
        inductionHypothesis (always.2 after stepEq)⟩

/-- An invariant that survives the steps which meet the condition holds all
along a run of such steps. -/
theorem always_of_eachStep {next : Step σ ℓ} {holds : σ → Prop} {condition : σ → ℓ → Prop}
    (preserved : ∀ state label after, holds state → condition state label →
      next state label = some after → holds after)
    {labels : List ℓ} {state : σ} (held : holds state)
    (each : EachStep next condition labels state) : Always next holds labels state := by
  induction labels generalizing state with
  | nil => exact held
  | cons label labels inductionHypothesis =>
      refine ⟨held, fun after stepEq => ?_⟩
      obtain ⟨meets, meetsRest⟩ := each after stepEq
      exact inductionHypothesis (preserved state label after held meets stepEq) meetsRest

/-- Where one step keeps the predicate exactly when it meets the condition, the
predicate holds all along exactly when every step meets the condition. -/
theorem always_iff_eachStep {next : Step σ ℓ} {keeps holds : σ → Prop}
    {allowed condition : σ → ℓ → Prop}
    (exact_step : ∀ state label after, keeps state → holds state → allowed state label →
      next state label = some after → keeps after ∧ (holds after ↔ condition state label))
    {labels : List ℓ} {state : σ} (kept : keeps state) (held : holds state)
    (permitted : EachStep next allowed labels state) :
    Always next holds labels state ↔ EachStep next condition labels state := by
  induction labels generalizing state with
  | nil => exact iff_of_true held trivial
  | cons label labels inductionHypothesis =>
      constructor
      · rintro ⟨-, later⟩ after stepEq
        obtain ⟨allowedStep, allowedRest⟩ := permitted after stepEq
        obtain ⟨keptAfter, exactly⟩ := exact_step state label after kept held allowedStep stepEq
        have heldAfter := (later after stepEq).now
        exact ⟨exactly.mp heldAfter,
          (inductionHypothesis keptAfter heldAfter allowedRest).mp (later after stepEq)⟩
      · intro each
        refine ⟨held, fun after stepEq => ?_⟩
        obtain ⟨allowedStep, allowedRest⟩ := permitted after stepEq
        obtain ⟨meets, meetsRest⟩ := each after stepEq
        obtain ⟨keptAfter, exactly⟩ := exact_step state label after kept held allowedStep stepEq
        have heldAfter := exactly.mpr meets
        exact (inductionHypothesis keptAfter heldAfter allowedRest).mpr meetsRest

/-- Where every label may be taken. -/
theorem always_iff_eachStep_of_exact {next : Step σ ℓ} {keeps holds : σ → Prop}
    {condition : σ → ℓ → Prop}
    (exact_step : ∀ state label after, keeps state → holds state →
      next state label = some after → keeps after ∧ (holds after ↔ condition state label))
    {labels : List ℓ} {state : σ} (kept : keeps state) (held : holds state) :
    Always next holds labels state ↔ EachStep next condition labels state := by
  apply always_iff_eachStep (fun state label after kept held _ => exact_step state label after
    kept held) kept held
  exact EachStep.of_forall (fun _ _ _ => trivial) state

end Foundation.Transition
