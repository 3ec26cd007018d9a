/-!
# Deterministic machines that emit

Every step of the machine emits one event.  A run is the list of the events it
emitted; as the machine has no choice, a run that ended extends every other run
from its start.
-/

namespace Foundation.Emission

universe u v

/-- The next state and the event emitted on the way, `none` at the end. -/
abbrev Machine (σ : Type u) (ε : Type v) := σ → Option (ε × σ)

variable {σ : Type u} {ε : Type v} {next : Machine σ ε}

inductive Runs (next : Machine σ ε) : σ → List ε → σ → Prop
  | refl (state : σ) : Runs next state [] state
  | head {start middle target : σ} {event : ε} {events : List ε} :
      next start = some (event, middle) →
      Runs next middle events target →
      Runs next start (event :: events) target

namespace Runs

variable {start middle target final : σ} {event : ε} {events more : List ε}

theorem single (stepEq : next start = some (event, target)) : Runs next start [event] target :=
  head stepEq (refl target)

theorem trans (first : Runs next start events middle) (second : Runs next middle more target) :
    Runs next start (events ++ more) target := by
  induction first with
  | refl => exact second
  | head stepEq _ inductionHypothesis => exact head stepEq (inductionHypothesis second)

/-- A run that ended continues every run from its start. -/
theorem continues (ended : next final = none) (whole : Runs next start events final)
    (part : Runs next start more middle) :
    ∃ rest, events = more ++ rest ∧ Runs next middle rest final := by
  induction part generalizing events with
  | refl => exact ⟨events, rfl, whole⟩
  | head stepEq _ inductionHypothesis =>
      cases whole with
      | refl =>
          rw [ended] at stepEq
          contradiction
      | head wholeEq rest =>
          cases wholeEq.symm.trans stepEq
          obtain ⟨left, eventsEq, continued⟩ := inductionHypothesis rest
          exact ⟨left, congrArg (_ :: ·) eventsEq, continued⟩

/-- A state with no step left is the last one. -/
theorem eq_of_ended (ended : next start = none) (runs : Runs next start events target) :
    target = start ∧ events = [] := by
  cases runs with
  | refl => exact ⟨rfl, rfl⟩
  | head stepEq _ =>
      rw [ended] at stepEq
      contradiction

end Runs

end Foundation.Emission
