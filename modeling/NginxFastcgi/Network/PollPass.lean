import Mathlib.Data.List.ReduceOption
import NginxFastcgi.Foundation.Loop
import NginxFastcgi.Network.PollPool

/-!
# One pass over the waiting units

`DoOtherSomething` calls `DoSomething` on the units that wait in `m_poll_pres`.
A unit whose call returned `true` is erased, and so is a null pointer.  Where
the call returned `false` the iterator stays at the unit, so that the next turn
calls it again.

The iterator only moves by erasing what it points to, so it always points to
the first entry that is left.
-/

namespace NginxFastcgi.Network.PollPass

open Foundation.Loop

/-- What the calls of `DoSomething` return, in the order of the calls. -/
abbrev Outcomes := Nat → Bool

/-- The outcomes after the first one. -/
def Outcomes.later (outcomes : Outcomes) : Outcomes :=
  fun call => outcomes (call + 1)

structure Pass where
  /-- The list from the iterator on; `none` is `NULL`. -/
  mPollPres : List (Option UnitId)
  /-- The units whose `DoSomething` was called. -/
  called : List UnitId := []
  outcomes : Outcomes

/-- The loop of `DoOtherSomething`, which ends with the calls that were made and
the list that is left. -/
def doOtherSomething : Body Pass (List UnitId × List (Option UnitId))
  | pass =>
      match pass.mPollPres with
      | [] => some (.done (pass.called, []))
      | none :: rest => some (.again { pass with mPollPres := rest })
      | some preUnit :: rest =>
          some (.again
            { mPollPres := if pass.outcomes 0 then rest else some preUnit :: rest
              called := pass.called ++ [preUnit]
              outcomes := pass.outcomes.later })

/-- The units whose call returns `false`, when each of them is called once. -/
def refused : List UnitId → Outcomes → List UnitId
  | [], _ => []
  | unit :: units, outcomes =>
      if outcomes 0 then
        refused units outcomes.later
      else
        unit :: refused units outcomes.later

/-- The pass ends after one call of each unit, in the order of the list, and
leaves the units whose call returned `false`. -/
def CallsEachOnce (pres : List (Option UnitId)) (outcomes : Outcomes) : Prop :=
  Ends doOtherSomething { mPollPres := pres, outcomes := outcomes }
    (pres.reduceOption, (refused pres.reduceOption outcomes).map some)

/-- As many calls as there are units all return `true`. -/
def AllDone (pres : List (Option UnitId)) (outcomes : Outcomes) : Prop :=
  ∀ call < pres.reduceOption.length, outcomes call = true

variable {units : List UnitId} {pres : List (Option UnitId)} {outcomes : Outcomes}

theorem all_true_cons_iff {count : Nat} :
    (∀ call < count + 1, outcomes call = true) ↔
      outcomes 0 = true ∧ ∀ call < count, outcomes.later call = true := by
  constructor
  · intro all
    exact ⟨all 0 (Nat.zero_lt_succ count), fun call below =>
      all (call + 1) (Nat.succ_lt_succ below)⟩
  · rintro ⟨first, others⟩ call below
    cases call with
    | zero => exact first
    | succ call => exact others call (Nat.lt_of_succ_lt_succ below)

theorem refused_eq_nil (all : ∀ call < units.length, outcomes call = true) :
    refused units outcomes = [] := by
  induction units generalizing outcomes with
  | nil => rfl
  | cons unit units inductionHypothesis =>
      obtain ⟨first, others⟩ := all_true_cons_iff.mp all
      rw [refused, if_pos first]
      exact inductionHypothesis others

/-- A pass in which every call returns `true` empties the list. -/
theorem ends_of_allDone (done : AllDone pres outcomes) (called : List UnitId) :
    Ends doOtherSomething { mPollPres := pres, called := called, outcomes := outcomes }
      (called ++ pres.reduceOption, []) := by
  induction pres generalizing called outcomes with
  | nil =>
      rw [List.reduceOption_nil, List.append_nil]
      exact .done rfl
  | cons entry rest inductionHypothesis =>
      cases entry with
      | none =>
          unfold AllDone at done
          rw [List.reduceOption_cons_of_none] at done ⊢
          exact .again rfl (inductionHypothesis done called)
      | some unit =>
          unfold AllDone at done
          rw [List.reduceOption_cons_of_some] at done ⊢
          obtain ⟨first, others⟩ := all_true_cons_iff.mp done
          have turn : doOtherSomething
              { mPollPres := some unit :: rest, called := called, outcomes := outcomes } =
                some (.again
                  { mPollPres := rest
                    called := called ++ [unit]
                    outcomes := outcomes.later }) := by
            simp only [doOtherSomething, first, if_true]
          have ends := inductionHypothesis others (called ++ [unit])
          rw [List.append_assoc] at ends
          exact .again turn ends

/-- A pass that ends calls each unit, and one of them again for every call that
returned `false`. -/
theorem calls_of_ends {pass : Pass} {result : List UnitId × List (Option UnitId)}
    (ends : Ends doOtherSomething pass result) :
    pass.called.length + pass.mPollPres.reduceOption.length ≤ result.1.length ∧
      (result.1.length = pass.called.length + pass.mPollPres.reduceOption.length →
        AllDone pass.mPollPres pass.outcomes) := by
  induction ends with
  | @done pass result bodyEq =>
      obtain ⟨pres, called, outcomes⟩ := pass
      cases pres with
      | nil =>
          cases bodyEq
          exact ⟨Nat.le_refl _, fun _ call below => absurd below (Nat.not_lt_zero call)⟩
      | cons entry rest => cases entry <;> exact nomatch bodyEq
  | @again pass next result bodyEq _ inductionHypothesis =>
      obtain ⟨pres, called, outcomes⟩ := pass
      obtain ⟨atLeast, exact⟩ := inductionHypothesis
      cases pres with
      | nil => exact nomatch bodyEq
      | cons entry rest =>
          cases entry with
          | none =>
              cases bodyEq
              unfold AllDone at exact ⊢
              rw [List.reduceOption_cons_of_none]
              exact ⟨atLeast, exact⟩
          | some unit =>
              cases bodyEq
              unfold AllDone at exact ⊢
              simp only [List.length_append, List.reduceOption_cons_of_some,
                List.length_cons] at atLeast exact ⊢
              cases first : outcomes 0 with
              | true =>
                  simp only [first, if_true] at atLeast exact
                  refine ⟨by omega, fun lengthEq => ?_⟩
                  exact all_true_cons_iff.mpr ⟨first, exact (by omega)⟩
              | false =>
                  simp only [first, Bool.false_eq_true, if_false,
                    List.reduceOption_cons_of_some, List.length_cons] at atLeast
                  exact ⟨by omega, fun lengthEq => by omega⟩

/-- One pass calls each unit once, and leaves those that are not done, exactly
when all of them are done. -/
theorem callsEachOnce_iff (pres : List (Option UnitId)) (outcomes : Outcomes) :
    CallsEachOnce pres outcomes ↔ AllDone pres outcomes := by
  constructor
  · intro ends
    apply (calls_of_ends ends).2
    rw [List.length_nil, Nat.zero_add]
  · intro done
    have ends := ends_of_allDone done []
    rw [List.nil_append] at ends
    rw [CallsEachOnce, refused_eq_nil done]
    exact ends

/-- Two units that are done, and a null pointer between them. -/
example : CallsEachOnce [some 3, none, some 5] fun _ => true :=
  ends_iff.mpr ⟨4, rfl⟩

/-- A unit that cannot reconnect is called for ever. -/
theorem not_callsEachOnce : ¬ CallsEachOnce [some 0, some 1] fun _ => false := by
  apply Ends.not_of_forever
    (fun pass => pass.mPollPres = [some 0, some 1] ∧ pass.outcomes = fun _ => false)
  · rintro ⟨pres, called, outcomes⟩ ⟨rfl, rfl⟩
    exact ⟨_, rfl, rfl, rfl⟩
  · exact ⟨rfl, rfl⟩

end NginxFastcgi.Network.PollPass
