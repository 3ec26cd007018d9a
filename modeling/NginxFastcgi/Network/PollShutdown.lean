import Mathlib.Data.Nat.Count
import NginxFastcgi.Foundation.Loop
import NginxFastcgi.Network.PollOwners

/-!
# Shutting a pool down

`UnInit` detaches the first unit until the pool has none.  It does not look at
the result of `DetachUnit`, which leaves the pool as it is where `epoll_ctl`
fails and where the descriptor of the unit is not the one it was attached
under.
-/

namespace NginxFastcgi.Network.PollShutdown

open Foundation.Loop
open Foundation.ObjectIndex
open Foundation.Transition
open PollOwners

/-- `CTcpClient::Close`, also of a unit that is attached. -/
def closeClient (state : State) (id : UnitId) : Option State :=
  (state.units.lookup id).map fun unit =>
    if unit.mFd > 0 then
      { state with units := state.units.insert id { unit with mFd := -1 } }
    else
      state

/-- What the calls of `epoll_ctl` return, one for each turn of the loop. -/
abbrev Results := Nat → Bool

/-- The loop of `UnInit`; the result `none` is a call through the pointer to a
destroyed unit. -/
def unInit : Body (State × Results) State
  | (state, results) =>
      match state.pool.mPollUnits.first with
      | none => some (.done state)
      | some id =>
          (state.detachUnit id (results 0)).map fun next =>
            .again (next, fun call => results (call + 1))

/-- `UnInit` ends, with no unit in the pool and no owner in any unit that was
in it. -/
def ShutsDown (state : State) (results : Results) : Prop :=
  ∃ after, Ends unInit (state, results) after ∧ after.pool.mPollUnits = ∅ ∧
    ∀ fd id, state.pool.mPollUnits.lookup fd = some id →
      ∃ unit, after.units.lookup id = some unit ∧ unit.mOwner = none

/-- Every unit in the pool lives, and has the descriptor it is in the pool
under. -/
def Attached (state : State) : Prop :=
  ∀ fd id, state.pool.mPollUnits.lookup fd = some id →
    ∃ unit, state.units.lookup id = some unit ∧ unit.mFd = fd

/-- As many calls succeed as there are units in the pool. -/
def EnoughSucceed (state : State) (results : Results) : Prop :=
  ∃ calls, state.pool.mPollUnits.size ≤ Nat.count (fun call => results call = true) calls

variable {state after : State} {results : Results} {id : UnitId}

/-! ## One turn -/

/-- What a turn does to the first unit. -/
theorem turn_cases (first : state.pool.mPollUnits.first = some id) {next : State × Results}
    (turn : unInit (state, results) = some (.again next)) :
    next.2 = (fun call => results (call + 1)) ∧
      state.detachUnit id (results 0) = some next.1 := by
  simp only [unInit, first] at turn
  obtain ⟨detached, detachEq, againEq⟩ := Option.map_eq_some_iff.mp turn
  cases againEq
  exact ⟨rfl, detachEq⟩

/-- A turn that succeeds takes the first unit out. -/
theorem detachUnit_first (attached : Attached state)
    (first : state.pool.mPollUnits.first = some id) (deleted : Bool) :
    ∃ fd unit next, state.pool.mPollUnits.lookup fd = some id ∧
      state.units.lookup id = some unit ∧ state.detachUnit id deleted = some next ∧
      (deleted = true ∧
          next.pool = { state.pool with mPollUnits := state.pool.mPollUnits.erase fd } ∧
          (fun other => next.units.lookup other) =
            Function.update (fun other => state.units.lookup other) id
              (some { unit with mOwner := none }) ∨
        deleted = false ∧ next.pool = state.pool ∧
          (fun other => next.units.lookup other) = fun other => state.units.lookup other) := by
  obtain ⟨fd, entry⟩ := FdMap.lookup_of_first_eq_some first
  obtain ⟨unit, found, rfl⟩ := attached fd id entry
  obtain ⟨next, detached⟩ : ∃ next, state.detachUnit id deleted = some next := by
    rw [State.detachUnit, found]
    exact ⟨_, rfl⟩
  refine ⟨unit.mFd, unit, next, entry, found, detached, ?_⟩
  obtain ⟨unit', foundAgain, ⟨isDeleted, poolEq, unitsEq, -⟩ | ⟨refused, poolEq, unitsEq⟩⟩ :=
    detachUnit_cases detached
  · cases found.symm.trans foundAgain
    exact Or.inl ⟨isDeleted, poolEq, unitsEq⟩
  · cases found.symm.trans foundAgain
    refine Or.inr ⟨refused.resolve_right ?_, poolEq, unitsEq⟩
    rw [entry]
    exact nofun

/-- Units stay, and one without an owner does not get one. -/
def OwnersDropped (before after : State) : Prop :=
  ∀ id unit, before.units.lookup id = some unit →
    ∃ unit', after.units.lookup id = some unit' ∧ unit'.mFd = unit.mFd ∧
      (unit.mOwner = none → unit'.mOwner = none)

theorem OwnersDropped.refl_of_lookup {before after : State}
    (same : (fun other => after.units.lookup other) = fun other => before.units.lookup other) :
    OwnersDropped before after := by
  intro id unit found
  exact ⟨unit, (congrFun same id).trans found, rfl, fun owner => owner⟩

theorem OwnersDropped.trans {before middle after : State} (first : OwnersDropped before middle)
    (second : OwnersDropped middle after) : OwnersDropped before after := by
  intro id unit found
  obtain ⟨unit', foundMiddle, sameFd, dropped⟩ := first id unit found
  obtain ⟨unit'', foundAfter, sameFd', dropped'⟩ := second id unit' foundMiddle
  exact ⟨unit'', foundAfter, sameFd'.trans sameFd, fun owner => dropped' (dropped owner)⟩

theorem OwnersDropped.of_detached {before after : State} {unit : CPollUnit}
    (found : before.units.lookup id = some unit)
    (unitsEq : (fun other => after.units.lookup other) =
      Function.update (fun other => before.units.lookup other) id
        (some { unit with mOwner := none })) : OwnersDropped before after := by
  intro other unit' foundOther
  rw [congrFun unitsEq other, Function.update_apply]
  split
  · rename_i same
    rw [same, found] at foundOther
    cases foundOther
    exact ⟨_, rfl, rfl, fun _ => rfl⟩
  · exact ⟨unit', foundOther, rfl, fun owner => owner⟩

section Next

variable {next : State} {fd : Int}

/-- The units that remain are attached as before. -/
theorem Attached.erase (attached : Attached state)
    (poolEq : next.pool = { state.pool with mPollUnits := state.pool.mPollUnits.erase fd })
    (dropped : OwnersDropped state next) : Attached next := by
  intro other id entry
  rw [poolEq] at entry
  obtain ⟨-, entry⟩ := FdMap.lookup_erase_iff.mp entry
  obtain ⟨unit, found, fdEq⟩ := attached other id entry
  obtain ⟨unit', foundNext, sameFd, -⟩ := dropped id unit found
  exact ⟨unit', foundNext, sameFd.trans fdEq⟩

theorem attached_congr (poolEq : next.pool = state.pool)
    (unitsEq : (fun other => next.units.lookup other) = fun other => state.units.lookup other) :
    Attached next ↔ Attached state := by
  unfold Attached
  rw [poolEq]
  simp only [congrFun unitsEq]

theorem size_eq_of_erase (entry : state.pool.mPollUnits.lookup fd = some id)
    (poolEq : next.pool = { state.pool with mPollUnits := state.pool.mPollUnits.erase fd }) :
    next.pool.mPollUnits.size + 1 = state.pool.mPollUnits.size := by
  rw [poolEq]
  exact FdMap.size_erase entry

theorem EnoughSucceed.of_next (enough : EnoughSucceed next fun call => results (call + 1))
    (size : state.pool.mPollUnits.size ≤
      next.pool.mPollUnits.size + if results 0 = true then 1 else 0) :
    EnoughSucceed state results := by
  obtain ⟨calls, atLeast⟩ := enough
  simp only at atLeast
  refine ⟨calls + 1, ?_⟩
  rw [Nat.count_succ']
  omega

end Next

/-! ## The loop ends -/

/-- The loop ends with an empty pool, and no unit that was in it has an owner. -/
def Empties (state : State) (results : Results) : Prop :=
  ∃ after, Ends unInit (state, results) after ∧ after.pool.mPollUnits = ∅ ∧
    OwnersDropped state after ∧
    ∀ fd id, state.pool.mPollUnits.lookup fd = some id →
      ∃ unit, after.units.lookup id = some unit ∧ unit.mOwner = none

theorem lookup_ne_of_empty (empty : state.pool.mPollUnits = ∅) (fd : Int) (id : UnitId) :
    state.pool.mPollUnits.lookup fd ≠ some id := by
  rw [empty]
  exact nofun

/-- A pool without units is left as it is. -/
theorem empties_of_empty (first : state.pool.mPollUnits.first = none) (results : Results) :
    Empties state results := by
  have empty := FdMap.eq_empty_of_first_eq_none first
  refine ⟨state, .done ?_, empty, .refl_of_lookup rfl, fun fd id entry => ?_⟩
  · simp only [unInit, first]
  · exact absurd entry (lookup_ne_of_empty empty fd id)

/-- The loop detaches every unit when they can be detached and enough calls
succeed. -/
theorem ends_of_attached (calls : Nat) (results : Results) (attached : Attached state)
    (enough : state.pool.mPollUnits.size ≤ Nat.count (fun call => results call = true) calls) :
    Empties state results := by
  induction calls generalizing state results with
  | zero =>
      have first : state.pool.mPollUnits.first = none := by
        have nothing := List.length_eq_zero_iff.mp (Nat.le_zero.mp enough)
        rw [FdMap.first, nothing]
        rfl
      exact empties_of_empty first results
  | succ calls inductionHypothesis =>
      cases first : state.pool.mPollUnits.first with
      | none => exact empties_of_empty first results
      | some id =>
          obtain ⟨fd, unit, next, entry, found, detached, outcome⟩ :=
            detachUnit_first attached first (results 0)
          have turn : unInit (state, results) =
              some (.again (next, fun call => results (call + 1))) := by
            simp only [unInit, first, detached, Option.map_some]
          rw [Nat.count_succ'] at enough
          rcases outcome with ⟨succeeds, poolEq, unitsEq⟩ | ⟨fails, poolEq, unitsEq⟩
          · have dropped := OwnersDropped.of_detached found unitsEq
            have smaller := size_eq_of_erase entry poolEq
            rw [if_pos succeeds] at enough
            obtain ⟨after, ends, empty, droppedAfter, noOwner⟩ :=
              inductionHypothesis (fun call => results (call + 1))
                (attached.erase poolEq dropped) (by omega)
            refine ⟨after, .again turn ends, empty, dropped.trans droppedAfter, ?_⟩
            intro otherFd other otherEntry
            by_cases same : otherFd = fd
            · rw [same, entry] at otherEntry
              cases otherEntry
              have nextUnit := congrFun unitsEq id
              rw [Function.update_self] at nextUnit
              obtain ⟨unit', foundAfter, -, owner⟩ := droppedAfter id _ nextUnit
              exact ⟨unit', foundAfter, owner rfl⟩
            · refine noOwner otherFd other ?_
              rw [poolEq]
              exact FdMap.lookup_erase_iff.mpr ⟨same, otherEntry⟩
          · have dropped := OwnersDropped.refl_of_lookup unitsEq
            rw [if_neg (by rw [fails]; exact Bool.false_ne_true), ← poolEq] at enough
            obtain ⟨after, ends, empty, droppedAfter, noOwner⟩ :=
              inductionHypothesis (fun call => results (call + 1))
                ((attached_congr poolEq unitsEq).mpr attached) enough
            rw [poolEq] at noOwner
            exact ⟨after, .again turn ends, empty, dropped.trans droppedAfter, noOwner⟩

/-! ## Only then -/

/-- A turn before one from which the loop can end was such a turn itself: a unit
that hides another descriptor would still be first. -/
theorem attached_of_next {next : State} (first : state.pool.mPollUnits.first = some id)
    (detached : state.detachUnit id (results 0) = some next) (attachedNext : Attached next)
    (enoughNext : EnoughSucceed next fun call => results (call + 1)) :
    Attached state ∧ EnoughSucceed state results := by
  obtain ⟨fd, entry⟩ := FdMap.lookup_of_first_eq_some first
  obtain ⟨unit, found, ⟨succeeds, poolEq, unitsEq, -⟩ | ⟨-, poolEq, unitsEq⟩⟩ :=
    detachUnit_cases detached
  · have nextUnit := congrFun unitsEq id
    rw [Function.update_self] at nextUnit
    have sameFd : unit.mFd = fd := by
      by_contra different
      obtain ⟨unit', foundNext, fdEq⟩ := attachedNext fd id (by
        rw [poolEq]
        exact FdMap.lookup_erase_iff.mpr ⟨Ne.symm different, entry⟩)
      cases nextUnit.symm.trans foundNext
      exact different fdEq
    subst sameFd
    constructor
    · intro otherFd other otherEntry
      by_cases same : otherFd = unit.mFd
      · rw [same, entry] at otherEntry
        cases otherEntry
        exact ⟨unit, found, same.symm⟩
      · obtain ⟨unit', foundNext, fdEq⟩ := attachedNext otherFd other (by
          rw [poolEq]
          exact FdMap.lookup_erase_iff.mpr ⟨same, otherEntry⟩)
        rw [congrFun unitsEq other, Function.update_apply] at foundNext
        split at foundNext
        · rename_i isFirst
          cases foundNext
          exact ⟨unit, isFirst ▸ found, fdEq⟩
        · exact ⟨unit', foundNext, fdEq⟩
    · refine enoughNext.of_next ?_
      rw [if_pos succeeds, size_eq_of_erase entry poolEq]
  · refine ⟨(attached_congr poolEq unitsEq).mp attachedNext, enoughNext.of_next ?_⟩
    rw [poolEq]
    omega

/-- A loop that ends found every unit attached. -/
theorem attached_of_ends {start : State × Results} (ends : Ends unInit start after) :
    Attached start.1 ∧ EnoughSucceed start.1 start.2 := by
  induction ends with
  | @done start result bodyEq =>
      cases first : start.1.pool.mPollUnits.first with
      | none =>
          have empty := FdMap.eq_empty_of_first_eq_none first
          refine ⟨fun fd id entry => absurd entry (lookup_ne_of_empty empty fd id), 0, ?_⟩
          rw [empty]
          exact Nat.le_refl 0
      | some id =>
          simp only [unInit, first] at bodyEq
          obtain ⟨_, _, doneEq⟩ := Option.map_eq_some_iff.mp bodyEq
          exact nomatch doneEq
  | @again start next result bodyEq _ inductionHypothesis =>
      cases first : start.1.pool.mPollUnits.first with
      | none =>
          simp only [unInit, first] at bodyEq
          exact nomatch bodyEq
      | some id =>
          obtain ⟨resultsEq, detached⟩ := turn_cases first bodyEq
          obtain ⟨attachedNext, enoughNext⟩ := inductionHypothesis
          rw [resultsEq] at enoughNext
          exact attached_of_next first detached attachedNext enoughNext

/-- `UnInit` ends with an empty pool and no owners exactly when every unit in
the pool still has the descriptor it was attached under, and `epoll_ctl`
succeeds often enough. -/
theorem shutsDown_iff (state : State) (results : Results) :
    ShutsDown state results ↔ Attached state ∧ EnoughSucceed state results := by
  constructor
  · rintro ⟨after, ends, -, -⟩
    exact attached_of_ends ends
  · rintro ⟨attached, calls, enough⟩
    obtain ⟨after, ends, empty, -, noOwner⟩ := ends_of_attached calls results attached enough
    exact ⟨after, ends, empty, noOwner⟩

/-- A client was closed while it was attached, and no call of `epoll_ctl`
fails. -/
theorem not_shutsDown :
    ∃ attached closed,
      execute step [.create 0 5, .attachUnit 0 true] (State.new 0 4096) = some attached ∧
      closeClient attached 0 = some closed ∧ ¬ ShutsDown closed fun _ => true := by
  refine ⟨_, _, rfl, rfl, ?_⟩
  rintro ⟨after, ends, -, -⟩
  obtain ⟨unit, found, fdEq⟩ := (attached_of_ends ends).1 5 0 rfl
  cases found
  contradiction

end NginxFastcgi.Network.PollShutdown
