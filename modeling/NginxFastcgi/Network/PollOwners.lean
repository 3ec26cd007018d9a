import NginxFastcgi.Foundation.ObjectIndex
import NginxFastcgi.Foundation.Transition
import NginxFastcgi.Network.PollPool

/-!
# A pool and the units it owns

Units are made and destroyed, and one pool attaches and detaches them.  Every
call of `epoll_ctl` returns what it likes; a call that is not made has an answer
that is not used.  The address of a destroyed unit may be used again, and so may
its descriptor.

The destructor of a unit does not look at the result of `DetachUnit`.
-/

namespace NginxFastcgi.Network.PollOwners

open Foundation.ObjectIndex
open Foundation.Transition

structure State where
  pool : CPollPool
  /-- The units that live, by address. -/
  units : AList fun _ : UnitId => CPollUnit := ∅

namespace State

def new (self : PoolId) (epollSize : Nat) : State where
  pool := { self := self, mEpollSize := epollSize }

/-- The descriptors of the units that live. -/
def fds (state : State) : List Int :=
  state.units.entries.map fun entry => entry.2.mFd

/-- A new unit gets a descriptor that no other one has. -/
def create (state : State) (id : UnitId) (fd : Int) : Option State :=
  match state.units.lookup id with
  | some _ => none
  | none =>
      if fd ∈ state.fds then
        none
      else
        some { state with units := state.units.insert id { mFd := fd } }

def attachUnit (state : State) (id : UnitId) (added : Bool) : Option State :=
  (state.units.lookup id).map fun unit =>
    let attached := state.pool.attachUnit id unit added
    { pool := attached.1, units := state.units.insert id attached.2.1 }

def detachUnit (state : State) (id : UnitId) (deleted : Bool) : Option State :=
  (state.units.lookup id).map fun unit =>
    let detached := state.pool.detachUnit unit deleted
    { pool := detached.1, units := state.units.insert id detached.2.1 }

/-- The destructor. -/
def destroy (state : State) (id : UnitId) (deleted : Bool) : Option State :=
  (state.units.lookup id).map fun unit =>
    { pool :=
        if unit.mOwner = some state.pool.self then
          (state.pool.detachUnit unit deleted).1
        else
          state.pool
      units := state.units.erase id }

end State

inductive Label
  | create (id : UnitId) (fd : Int)
  | attachUnit (id : UnitId) (added : Bool)
  | detachUnit (id : UnitId) (deleted : Bool)
  | destroy (id : UnitId) (deleted : Bool)

def step : Step State Label
  | state, .create id fd => state.create id fd
  | state, .attachUnit id added => state.attachUnit id added
  | state, .detachUnit id deleted => state.detachUnit id deleted
  | state, .destroy id deleted => state.destroy id deleted

/-- A unit is owned by the pool with this address. -/
def OwnedBy (pool : PoolId) (unit : CPollUnit) : Prop :=
  unit.mOwner = some pool

/-- The entries of the pool are the units that live and are owned by it, under
their descriptors. -/
def Consistent (state : State) : Prop :=
  ∀ fd id, state.pool.mPollUnits.lookup fd = some id ↔
    ∃ unit, state.units.lookup id = some unit ∧ unit.mFd = fd ∧
      unit.mOwner = some state.pool.self

/-- The descriptors of the units that live are distinct. -/
def DistinctFds (state : State) : Prop :=
  ∀ id other first second, state.units.lookup id = some first →
    state.units.lookup other = some second → first.mFd = second.mFd → id = other

/-- A unit that the pool owns is only destroyed when the kernel lets go of its
descriptor. -/
def DestroysDetached (state : State) : Label → Prop
  | .destroy id deleted => ∀ unit, state.units.lookup id = some unit →
      unit.mOwner = some state.pool.self → deleted = true
  | _ => True

theorem consistent_iff {state : State} :
    Consistent state ↔ Indexes (fun fd => state.pool.mPollUnits.lookup fd)
      (fun id => state.units.lookup id) CPollUnit.mFd (OwnedBy state.pool.self) :=
  Iff.rfl

theorem distinctFds_iff {state : State} :
    DistinctFds state ↔ DistinctKeys (fun id => state.units.lookup id) CPollUnit.mFd :=
  Iff.rfl

/-! ## One step -/

variable {state after : State} {id : UnitId}

theorem fd_mem_fds {unit : CPollUnit} (found : state.units.lookup id = some unit) :
    unit.mFd ∈ state.fds :=
  List.mem_map.mpr ⟨⟨id, unit⟩, AList.mem_lookup_iff.mp found, rfl⟩

/-- `DetachUnit` takes the unit out of the pool or changes nothing. -/
theorem detachUnit_cases {deleted : Bool} (detached : state.detachUnit id deleted = some after) :
    ∃ unit, state.units.lookup id = some unit ∧
      (deleted = true ∧
          after.pool =
            { state.pool with mPollUnits := state.pool.mPollUnits.erase unit.mFd } ∧
          (fun other => after.units.lookup other) =
            Function.update (fun other => state.units.lookup other) id
              (some { unit with mOwner := none }) ∧
          (∃ listed, state.pool.mPollUnits.lookup unit.mFd = some listed) ∨
        (deleted = false ∨ state.pool.mPollUnits.lookup unit.mFd = none) ∧
          after.pool = state.pool ∧
          (fun other => after.units.lookup other) = fun other => state.units.lookup other) := by
  obtain ⟨unit, found, rfl⟩ := Option.map_eq_some_iff.mp detached
  have unchanged := lookup_insert_of_lookup found
  refine ⟨unit, found, ?_⟩
  cases deleted with
  | false =>
      right
      simp only [CPollPool.detachUnit_refused, unchanged, true_or, and_self]
  | true =>
      cases entry : state.pool.mPollUnits.lookup unit.mFd with
      | none =>
          right
          simp only [CPollPool.detachUnit_unlisted entry, unchanged, or_true, and_self]
      | some listed =>
          left
          simp only [CPollPool.detachUnit_of_listed entry, lookup_insert_eq_update, true_and]
          exact ⟨listed, rfl⟩

section Kept

variable (consistent : Consistent state) (distinct : DistinctFds state)
include consistent distinct

theorem create_keeps {fd : Int} (created : state.create id fd = some after) :
    Consistent after ∧ DistinctFds after := by
  unfold State.create at created
  split at created
  · contradiction
  · rename_i absent
    split at created
    · contradiction
    · rename_i unused
      cases created
      rw [consistent_iff] at consistent ⊢
      rw [distinctFds_iff] at distinct ⊢
      simp only [lookup_insert_eq_update]
      constructor
      · apply consistent.replace_unlisted
        · intro unit found
          rw [absent] at found
          contradiction
        · rintro unit unitEq owned
          cases unitEq
          exact nomatch owned
      · apply distinct.insert
        intro other unit found sameFd
        have member := fd_mem_fds found
        rw [sameFd] at member
        exact absurd member unused

theorem attachUnit_keeps {added : Bool} (attached : state.attachUnit id added = some after) :
    Consistent after ∧ DistinctFds after := by
  obtain ⟨unit, found, rfl⟩ := Option.map_eq_some_iff.mp attached
  rw [consistent_iff] at consistent ⊢
  rw [distinctFds_iff] at distinct ⊢
  rcases state.pool.attachUnit_cases id unit added with entered | refused
  · simp only [entered, lookup_insert_eq_update]
    exact ⟨consistent.enlist distinct found rfl rfl, distinct.replace found rfl⟩
  · simp only [refused, lookup_insert_of_lookup found]
    exact ⟨consistent, distinct⟩

theorem detachUnit_keeps {deleted : Bool} (detached : state.detachUnit id deleted = some after) :
    Consistent after ∧ DistinctFds after := by
  rw [consistent_iff] at consistent ⊢
  rw [distinctFds_iff] at distinct ⊢
  obtain ⟨unit, found, ⟨-, poolEq, unitsEq, -⟩ | ⟨-, poolEq, unitsEq⟩⟩ :=
    detachUnit_cases detached
  · simp only [poolEq, unitsEq, lookup_erase_eq_update]
    refine ⟨consistent.withdraw distinct found ?_, distinct.replace found rfl⟩
    rintro unit unitEq owned
    cases unitEq
    exact nomatch owned
  · rw [poolEq, unitsEq]
    exact ⟨consistent, distinct⟩

/-- Only the destruction of a unit that could not be detached leaves an entry
behind. -/
theorem destroy_keeps_iff {deleted : Bool} (destroyed : state.destroy id deleted = some after) :
    DistinctFds after ∧ (Consistent after ↔ DestroysDetached state (.destroy id deleted)) := by
  obtain ⟨unit, found, rfl⟩ := Option.map_eq_some_iff.mp destroyed
  have conditionIff : DestroysDetached state (.destroy id deleted) ↔
      (unit.mOwner = some state.pool.self → deleted = true) := by
    constructor
    · exact fun condition => condition unit found
    · intro condition other foundOther
      rw [found] at foundOther
      cases foundOther
      exact condition
  rw [consistent_iff] at consistent
  rw [distinctFds_iff] at distinct
  rw [conditionIff, consistent_iff, distinctFds_iff]
  simp only [lookup_erase_eq_update]
  refine ⟨distinct.remove id, ?_⟩
  by_cases owned : unit.mOwner = some state.pool.self
  · have entry := consistent.entry found owned
    cases deleted with
    | false =>
        simp only [if_pos owned, CPollPool.detachUnit_refused]
        refine iff_of_false (consistent.not_remove found owned) ?_
        exact fun condition => absurd (condition owned) Bool.false_ne_true
    | true =>
        simp only [if_pos owned, CPollPool.detachUnit_of_listed entry, lookup_erase_eq_update]
        refine iff_of_true (consistent.withdraw distinct found ?_) fun _ => trivial
        nofun
  · simp only [if_neg owned]
    refine iff_of_true (consistent.replace_unlisted ?_ ?_) fun isOwned => absurd isOwned owned
    · intro other foundOther
      rw [found] at foundOther
      cases foundOther
      exact owned
    · nofun

end Kept

/-- A step keeps the pool consistent exactly when it destroys no unit that it
failed to detach. -/
theorem step_exact {label : Label} (distinct : DistinctFds state) (consistent : Consistent state)
    (stepEq : step state label = some after) :
    DistinctFds after ∧ (Consistent after ↔ DestroysDetached state label) := by
  cases label with
  | create id fd =>
      obtain ⟨held, kept⟩ := create_keeps consistent distinct stepEq
      exact ⟨kept, iff_of_true held trivial⟩
  | attachUnit id added =>
      obtain ⟨held, kept⟩ := attachUnit_keeps consistent distinct stepEq
      exact ⟨kept, iff_of_true held trivial⟩
  | detachUnit id deleted =>
      obtain ⟨held, kept⟩ := detachUnit_keeps consistent distinct stepEq
      exact ⟨kept, iff_of_true held trivial⟩
  | destroy id deleted => exact destroy_keeps_iff consistent distinct stepEq

theorem new_consistent (self : PoolId) (epollSize : Nat) :
    Consistent (State.new self epollSize) :=
  indexes_empty

theorem new_distinctFds (self : PoolId) (epollSize : Nat) :
    DistinctFds (State.new self epollSize) :=
  fun _ _ _ _ => nofun

/-! ## Every run -/

/-- In every state of a run the entries of the pool are the living units that it
owns, exactly when no owned unit is destroyed in it while `epoll_ctl` fails. -/
theorem consistent_iff_destroysDetached (self : PoolId) (epollSize : Nat) (labels : List Label) :
    Always step Consistent labels (State.new self epollSize) ↔
      EachStep step DestroysDetached labels (State.new self epollSize) :=
  always_iff_eachStep_of_exact (fun _ _ _ => step_exact) (new_distinctFds self epollSize)
    (new_consistent self epollSize)

/-- A unit whose descriptor the kernel will not delete is destroyed, and its
entry stays. -/
theorem not_consistent :
    ¬ Always step Consistent [.create 0 5, .attachUnit 0 true, .destroy 0 false]
      (State.new 0 4096) := by
  intro always
  have entries := always.after rfl
  obtain ⟨unit, found, -⟩ := (entries 5 0).mp rfl
  contradiction

end NginxFastcgi.Network.PollOwners
