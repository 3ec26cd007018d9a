import Mathlib.Data.List.AList
import NginxFastcgi.Network.PollUnit

/-!
# `CPollPool`, the units polled by one thread

The pool maps the descriptors in its epoll set to units.  The kernel is the
open descriptors of the process and the interest list of the pool.  Removing a
registered descriptor succeeds; adding an open one that is not registered may
still fail, which the environment decides.

Units are objects with identities that are never used again, while a closed
descriptor may be.
-/

namespace NginxFastcgi.Network

/-- The identity of an object derived from `CPollUnit`. -/
abbrev UnitId := Nat

/-- `std::map<int32_t, T *>` with objects named by their identities. -/
abbrev FdMap := AList fun _ : Int => UnitId

namespace FdMap

/-- What `begin()` points to, the entry with the least key. -/
def first (map : FdMap) : Option UnitId :=
  map.keys.min?.bind map.lookup

/-- `size()`. -/
def size (map : FdMap) : Nat :=
  map.keys.length

theorem eq_empty_of_first_eq_none {map : FdMap} (nothing : map.first = none) : map = ∅ := by
  have keys : map.keys.min? = none := by
    by_contra some_key
    obtain ⟨fd, least⟩ := Option.ne_none_iff_exists'.mp some_key
    have member : fd ∈ map := AList.mem_keys.mpr (List.min?_mem least)
    rw [first, least, Option.bind_some, AList.lookup_eq_none] at nothing
    exact nothing member
  apply AList.ext
  exact List.map_eq_nil_iff.mp (List.min?_eq_none_iff.mp keys)

theorem lookup_of_first_eq_some {map : FdMap} {unit : UnitId} (found : map.first = some unit) :
    ∃ fd, map.lookup fd = some unit := by
  obtain ⟨fd, -, lookup⟩ := Option.bind_eq_some_iff.mp found
  exact ⟨fd, lookup⟩

theorem size_erase {map : FdMap} {fd : Int} {unit : UnitId} (found : map.lookup fd = some unit) :
    (AList.erase fd map).keys.length + 1 = map.size := by
  have member : fd ∈ map.keys := AList.mem_keys.mp (AList.lookup_isSome.mp (by rw [found]; rfl))
  have positive := List.length_pos_of_mem member
  rw [AList.keys_erase, List.length_erase_of_mem member, size]
  omega

/-- `erase` takes one entry out. -/
theorem lookup_erase_iff {map : FdMap} {fd other : Int} {unit : UnitId} :
    (AList.erase fd map).lookup other = some unit ↔ other ≠ fd ∧ map.lookup other = some unit := by
  by_cases same : other = fd
  · rw [same, AList.lookup_erase]
    exact iff_of_false nofun fun both => both.1 rfl
  · rw [AList.lookup_erase_ne same]
    exact ⟨fun found => ⟨same, found⟩, And.right⟩

/-- The units of the map are that of one entry and those of the others. -/
theorem exists_lookup_iff {map : FdMap} {fd : Int} {unit : UnitId}
    (entry : map.lookup fd = some unit) (other : UnitId) :
    (∃ otherFd, map.lookup otherFd = some other) ↔
      other = unit ∨ ∃ otherFd, otherFd ≠ fd ∧ map.lookup otherFd = some other := by
  constructor
  · rintro ⟨otherFd, otherEntry⟩
    by_cases same : otherFd = fd
    · rw [same, entry] at otherEntry
      exact Or.inl (Option.some.inj otherEntry).symm
    · exact Or.inr ⟨otherFd, same, otherEntry⟩
  · rintro (rfl | ⟨otherFd, -, otherEntry⟩)
    · exact ⟨fd, entry⟩
    · exact ⟨otherFd, otherEntry⟩

end FdMap

/-- The open descriptors and the interest list, with the calls of `close`. -/
structure Kernel where
  opened : Int → Bool := fun _ => false
  interest : Int → Bool := fun _ => false
  closed : List Int := []

namespace Kernel

/-- A call that returned a new descriptor. -/
def create (kernel : Kernel) (fd : Int) : Kernel :=
  { kernel with opened := Function.update kernel.opened fd true }

/-- `EPOLL_CTL_ADD`. -/
def add (kernel : Kernel) (fd : Int) (granted : Bool) : Kernel × Bool :=
  if kernel.opened fd ∧ ¬ kernel.interest fd ∧ granted then
    ({ kernel with interest := Function.update kernel.interest fd true }, true)
  else
    (kernel, false)

/-- `EPOLL_CTL_DEL`. -/
def delete (kernel : Kernel) (fd : Int) : Kernel × Bool :=
  if kernel.interest fd then
    ({ kernel with interest := Function.update kernel.interest fd false }, true)
  else
    (kernel, false)

/-- `close`, which also ends the interest. -/
def close (kernel : Kernel) (fd : Int) : Kernel where
  opened := Function.update kernel.opened fd false
  interest := Function.update kernel.interest fd false
  closed := kernel.closed ++ [fd]

end Kernel

structure CPollPool where
  /-- The address of the pool. -/
  self : PoolId
  mEpollSize : Nat := 4096
  mPollUnits : FdMap := ∅

namespace CPollPool

/-- `AttachUnit` after what `epoll_ctl` returns, if it is called. -/
def attachUnit (pool : CPollPool) (id : UnitId) (unit : CPollUnit) (added : Bool) :
    CPollPool × CPollUnit × Int :=
  if pool.mPollUnits.size ≥ pool.mEpollSize then
    (pool, unit, -1)
  else if added then
    ({ pool with mPollUnits := pool.mPollUnits.insert unit.mFd id }, unit.attachedTo pool.self, 0)
  else
    (pool, unit, -1)

/-- `AttachUnit` enters the unit or leaves everything as it was. -/
theorem attachUnit_cases (pool : CPollPool) (id : UnitId) (unit : CPollUnit) (added : Bool) :
    pool.attachUnit id unit added =
        ({ pool with mPollUnits := pool.mPollUnits.insert unit.mFd id },
          unit.attachedTo pool.self, 0) ∨
      pool.attachUnit id unit added = (pool, unit, -1) := by
  unfold attachUnit
  split
  · exact Or.inr rfl
  · split
    · exact Or.inl rfl
    · exact Or.inr rfl

/-- `AttachUnit` with its call of `epoll_ctl`, which a full pool does not make. -/
def attach (pool : CPollPool) (kernel : Kernel) (id : UnitId) (unit : CPollUnit)
    (granted : Bool) : CPollPool × Kernel × CPollUnit × Int :=
  let called := pool.mPollUnits.size < pool.mEpollSize
  let added := kernel.add unit.mFd granted
  let attached := pool.attachUnit id unit added.2
  (attached.1, if called then added.1 else kernel, attached.2)

/-- `AttachUnit` enters the unit everywhere or nowhere. -/
theorem attach_cases (pool : CPollPool) (kernel : Kernel) (id : UnitId) (unit : CPollUnit)
    (granted : Bool) :
    kernel.opened unit.mFd = true ∧ pool.attach kernel id unit granted =
        ({ pool with mPollUnits := pool.mPollUnits.insert unit.mFd id },
          { kernel with interest := Function.update kernel.interest unit.mFd true },
          unit.attachedTo pool.self, 0) ∨
      pool.attach kernel id unit granted = (pool, kernel, unit, -1) := by
  unfold attach attachUnit
  by_cases full : pool.mPollUnits.size ≥ pool.mEpollSize
  · right
    simp only [if_pos full, if_neg (Nat.not_lt.mpr full)]
  · by_cases accepted : kernel.opened unit.mFd ∧ ¬ kernel.interest unit.mFd ∧ granted
    · left
      have added : kernel.add unit.mFd granted =
          ({ kernel with interest := Function.update kernel.interest unit.mFd true }, true) :=
        if_pos accepted
      refine ⟨accepted.1, ?_⟩
      simp only [added, if_neg full, if_pos (Nat.lt_of_not_ge full), if_true]
    · right
      have refused : kernel.add unit.mFd granted = (kernel, false) := if_neg accepted
      simp only [refused, if_neg full, Bool.false_eq_true, if_false, ite_self]

theorem attach_refused (pool : CPollPool) (kernel : Kernel) (id : UnitId) (unit : CPollUnit) :
    pool.attach kernel id unit false = (pool, kernel, unit, -1) := by
  have refused : kernel.add unit.mFd false = (kernel, false) := if_neg (by simp)
  unfold attach attachUnit
  simp only [refused, Bool.false_eq_true, if_false, ite_self]

/-- `DetachUnit` after what `epoll_ctl` returns, if it is called. -/
def detachUnit (pool : CPollPool) (unit : CPollUnit) (deleted : Bool) :
    CPollPool × CPollUnit × Int :=
  match pool.mPollUnits.lookup unit.mFd with
  | none => (pool, unit, -1)
  | some _ =>
      if deleted then
        ({ pool with mPollUnits := pool.mPollUnits.erase unit.mFd },
          { unit with mOwner := none }, 0)
      else
        (pool, unit, -1)

theorem detachUnit_of_listed {pool : CPollPool} {unit : CPollUnit} {id : UnitId}
    (listed : pool.mPollUnits.lookup unit.mFd = some id) :
    pool.detachUnit unit true =
      ({ pool with mPollUnits := pool.mPollUnits.erase unit.mFd },
        { unit with mOwner := none }, 0) := by
  simp only [detachUnit, listed, if_true]

theorem detachUnit_refused (pool : CPollPool) (unit : CPollUnit) :
    pool.detachUnit unit false = (pool, unit, -1) := by
  unfold detachUnit
  split <;> rfl

theorem detachUnit_unlisted {pool : CPollPool} {unit : CPollUnit}
    (unlisted : pool.mPollUnits.lookup unit.mFd = none) (deleted : Bool) :
    pool.detachUnit unit deleted = (pool, unit, -1) := by
  simp only [detachUnit, unlisted]

end CPollPool

end NginxFastcgi.Network
