import Mathlib.Data.List.Iterate
import Mathlib.Data.List.Rotate
import NginxFastcgi.Foundation.Transition

/-!
# `CTcpClientUnitPool`, choosing a backend unit

`GetOneClientUnit` picks the unit at a cursor and moves the cursor on, modulo
the number of units.  `Insert` and `Erase` leave the cursor alone, so that it
may be left behind the last unit.
-/

namespace NginxFastcgi.Fastcgi

open Foundation.Transition

/-- The address of a `CTcpClientUnit`. -/
abbrev ClientUnitId := Nat

structure CTcpClientUnitPool where
  /-- An unsigned 32-bit integer. -/
  mCursor : Nat := 0
  /-- `none` is `NULL`. -/
  mTcpclientunits : List (Option ClientUnitId) := []
  deriving DecidableEq

namespace CTcpClientUnitPool

def insert (pool : CTcpClientUnitPool) (clientunit : Option ClientUnitId) : CTcpClientUnitPool :=
  { pool with mTcpclientunits := pool.mTcpclientunits ++ [clientunit] }

/-- `Erase`, which takes out the first entry that is equal. -/
def erase (pool : CTcpClientUnitPool) (clientunit : Option ClientUnitId) : CTcpClientUnitPool :=
  { pool with mTcpclientunits := pool.mTcpclientunits.erase clientunit }

/-- `GetOneClientUnit` with the unit it picks; `none` is an exception of `at`,
which is thrown after the cursor was incremented. -/
def getOneClientUnit (pool : CTcpClientUnitPool) :
    CTcpClientUnitPool × Option (Option ClientUnitId) :=
  let incremented := (pool.mCursor + 1) % 2 ^ 32
  match pool.mTcpclientunits[pool.mCursor]? with
  | none => ({ pool with mCursor := incremented }, none)
  | some oneClientunit =>
      ({ pool with mCursor := incremented % pool.mTcpclientunits.length }, some oneClientunit)

/-- The pools that `count` calls in a row find. -/
def calls (pool : CTcpClientUnitPool) (count : Nat) : List CTcpClientUnitPool :=
  List.iterate (fun found => found.getOneClientUnit.1) pool count

/-- The next call picks a member, and as many calls as there are members use
each position of the vector once and pick each member once. -/
structure RoundRobin (pool : CTcpClientUnitPool) : Prop where
  member : pool.mTcpclientunits ≠ [] →
    ∃ unit ∈ pool.mTcpclientunits, pool.getOneClientUnit.2 = some unit
  each_once : List.Perm ((pool.calls pool.mTcpclientunits.length).map mCursor)
    (List.range pool.mTcpclientunits.length)
  each_picked : List.Perm
    ((pool.calls pool.mTcpclientunits.length).map fun found => found.getOneClientUnit.2)
    (pool.mTcpclientunits.map some)

/-! ## The calls -/

section Calls

variable {pool : CTcpClientUnitPool}

@[simp]
theorem mTcpclientunits_getOneClientUnit (pool : CTcpClientUnitPool) :
    pool.getOneClientUnit.1.mTcpclientunits = pool.mTcpclientunits := by
  unfold getOneClientUnit
  split <;> rfl

theorem getOneClientUnit_of_lt (inside : pool.mCursor < pool.mTcpclientunits.length) :
    pool.getOneClientUnit =
      ({ pool with mCursor := (pool.mCursor + 1) % 2 ^ 32 % pool.mTcpclientunits.length },
        some pool.mTcpclientunits[pool.mCursor]) := by
  simp only [getOneClientUnit, List.getElem?_eq_getElem inside]

/-- What a call picks, if it does not throw. -/
theorem pick_eq (pool : CTcpClientUnitPool) :
    pool.getOneClientUnit.2 = pool.mTcpclientunits[pool.mCursor]? := by
  unfold getOneClientUnit
  cases pool.mTcpclientunits[pool.mCursor]? <;> rfl

theorem mTcpclientunits_iterate (pool : CTcpClientUnitPool) (count : Nat) :
    ((fun found : CTcpClientUnitPool => found.getOneClientUnit.1)^[count] pool).mTcpclientunits =
      pool.mTcpclientunits := by
  induction count with
  | zero => rfl
  | succ count inductionHypothesis =>
      rw [Function.iterate_succ_apply', mTcpclientunits_getOneClientUnit, inductionHypothesis]

/-- Calls that use each position once pick each member once. -/
theorem each_picked_of_each_once
    (each_once : List.Perm ((pool.calls pool.mTcpclientunits.length).map mCursor)
      (List.range pool.mTcpclientunits.length)) :
    List.Perm
      ((pool.calls pool.mTcpclientunits.length).map fun found => found.getOneClientUnit.2)
      (pool.mTcpclientunits.map some) := by
  have picks : (pool.calls pool.mTcpclientunits.length).map
      (fun found => found.getOneClientUnit.2) =
        ((pool.calls pool.mTcpclientunits.length).map mCursor).map
          fun position => pool.mTcpclientunits[position]? := by
    rw [List.map_map]
    apply List.map_congr_left
    intro found isCall
    obtain ⟨call, -, rfl⟩ := List.mem_iterate.mp isCall
    rw [pick_eq, mTcpclientunits_iterate]
    rfl
  have members : (List.range pool.mTcpclientunits.length).map
      (fun position => pool.mTcpclientunits[position]?) = pool.mTcpclientunits.map some := by
    apply List.ext_getElem
    · rw [List.length_map, List.length_range, List.length_map]
    · intro position _ below
      rw [List.length_map] at below
      rw [List.getElem_map, List.getElem_range, List.getElem_map,
        List.getElem?_eq_getElem below]
  rw [picks, ← members]
  exact each_once.map _

theorem mCursor_getOneClientUnit_lt (pool : CTcpClientUnitPool) :
    pool.getOneClientUnit.1.mCursor < 2 ^ 32 := by
  have width : (pool.mCursor + 1) % 2 ^ 32 < 2 ^ 32 := Nat.mod_lt _ (by decide)
  unfold getOneClientUnit
  split
  · exact width
  · exact Nat.lt_of_le_of_lt (Nat.mod_le _ _) width

/-- The 32-bit increment is the one modulo the number of units. -/
theorem increment_mod {cursor size : Nat} (inside : cursor < size) (fits : size ≤ 2 ^ 32) :
    (cursor + 1) % 2 ^ 32 % size = (cursor + 1) % size := by
  by_cases last : cursor + 1 = 2 ^ 32
  · have sizeEq : size = 2 ^ 32 := by omega
    rw [sizeEq, Nat.mod_mod]
  · rw [Nat.mod_eq_of_lt (by omega : cursor + 1 < 2 ^ 32)]

/-- The cursor counts the calls, modulo the number of units. -/
theorem iterate_getOneClientUnit (inside : pool.mCursor < pool.mTcpclientunits.length)
    (fits : pool.mTcpclientunits.length ≤ 2 ^ 32) (count : Nat) :
    (fun found : CTcpClientUnitPool => found.getOneClientUnit.1)^[count] pool =
      { pool with mCursor := (pool.mCursor + count) % pool.mTcpclientunits.length } := by
  induction count with
  | zero => rw [Nat.add_zero, Nat.mod_eq_of_lt inside, Function.iterate_zero, id]
  | succ count inductionHypothesis =>
      have positive : 0 < pool.mTcpclientunits.length := Nat.lt_of_le_of_lt (Nat.zero_le _) inside
      have below := Nat.mod_lt (pool.mCursor + count) positive
      have advanced : ((pool.mCursor + count) % pool.mTcpclientunits.length + 1) % 2 ^ 32 %
          pool.mTcpclientunits.length =
            (pool.mCursor + (count + 1)) % pool.mTcpclientunits.length := by
        rw [increment_mod below fits, Nat.mod_add_mod, Nat.add_assoc]
      rw [Function.iterate_succ_apply', inductionHypothesis, getOneClientUnit_of_lt below]
      simp only [advanced]

/-- The positions that as many calls use as there are units. -/
theorem map_mCursor_calls (inside : pool.mCursor < pool.mTcpclientunits.length)
    (fits : pool.mTcpclientunits.length ≤ 2 ^ 32) :
    (pool.calls pool.mTcpclientunits.length).map mCursor =
      (List.range pool.mTcpclientunits.length).rotate pool.mCursor := by
  apply List.ext_getElem
  · rw [List.length_map, calls, List.length_iterate, List.length_rotate, List.length_range]
  · intro call _ below
    simp only [List.getElem_map, calls, List.getElem_iterate, List.getElem_rotate,
      List.getElem_range, List.length_range, iterate_getOneClientUnit inside fits]
    rw [Nat.add_comm]

theorem mCursor_iterate_lt (width : pool.mCursor < 2 ^ 32) (count : Nat) :
    ((fun found : CTcpClientUnitPool => found.getOneClientUnit.1)^[count] pool).mCursor <
      2 ^ 32 := by
  cases count with
  | zero => exact width
  | succ count =>
      rw [Function.iterate_succ_apply']
      exact mCursor_getOneClientUnit_lt _

/-- The choice goes round exactly while the cursor is inside the vector and can
count its positions. -/
theorem roundRobin_iff (width : pool.mCursor < 2 ^ 32) :
    pool.RoundRobin ↔ pool.mTcpclientunits = [] ∨
      pool.mCursor < pool.mTcpclientunits.length ∧ pool.mTcpclientunits.length ≤ 2 ^ 32 := by
  constructor
  · intro roundRobin
    by_cases empty : pool.mTcpclientunits = []
    · exact Or.inl empty
    · right
      obtain ⟨unit, -, picked⟩ := roundRobin.member empty
      obtain ⟨inside, -⟩ := List.getElem?_eq_some_iff.mp ((pick_eq pool).symm.trans picked)
      refine ⟨inside, ?_⟩
      by_contra large
      have used : 2 ^ 32 ∈ (pool.calls pool.mTcpclientunits.length).map mCursor :=
        roundRobin.each_once.mem_iff.mpr (List.mem_range.mpr (Nat.not_le.mp large))
      obtain ⟨found, member, cursorEq⟩ := List.mem_map.mp used
      obtain ⟨call, -, rfl⟩ := List.mem_iterate.mp member
      exact absurd cursorEq (Nat.ne_of_lt (mCursor_iterate_lt width call))
  · rintro (empty | ⟨inside, fits⟩)
    · have each_once : List.Perm ((pool.calls pool.mTcpclientunits.length).map mCursor)
          (List.range pool.mTcpclientunits.length) := by
        rw [empty]
        exact List.Perm.refl []
      exact ⟨fun nonempty => absurd empty nonempty, each_once,
        each_picked_of_each_once each_once⟩
    · have each_once : List.Perm ((pool.calls pool.mTcpclientunits.length).map mCursor)
          (List.range pool.mTcpclientunits.length) := by
        rw [map_mCursor_calls inside fits]
        exact List.rotate_perm _ _
      exact ⟨fun _ => ⟨pool.mTcpclientunits[pool.mCursor], List.getElem_mem inside,
        (pick_eq pool).trans (List.getElem?_eq_getElem inside)⟩, each_once,
        each_picked_of_each_once each_once⟩

end Calls

/-! ## Every run -/

inductive Label
  | insert (clientunit : Option ClientUnitId)
  | erase (clientunit : Option ClientUnitId)
  | getOneClientUnit
  deriving DecidableEq

/-- A unit is only asked for while there is one. -/
def step : Step CTcpClientUnitPool Label
  | pool, .insert clientunit => some (pool.insert clientunit)
  | pool, .erase clientunit => some (pool.erase clientunit)
  | pool, .getOneClientUnit =>
      if pool.mTcpclientunits = [] then none else some pool.getOneClientUnit.1

/-- A member is erased only when it is the last one left, or the cursor is not
at the end of the vector; and no more units are inserted than the cursor can
count. -/
def KeepsCursorInside (pool : CTcpClientUnitPool) : Label → Prop
  | .insert _ => pool.mTcpclientunits.length < 2 ^ 32
  | .erase clientunit => clientunit ∈ pool.mTcpclientunits →
      pool.mTcpclientunits.length = 1 ∨ pool.mCursor + 1 < pool.mTcpclientunits.length
  | .getOneClientUnit => True

/-- The cursor has its width, and is reset when the pool is empty. -/
structure CursorKept (pool : CTcpClientUnitPool) : Prop where
  width : pool.mCursor < 2 ^ 32
  reset : pool.mTcpclientunits = [] → pool.mCursor = 0

variable {pool after : CTcpClientUnitPool}

theorem insert_exact (kept : CursorKept pool) (roundRobin : pool.RoundRobin)
    (clientunit : Option ClientUnitId) :
    CursorKept (pool.insert clientunit) ∧
      ((pool.insert clientunit).RoundRobin ↔ pool.mTcpclientunits.length < 2 ^ 32) := by
  have lengthEq : (pool.insert clientunit).mTcpclientunits.length =
      pool.mTcpclientunits.length + 1 := List.length_append
  have nonempty : (pool.insert clientunit).mTcpclientunits ≠ [] := by
    intro empty
    rw [empty] at lengthEq
    contradiction
  have inside : pool.mCursor < pool.mTcpclientunits.length + 1 := by
    rcases (roundRobin_iff kept.width).mp roundRobin with empty | ⟨below, -⟩
    · rw [kept.reset empty]
      exact Nat.succ_pos _
    · exact Nat.lt_succ_of_lt below
  have keptAfter : CursorKept (pool.insert clientunit) :=
    ⟨kept.width, fun empty => absurd empty nonempty⟩
  refine ⟨keptAfter, ?_⟩
  rw [roundRobin_iff keptAfter.width, lengthEq]
  exact ⟨fun either => (either.resolve_left nonempty).2, fun room => Or.inr ⟨inside, room⟩⟩

theorem erase_exact (kept : CursorKept pool) (roundRobin : pool.RoundRobin)
    (clientunit : Option ClientUnitId) :
    CursorKept (pool.erase clientunit) ∧
      ((pool.erase clientunit).RoundRobin ↔ (clientunit ∈ pool.mTcpclientunits →
        pool.mTcpclientunits.length = 1 ∨ pool.mCursor + 1 < pool.mTcpclientunits.length)) := by
  by_cases member : clientunit ∈ pool.mTcpclientunits
  · have positive := List.length_pos_of_mem member
    have lengthEq : (pool.erase clientunit).mTcpclientunits.length =
        pool.mTcpclientunits.length - 1 := List.length_erase_of_mem member
    have emptyIff : (pool.erase clientunit).mTcpclientunits = [] ↔
        pool.mTcpclientunits.length = 1 := by
      rw [← List.length_eq_zero_iff, lengthEq]
      omega
    have sameCursor : (pool.erase clientunit).mCursor = pool.mCursor := rfl
    obtain ⟨inside, fits⟩ :=
      ((roundRobin_iff kept.width).mp roundRobin).resolve_left (List.ne_nil_of_mem member)
    have keptAfter : CursorKept (pool.erase clientunit) := by
      refine ⟨kept.width, fun empty => ?_⟩
      have single := emptyIff.mp empty
      omega
    refine ⟨keptAfter, ?_⟩
    rw [roundRobin_iff keptAfter.width, emptyIff, lengthEq, sameCursor]
    simp only [member, true_implies]
    omega
  · have same : pool.erase clientunit = pool := by
      rw [erase, List.erase_of_not_mem member]
    rw [same]
    exact ⟨kept, iff_of_true roundRobin fun isMember => absurd isMember member⟩

theorem getOneClientUnit_exact (kept : CursorKept pool) (roundRobin : pool.RoundRobin)
    (nonempty : pool.mTcpclientunits ≠ []) :
    CursorKept pool.getOneClientUnit.1 ∧ pool.getOneClientUnit.1.RoundRobin := by
  obtain ⟨inside, fits⟩ :=
    ((roundRobin_iff kept.width).mp roundRobin).resolve_left nonempty
  have width := mCursor_getOneClientUnit_lt pool
  refine ⟨⟨width, fun empty => ?_⟩, (roundRobin_iff width).mpr (Or.inr ?_)⟩
  · rw [mTcpclientunits_getOneClientUnit] at empty
    exact absurd empty nonempty
  · rw [mTcpclientunits_getOneClientUnit, getOneClientUnit_of_lt inside]
    exact ⟨Nat.mod_lt _ (List.length_pos_of_ne_nil nonempty), fits⟩

theorem step_exact {label : Label} (kept : CursorKept pool) (roundRobin : pool.RoundRobin)
    (stepEq : step pool label = some after) :
    CursorKept after ∧ (after.RoundRobin ↔ KeepsCursorInside pool label) := by
  cases label with
  | insert clientunit =>
      cases stepEq
      exact insert_exact kept roundRobin clientunit
  | erase clientunit =>
      cases stepEq
      exact erase_exact kept roundRobin clientunit
  | getOneClientUnit =>
      simp only [step] at stepEq
      split at stepEq
      · contradiction
      · rename_i nonempty
        cases stepEq
        obtain ⟨keptAfter, still⟩ := getOneClientUnit_exact kept roundRobin nonempty
        exact ⟨keptAfter, iff_of_true still trivial⟩

/-- In every state of a run the next call picks a member and the calls go round,
exactly when no member is erased in it while the cursor is at the last of
several units, and the cursor can count the units. -/
theorem roundRobin_iff_keepsCursorInside (labels : List Label) :
    Always step RoundRobin labels {} ↔ EachStep step KeepsCursorInside labels {} := by
  apply always_iff_eachStep_of_exact (fun _ _ _ => step_exact)
  · exact ⟨by decide, fun _ => rfl⟩
  · exact (roundRobin_iff (by decide)).mpr (Or.inl rfl)

/-- Of two units one is picked and erased; the cursor is left at position one,
and the next call throws. -/
theorem not_roundRobin :
    ¬ Always step RoundRobin
      [.insert (some 0), .insert (some 1), .getOneClientUnit, .erase (some 0)] {} := by
  intro always
  obtain ⟨unit, -, picked⟩ := (always.after rfl).member (by decide)
  contradiction

end CTcpClientUnitPool

end NginxFastcgi.Fastcgi
