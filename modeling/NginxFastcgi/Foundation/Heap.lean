import Mathlib.Logic.Function.Basic

/-!
# A heap of allocations

The live allocations by their addresses, each with its cells.  The allocator
chooses an address that is not in use, which may be one that was freed.  The
result `none` of an operation means that it touches what is not live.
-/

namespace Foundation

universe u

abbrev Address := Nat

structure Heap (α : Type u) where
  live : Address → Option (List α) := fun _ => none

namespace Heap

variable {α : Type u}

/-- The heap with these cells at an address. -/
def set (heap : Heap α) (address : Address) (cells : List α) : Heap α where
  live := Function.update heap.live address (some cells)

/-- An allocation at an address that is not in use. -/
def allocate (heap : Heap α) (address : Address) (cells : List α) : Option (Heap α) :=
  match heap.live address with
  | none => some (heap.set address cells)
  | some _ => none

def free (heap : Heap α) (address : Address) : Option (Heap α) :=
  (heap.live address).map fun _ => { live := Function.update heap.live address none }

variable {heap after : Heap α} {address other : Address} {cells : List α}

@[simp]
theorem live_set_self (heap : Heap α) (address : Address) (cells : List α) :
    (heap.set address cells).live address = some cells :=
  Function.update_self _ _ _

theorem live_set_of_ne (different : other ≠ address) :
    (heap.set address cells).live other = heap.live other :=
  Function.update_of_ne different _ _

@[simp]
theorem set_set (heap : Heap α) (address : Address) (first second : List α) :
    (heap.set address first).set address second = heap.set address second := by
  simp only [set, Function.update_idem]

theorem allocate_eq_some_iff :
    heap.allocate address cells = some after ↔
      heap.live address = none ∧ after = heap.set address cells := by
  unfold allocate
  cases heap.live address with
  | none => simp only [Option.some.injEq, true_and, eq_comm]
  | some _ => simp only [reduceCtorEq, false_and]

/-- What is live can be freed. -/
theorem exists_free (found : heap.live address = some cells) :
    ∃ freed, heap.free address = some freed :=
  ⟨_, by rw [free, found, Option.map_some]⟩

/-- What is freed was live, and is not any more. -/
theorem live_of_free (freed : heap.free address = some after) :
    (∃ cells, heap.live address = some cells) ∧ after.live address = none ∧
      ∀ other, other ≠ address → after.live other = heap.live other := by
  rcases Option.map_eq_some_iff.mp freed with ⟨cells, found, rfl⟩
  exact ⟨⟨cells, found⟩, Function.update_self _ _ _, fun _ different =>
    Function.update_of_ne different _ _⟩

end Heap

end Foundation
