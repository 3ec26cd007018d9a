import Mathlib.Logic.Function.Basic

/-!
# Partial maps

A partial map is a function to `Option`, changed at one key at a time with
`Function.update`.  The lemmas say where an entry of the changed map comes
from.
-/

namespace Foundation.PartialMap

universe u v

variable {κ : Type u} {α : Type v} [DecidableEq κ] {map : κ → Option α} {key other : κ}
  {value found : α}

theorem of_insert (lookup : Function.update map key (some value) other = some found) :
    other = key ∧ found = value ∨ other ≠ key ∧ map other = some found := by
  by_cases same : other = key
  · rw [same, Function.update_self] at lookup
    exact Or.inl ⟨same, (Option.some.inj lookup).symm⟩
  · rw [Function.update_of_ne same] at lookup
    exact Or.inr ⟨same, lookup⟩

theorem of_erase (lookup : Function.update map key none other = some found) :
    other ≠ key ∧ map other = some found := by
  by_cases same : other = key
  · rw [same, Function.update_self] at lookup
    contradiction
  · rw [Function.update_of_ne same] at lookup
    exact ⟨same, lookup⟩

/-- No entry is lost when one is set. -/
theorem isSome_insert (value : α) (present : (map other).isSome) :
    (Function.update map key (some value) other).isSome := by
  by_cases same : other = key
  · rw [same, Function.update_self]
    rfl
  · rw [Function.update_of_ne same]
    exact present

theorem isSome_insert_self (map : κ → Option α) (key : κ) (value : α) :
    (Function.update map key (some value) key).isSome := by
  rw [Function.update_self]
  rfl

/-- Only the erased entry is lost. -/
theorem isSome_erase (different : other ≠ key) (present : (map other).isSome) :
    (Function.update map key none other).isSome := by
  rw [Function.update_of_ne different]
  exact present

end Foundation.PartialMap
