import Mathlib.Algebra.Ring.Int.Defs
import Mathlib.Algebra.Ring.Nat

/-!
# Fixed-width integer arithmetic

Unsigned 64-bit quantities are naturals reduced modulo `2 ^ 64`; signed 32-bit
quantities are integers reduced to the balanced range.  Each operation has a
lemma saying when no reduction takes place.
-/

namespace Foundation.MachineInt

/-- Reduction of an unsigned 64-bit result. -/
def wrap64 (value : Nat) : Nat :=
  value % 2 ^ 64

/-- Unsigned 64-bit subtraction. -/
def sub64 (first second : Nat) : Nat :=
  (first + (2 ^ 64 - second % 2 ^ 64)) % 2 ^ 64

/-- Conversion of an integer to the signed 32-bit range. -/
def toInt32 (value : Int) : Int :=
  Int.bmod value (2 ^ 32)

/-- Conversion of a signed integer to an unsigned 64-bit size. -/
def toSize (value : Int) : Nat :=
  (value % 2 ^ 64).toNat

theorem wrap64_of_lt {value : Nat} (fits : value < 2 ^ 64) : wrap64 value = value :=
  Nat.mod_eq_of_lt fits

theorem wrap64_le (value : Nat) : wrap64 value ≤ value :=
  Nat.mod_le _ _

theorem sub64_of_le {first second : Nat} (ordered : second ≤ first) (fits : first < 2 ^ 64) :
    sub64 first second = first - second := by
  unfold sub64
  omega

theorem wrap64_add_wrap64 (first second : Nat) :
    wrap64 (wrap64 first + second) = wrap64 (first + second) := by
  unfold wrap64
  omega

theorem toInt32_of_bounds {value : Int} (lower : -2 ^ 31 ≤ value) (upper : value < 2 ^ 31) :
    toInt32 value = value := by
  unfold toInt32
  rw [Int.bmod_eq_of_le] <;> omega

theorem toSize_of_nonneg {value : Int} (lower : 0 ≤ value) (upper : value < 2 ^ 64) :
    toSize value = value.toNat := by
  unfold toSize
  rw [Int.emod_eq_of_lt lower upper]

example : toInt32 (2 ^ 31) = -2 ^ 31 := by decide

end Foundation.MachineInt
