import Mathlib.Data.List.Basic
import NginxFastcgi.Foundation.Framing

/-!
# Parameter vectors

`Params` is a growing array of `name=value` strings that is ended by a null
pointer.  The position of the null pointer is kept in `cur`; that it lies
inside the array is part of the structure.
-/

namespace NginxFastcgi.Fcgi

/-- `Params`, whose cells hold strings or the null pointer. -/
structure Params where
  vec : List (Option (List UInt8))
  cur : Nat
  inside : cur < vec.length
  ended : vec[cur]? = some none
  filled : ∀ cell ∈ vec.take cur, cell ≠ none

namespace Params

/-- `NewParams`. -/
def newParams (length : Nat) (positive : 0 < length) : Params where
  vec := List.replicate length none
  cur := 0
  inside := by simpa using positive
  ended := by simp [positive]
  filled := by simp

/-- The cells after `PutParam` stored a string and doubled a full array. -/
def grown (params : Params) (nameValue : List UInt8) : List (Option (List UInt8)) :=
  if params.cur + 1 ≥ params.vec.length then
    params.vec.set params.cur (some nameValue) ++ List.replicate params.vec.length none
  else
    params.vec.set params.cur (some nameValue)

variable (params : Params) (nameValue : List UInt8)

theorem lt_length_grown : params.cur + 1 < (params.grown nameValue).length := by
  have inside := params.inside
  unfold grown
  split
  · rw [List.length_append, List.length_set, List.length_replicate]
    omega
  · rw [List.length_set]
    omega

theorem take_grown :
    (params.grown nameValue).take (params.cur + 1) =
      params.vec.take params.cur ++ [some nameValue] := by
  have inside := params.inside
  have stored : (params.vec.set params.cur (some nameValue)).take (params.cur + 1) =
      params.vec.take params.cur ++ [some nameValue] := by
    rw [List.take_add_one, List.take_set_of_le (Nat.le_refl _)]
    simp [inside]
  unfold grown
  split
  · rw [List.take_append_of_le_length (by rw [List.length_set]; omega), stored]
  · exact stored

/-- `PutParam`. -/
def putParam : Params where
  vec := (params.grown nameValue).set (params.cur + 1) none
  cur := params.cur + 1
  inside := by
    rw [List.length_set]
    exact params.lt_length_grown nameValue
  ended := by
    rw [List.getElem?_set_self (params.lt_length_grown nameValue)]
  filled := by
    rw [List.take_set_of_le (Nat.le_refl _), take_grown]
    intro cell member
    rcases List.mem_append.mp member with early | last
    · exact params.filled cell early
    · simp [List.mem_singleton.mp last]

/-- The strings in front of the null pointer. -/
def entries : List (List UInt8) :=
  (params.vec.take params.cur).filterMap id

@[simp]
theorem entries_newParams {length : Nat} (positive : 0 < length) :
    (newParams length positive).entries = [] := by
  simp [entries, newParams]

/-- A string is added at the end, whether or not the array grows. -/
@[simp]
theorem entries_putParam :
    (params.putParam nameValue).entries = params.entries ++ [nameValue] := by
  simp only [entries, putParam]
  rw [List.take_set_of_le (Nat.le_refl _), take_grown, List.filterMap_append]
  rfl

end Params

/-- A string of the source. -/
def textBytes (text : String) : List UInt8 :=
  text.toList.map fun char => UInt8.ofNat char.toNat

/-- The byte of `=`. -/
def equalsSign : UInt8 := 61

end NginxFastcgi.Fcgi
