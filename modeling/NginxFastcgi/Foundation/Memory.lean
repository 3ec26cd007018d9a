/-!
# Blocks of memory

A block is a list of cells.  `slice` reads a range of it and `blit` overwrites
one, as a copy of cells does.  Both are stated for ranges inside the block; the
lemmas say so where it matters.
-/

namespace Foundation.Memory

universe u

variable {α : Type u}

/-- The `length` cells that start at `offset`. -/
def slice (memory : List α) (offset length : Nat) : List α :=
  (memory.drop offset).take length

/-- Overwrite the cells from `offset` on with `source`. -/
def blit (memory : List α) (offset : Nat) (source : List α) : List α :=
  memory.take offset ++ source ++ memory.drop (offset + source.length)

@[simp]
theorem slice_zero_length (memory : List α) (offset : Nat) : slice memory offset 0 = [] := by
  simp [slice]

theorem length_slice (memory : List α) {offset length : Nat}
    (inside : offset + length ≤ memory.length) :
    (slice memory offset length).length = length := by
  simp only [slice, List.length_take, List.length_drop]
  omega

/-- A range splits at any point of it. -/
theorem slice_add (memory : List α) (offset first second : Nat) :
    slice memory offset (first + second) =
      slice memory offset first ++ slice memory (offset + first) second := by
  simp only [slice, List.take_add, List.drop_drop]

theorem take_slice (memory : List α) {offset length count : Nat} (within : count ≤ length) :
    (slice memory offset length).take count = slice memory offset count := by
  simp only [slice, List.take_take, Nat.min_eq_left within]

theorem drop_slice (memory : List α) (offset length count : Nat) :
    (slice memory offset length).drop count =
      slice memory (offset + count) (length - count) := by
  simp only [slice, List.drop_take, List.drop_drop]

theorem slice_append (memory extra : List α) {offset length : Nat}
    (inside : offset + length ≤ memory.length) :
    slice (memory ++ extra) offset length = slice memory offset length := by
  have startInside : offset ≤ memory.length := by omega
  have lengthInside : length ≤ (memory.drop offset).length := by
    simp only [List.length_drop]
    omega
  rw [slice, slice, List.drop_append_of_le_length startInside,
    List.take_append_of_le_length lengthInside]

theorem length_blit (memory source : List α) {offset : Nat}
    (inside : offset + source.length ≤ memory.length) :
    (blit memory offset source).length = memory.length := by
  simp only [blit, List.length_append, List.length_take, List.length_drop]
  omega

/-- Reading back what was just written. -/
theorem slice_blit (memory source : List α) {offset : Nat} (inside : offset ≤ memory.length) :
    slice (blit memory offset source) offset source.length = source := by
  have prefixLength : (memory.take offset).length = offset := by
    simp only [List.length_take]
    omega
  rw [slice, blit, List.append_assoc, List.drop_left' prefixLength, List.take_left]

/-- Cells in front of the written range are unchanged. -/
theorem slice_blit_before (memory source : List α) {offset start length : Nat}
    (before : start + length ≤ offset) (inside : offset ≤ memory.length) :
    slice (blit memory offset source) start length = slice memory start length := by
  have prefixLength : (memory.take offset).length = offset := by
    simp only [List.length_take]
    omega
  have onPrefix : slice (memory.take offset) start length = slice memory start length := by
    rw [← slice_append (memory.take offset) (memory.drop offset) (by omega),
      List.take_append_drop]
  rw [blit, List.append_assoc, slice_append _ _ (by omega), onPrefix]

/-- Writing directly behind a range extends it. -/
theorem slice_blit_extend (memory source : List α) {start length : Nat}
    (inside : start + length ≤ memory.length) :
    slice (blit memory (start + length) source) start (length + source.length) =
      slice memory start length ++ source := by
  rw [slice_add, slice_blit_before memory source (Nat.le_refl _) inside,
    slice_blit memory source inside]

end Foundation.Memory
