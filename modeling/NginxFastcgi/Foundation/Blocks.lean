/-!
# Sequences of fixed-size blocks

Items are encoded one after the other, each as the same number of cells.  A
cut of the encoding at a multiple of that number is a cut of the sequence.
-/

namespace Foundation.Blocks

universe u v

variable {α : Type u} {β : Type v} {encode : α → List β} {width : Nat}
  (constant : ∀ item, (encode item).length = width)
include constant

theorem length_flatMap (items : List α) :
    (items.flatMap encode).length = width * items.length := by
  induction items with
  | nil => rfl
  | cons item items inductionHypothesis =>
      rw [List.flatMap_cons, List.length_append, constant, inductionHypothesis,
        List.length_cons, Nat.mul_succ, Nat.add_comm]

/-- The first block is the first item. -/
theorem uncons {items : List α} {block rest : List β} (positive : 0 < width)
    (encoded : items.flatMap encode = block ++ rest) (size : block.length = width) :
    ∃ item others, items = item :: others ∧ encode item = block ∧
      others.flatMap encode = rest := by
  cases items with
  | nil =>
      have empty := congrArg List.length encoded
      rw [List.flatMap_nil, List.length_append, List.length_nil] at empty
      omega
  | cons item others =>
      rw [List.flatMap_cons] at encoded
      obtain ⟨first, others_eq⟩ := List.append_inj encoded (by rw [constant, size])
      exact ⟨item, others, rfl, first, others_eq⟩

/-- A front made of whole blocks encodes the first items. -/
theorem split {items : List α} {front back : List β}
    (encoded : items.flatMap encode = front ++ back) (whole : width ∣ front.length) :
    ∃ first second, items = first ++ second ∧ first.flatMap encode = front ∧
      second.flatMap encode = back := by
  obtain ⟨count, lengthEq⟩ := whole
  have divided : (items.take count).flatMap encode ++ (items.drop count).flatMap encode =
      front ++ back := by
    rw [← List.flatMap_append, List.take_append_drop, encoded]
  have total := congrArg List.length encoded
  rw [length_flatMap constant, List.length_append] at total
  have sameLength : ((items.take count).flatMap encode).length = front.length := by
    rcases Nat.eq_zero_or_pos width with rfl | positive
    · rw [length_flatMap constant, lengthEq, Nat.zero_mul, Nat.zero_mul]
    · have enough : count ≤ items.length :=
        Nat.le_of_mul_le_mul_left (by omega) positive
      rw [length_flatMap constant, List.length_take, Nat.min_eq_left enough, lengthEq]
  obtain ⟨first, second⟩ := List.append_inj divided sameLength
  exact ⟨items.take count, items.drop count, (List.take_append_drop count items).symm,
    first, second⟩

end Foundation.Blocks
