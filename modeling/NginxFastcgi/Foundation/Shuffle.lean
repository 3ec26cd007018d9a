/-!
# Shuffled lists

Two lists are shuffled into one that keeps the order of each.  `append` shuffles
one step after the other.
-/

namespace Foundation

universe u

/-- `merged` consists of `first` and `second`, each in its order. -/
inductive Shuffle {α : Type u} : List α → List α → List α → Prop
  | nil : Shuffle [] [] []
  | left {item : α} {first second merged : List α} :
      Shuffle first second merged → Shuffle (item :: first) second (item :: merged)
  | right {item : α} {first second merged : List α} :
      Shuffle first second merged → Shuffle first (item :: second) (item :: merged)

namespace Shuffle

variable {α : Type u} {first second merged : List α}

theorem of_left (items : List α) : Shuffle items [] items := by
  induction items with
  | nil => exact nil
  | cons item items inductionHypothesis => exact inductionHypothesis.left

theorem of_right (items : List α) : Shuffle [] items items := by
  induction items with
  | nil => exact nil
  | cons item items inductionHypothesis => exact inductionHypothesis.right

theorem append (shuffle : Shuffle first second merged) {moreFirst moreSecond more : List α}
    (later : Shuffle moreFirst moreSecond more) :
    Shuffle (first ++ moreFirst) (second ++ moreSecond) (merged ++ more) := by
  induction shuffle with
  | nil => exact later
  | left _ inductionHypothesis => exact inductionHypothesis.left
  | right _ inductionHypothesis => exact inductionHypothesis.right

end Shuffle

end Foundation
