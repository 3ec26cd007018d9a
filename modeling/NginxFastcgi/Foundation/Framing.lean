/-!
# Framed streams received in chunks

A framed stream is cut into items by a function that looks at the front of the
bytes at hand: an item with its size, a malformed front, or not enough data.
If items and malformed fronts are recognised no matter what follows, the items
of a stream do not depend on how it is cut into chunks.

`Parses` relates an input to its leading items and what remains, and `Tracks`
is the invariant of a receiver that keeps the remainder between chunks and
gives up for good on a malformed front.
-/

namespace Foundation.Framing

universe u v

/-- What the front of an input is. -/
inductive Outcome (β : Type v)
  | incomplete
  | malformed
  | frame (item : β) (size : Nat)
  deriving DecidableEq

/-- A way of cutting items off the front of an input. -/
structure Format (α : Type u) (β : Type v) where
  next : List α → Outcome β
  size_pos : ∀ {input item size}, next input = .frame item size → 0 < size
  size_le : ∀ {input item size}, next input = .frame item size → size ≤ input.length
  frame_append : ∀ {input item size} (more : List α),
    next input = .frame item size → next (input ++ more) = .frame item size
  malformed_append : ∀ {input} (more : List α),
    next input = .malformed → next (input ++ more) = .malformed

namespace Format

variable {α : Type u} {β : Type v} (format : Format α β)

/-- No item can be cut off the front. -/
def Stuck (input : List α) : Prop :=
  ∀ item size, format.next input ≠ .frame item size

/-- `input` starts with `items`, and `rest` remains when no more can be cut. -/
inductive Parses : List α → List β → List α → Prop
  | stop {input : List α} : format.Stuck input → Parses input [] input
  | frame {input rest : List α} {items : List β} {item : β} {size : Nat} :
      format.next input = .frame item size →
      Parses (input.drop size) items rest →
      Parses input (item :: items) rest

/-- A receiver that was given `consumed` delivered `items`.  It still holds
the remainder, or found it malformed and closed. -/
def Tracks (consumed : List α) (items : List β) : Option (List α) → Prop
  | some pending => format.Parses consumed items pending
  | none => ∃ rest, format.Parses consumed items rest ∧ format.next rest = .malformed

/-- The leading items of an input, and what remains. -/
def cut (input : List α) : List β × List α :=
  match _nextEq : format.next input with
  | .frame item size => (item :: (cut (input.drop size)).1, (cut (input.drop size)).2)
  | _ => ([], input)
  termination_by input.length
  decreasing_by
    all_goals
      have positive := format.size_pos _nextEq
      have fits := format.size_le _nextEq
      rw [List.length_drop]
      omega

variable {format}

theorem stuck_nil : format.Stuck [] := by
  intro item size nextEq
  have positive := format.size_pos nextEq
  have fits := format.size_le nextEq
  rw [List.length_nil] at fits
  omega

theorem stuck_of_malformed {input : List α} (malformed : format.next input = .malformed) :
    format.Stuck input := by
  intro item size nextEq
  rw [malformed] at nextEq
  contradiction

namespace Parses

variable {input rest : List α} {items : List β}

theorem rest_stuck (parses : format.Parses input items rest) : format.Stuck rest := by
  induction parses with
  | stop stuck => exact stuck
  | frame _ _ inductionHypothesis => exact inductionHypothesis

/-- Each item takes at least one cell. -/
theorem length_items_add_rest_le (parses : format.Parses input items rest) :
    items.length + rest.length ≤ input.length := by
  induction parses with
  | stop _ => simp
  | frame nextEq _ inductionHypothesis =>
      have positive := format.size_pos nextEq
      have fits := format.size_le nextEq
      rw [List.length_drop] at inductionHypothesis
      rw [List.length_cons]
      omega

theorem rest_eq_of_nil (parses : format.Parses input [] rest) : rest = input := by
  cases parses
  rfl

/-- The remainder is a suffix of the input. -/
theorem rest_eq_drop (parses : format.Parses input items rest) :
    rest = input.drop (input.length - rest.length) := by
  induction parses with
  | stop _ => rw [Nat.sub_self, List.drop_zero]
  | @frame input rest items item size nextEq parses inductionHypothesis =>
      have fits := format.size_le nextEq
      have shorter := parses.length_items_add_rest_le
      rw [List.length_drop] at inductionHypothesis shorter
      rw [List.drop_drop] at inductionHypothesis
      have offset : size + (input.length - size - rest.length) = input.length - rest.length := by
        omega
      rwa [offset] at inductionHypothesis

theorem unique {otherItems : List β} {otherRest : List α}
    (first : format.Parses input items rest)
    (second : format.Parses input otherItems otherRest) :
    items = otherItems ∧ rest = otherRest := by
  induction first generalizing otherItems otherRest with
  | stop stuck =>
      cases second with
      | stop _ => exact ⟨rfl, rfl⟩
      | frame nextEq _ => exact absurd nextEq (stuck _ _)
  | frame nextEq _ inductionHypothesis =>
      cases second with
      | stop stuck => exact absurd nextEq (stuck _ _)
      | frame otherEq other =>
          rw [nextEq] at otherEq
          cases otherEq
          obtain ⟨itemsEq, restEq⟩ := inductionHypothesis other
          exact ⟨congrArg _ itemsEq, restEq⟩

/-- Parsing resumes from the remainder when more data arrive. -/
theorem append {more finalRest : List α} {laterItems : List β}
    (first : format.Parses input items rest)
    (later : format.Parses (rest ++ more) laterItems finalRest) :
    format.Parses (input ++ more) (items ++ laterItems) finalRest := by
  induction first with
  | stop _ => exact later
  | frame nextEq _ inductionHypothesis =>
      have fits := format.size_le nextEq
      refine frame (format.frame_append more nextEq) ?_
      rw [List.drop_append_of_le_length fits]
      exact inductionHypothesis later

end Parses

theorem parses_cut (input : List α) :
    format.Parses input (format.cut input).1 (format.cut input).2 := by
  induction input using Format.cut.induct format with
  | case1 input item size nextEq inductionHypothesis =>
      rw [cut]
      split
      · rename_i other otherSize otherEq
        rw [nextEq] at otherEq
        cases otherEq
        exact .frame nextEq inductionHypothesis
      · rename_i notFrame
        exact absurd nextEq (notFrame item size)
  | case2 input notFrame =>
      rw [cut]
      split
      · rename_i item size nextEq
        exact absurd nextEq (notFrame item size)
      · exact .stop notFrame

theorem cut_eq_of_parses {input rest : List α} {items : List β}
    (parses : format.Parses input items rest) : format.cut input = (items, rest) := by
  obtain ⟨itemsEq, restEq⟩ := (format.parses_cut input).unique parses
  exact Prod.ext itemsEq restEq

namespace Tracks

variable {consumed chunk pending : List α} {items : List β}

theorem start : format.Tracks [] [] (some []) :=
  Parses.stop stuck_nil

/-- A chunk whose items are delivered. -/
theorem receive {newItems : List β} {rest : List α}
    (tracks : format.Tracks consumed items (some pending))
    (parses : format.Parses (pending ++ chunk) newItems rest) :
    format.Tracks (consumed ++ chunk) (items ++ newItems) (some rest) :=
  Parses.append tracks parses

/-- A chunk that completes a malformed front closes the receiver. -/
theorem close (tracks : format.Tracks consumed items (some pending))
    (malformed : format.next (pending ++ chunk) = .malformed) :
    format.Tracks (consumed ++ chunk) items none := by
  have stopped := tracks.receive (Parses.stop (stuck_of_malformed malformed))
  rw [List.append_nil] at stopped
  exact ⟨_, stopped, malformed⟩

/-- A closed receiver ignores what follows. -/
theorem ignore (tracks : format.Tracks consumed items none) (chunk : List α) :
    format.Tracks (consumed ++ chunk) items none := by
  obtain ⟨rest, parses, malformed⟩ := tracks
  have still := format.malformed_append chunk malformed
  have extended := parses.append (Parses.stop (stuck_of_malformed still))
  rw [List.append_nil] at extended
  exact ⟨_, extended, still⟩

/-- The items delivered are determined by the data consumed. -/
theorem items_unique {otherItems : List β} {state otherState : Option (List α)}
    (first : format.Tracks consumed items state)
    (second : format.Tracks consumed otherItems otherState) : items = otherItems := by
  have parsed : ∀ {delivered : List β} {state : Option (List α)},
      format.Tracks consumed delivered state → ∃ rest, format.Parses consumed delivered rest := by
    intro delivered state tracks
    cases state with
    | some pending => exact ⟨pending, tracks⟩
    | none => exact ⟨tracks.choose, tracks.choose_spec.1⟩
  obtain ⟨rest, firstParses⟩ := parsed first
  obtain ⟨otherRest, secondParses⟩ := parsed second
  exact (firstParses.unique secondParses).1

end Tracks

end Format

end Foundation.Framing
