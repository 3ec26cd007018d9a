import NginxFastcgi.Fcgi.FillBuffer

/-!
# What the clients of an input stream get

`FCGX_GetChar`, `FCGX_GetStr` and `ReadParams` see an input stream through its
window and its fill procedure only.  `Supplies` says that a fill procedure
brings a given list of bytes piece by piece and then ends the stream; what the
clients return depends on that list and not on the pieces.
-/

namespace NginxFastcgi.Fcgi

open Foundation
open Foundation.Loop
open Foundation.Memory

namespace Reader

/-- `rest data reader request` says that the open stream still brings `data`,
and `ended reader request` that it is over.  A fill makes the window nonempty
or ends the stream. -/
structure Supplies (fill : FillProc) (rest : List UInt8 → Reader → Request → Prop)
    (ended : Reader → Request → Prop) : Prop where
  is_open : ∀ {data reader request}, rest data reader request → reader.isClosed = false
  inside : ∀ {data reader request}, rest data reader request →
    reader.rdNext ≤ reader.stop ∧ reader.stop ≤ reader.buff.length
  window : ∀ {data reader request}, rest data reader request → reader.window <+: data
  length_le : ∀ {data reader request}, rest data reader request →
    data.length ≤ reader.pending request
  take : ∀ {data reader request count}, rest data reader request →
    count ≤ reader.stop - reader.rdNext → rest (data.drop count) (reader.advance count) request
  ended_closed : ∀ {reader request}, ended reader request → reader.isClosed = true
  fill_spec : ∀ {data reader request}, rest data reader request → reader.rdNext = reader.stop →
    ∃ after sent, fill reader request = some (after, sent) ∧
      ((after.isClosed = false ∧ rest data { after with stopUnget := after.rdNext } sent ∧
        after.rdNext ≠ after.stop) ∨ (data = [] ∧ ended after sent))

section Supplies

variable {fill : FillProc} {rest : List UInt8 → Reader → Request → Prop}
  {ended : Reader → Request → Prop} (supplies : Supplies fill rest ended) {data : List UInt8}
  {reader : Reader} {request : Request}
include supplies

theorem Supplies.slice_eq (held : rest data reader request) {count : Nat}
    (within : count ≤ reader.stop - reader.rdNext) :
    slice reader.buff reader.rdNext count = data.take count := by
  obtain ⟨low, high⟩ := supplies.inside held
  obtain ⟨more, dataEq⟩ := supplies.window held
  have length : reader.window.length = reader.stop - reader.rdNext := length_slice _ (by omega)
  rw [← dataEq, List.take_append_of_le_length (by rw [length]; exact within),
    Reader.window, take_slice _ within]

/-- The first byte of a window. -/
theorem Supplies.cons (held : rest data reader request) (window : reader.rdNext ≠ reader.stop) :
    ∃ more, data = reader.buff.getD reader.rdNext 0 :: more ∧
      rest more (reader.advance 1) request := by
  obtain ⟨low, high⟩ := supplies.inside held
  have one : 1 ≤ reader.stop - reader.rdNext := by omega
  have inBuff : reader.rdNext < reader.buff.length := by omega
  have taken := supplies.slice_eq held one
  have first : slice reader.buff reader.rdNext 1 = [reader.buff.getD reader.rdNext 0] := by
    rw [slice, List.drop_eq_getElem_cons inBuff, List.take_succ_cons, List.take_zero]
    simp [inBuff]
  rw [first] at taken
  cases data with
  | nil => simp at taken
  | cons byte more =>
      refine ⟨more, ?_, supplies.take held one⟩
      simpa using taken.symm

theorem Supplies.getChar_cons {c : UInt8} (held : rest (c :: data) reader request) :
    ∃ after sent, getChar fill reader request = some (some c, after, sent) ∧
      rest data after sent := by
  have isOpen := supplies.is_open held
  by_cases used : reader.rdNext = reader.stop
  · obtain ⟨after, sent, fillEq, next⟩ := supplies.fill_spec held used
    rcases next with ⟨stillOpen, heldAfter, window⟩ | ⟨empty, -⟩
    · obtain ⟨more, dataEq, heldMore⟩ := supplies.cons heldAfter window
      cases dataEq
      refine ⟨_, sent, ?_, heldMore⟩
      rw [getChar_of_used isOpen used, fillEq, Option.bind_some,
        charAfterFill_of_window stillOpen window]
    · contradiction
  · obtain ⟨more, dataEq, heldMore⟩ := supplies.cons held used
    cases dataEq
    exact ⟨_, request, getChar_of_window isOpen used, heldMore⟩

theorem Supplies.getChar_nil (held : rest [] reader request) :
    ∃ after sent, getChar fill reader request = some (none, after, sent) ∧ ended after sent := by
  have isOpen := supplies.is_open held
  have used : reader.rdNext = reader.stop := by
    by_contra window
    obtain ⟨more, dataEq, -⟩ := supplies.cons held window
    contradiction
  obtain ⟨after, sent, fillEq, next⟩ := supplies.fill_spec held used
  rcases next with ⟨-, heldAfter, window⟩ | ⟨-, isOver⟩
  · obtain ⟨more, dataEq, -⟩ := supplies.cons heldAfter window
    contradiction
  · refine ⟨after, sent, ?_, isOver⟩
    rw [getChar_of_used isOpen used, fillEq, Option.bind_some,
      charAfterFill_of_closed (supplies.ended_closed isOver)]

/-- What `FCGX_GetStr` comes to for `n` bytes of `data`. -/
def GotStr (rest : List UInt8 → Reader → Request → Prop) (ended : Reader → Request → Prop)
    (data : List UInt8) (n : Nat) : List UInt8 × Reader × Request → Prop
  | (str, after, sent) => str = data.take n ∧
      ((n ≤ data.length ∧ rest (data.drop n) after sent) ∨ (data.length < n ∧ ended after sent))

/-- One turn of `FCGX_GetStr`: it is done, or it moved the window and has a new
one. -/
theorem Supplies.getStrTurn {moved : List UInt8} (held : rest data reader request) {n : Nat}
    (short : moved.length < n) :
    (∃ count after sent, Reader.getStrTurn fill n (moved, reader, request) =
        some (.again (moved ++ data.take count, after, sent)) ∧ count ≤ data.length ∧
      moved.length + count < n ∧ rest (data.drop count) after sent ∧ after.rdNext ≠ after.stop ∧
      (reader.rdNext ≠ reader.stop → 0 < count)) ∨
    ∃ str after sent, Reader.getStrTurn fill n (moved, reader, request) =
        some (.done (moved ++ str, after, sent)) ∧
      GotStr rest ended data (n - moved.length) (str, after, sent) := by
  have isOpen := supplies.is_open held
  have sliceEq := supplies.slice_eq held
    (Nat.min_le_right (n - moved.length) (reader.stop - reader.rdNext))
  have taken := supplies.take held
    (Nat.min_le_right (n - moved.length) (reader.stop - reader.rdNext))
  have windowLe : reader.stop - reader.rdNext ≤ data.length := by
    obtain ⟨low, high⟩ := supplies.inside held
    have le := (supplies.window held).length_le
    rwa [Reader.window, length_slice _ (by omega)] at le
  generalize countEq : min (n - moved.length) (reader.stop - reader.rdNext) = count
    at sliceEq taken
  have countLe : count ≤ data.length := by omega
  have turnEq : Reader.getStrTurn fill n (moved, reader, request) =
      if reader.rdNext ≠ reader.stop ∧ moved.length + count = n then
        some (.done (moved ++ data.take count, reader.advance count, request))
      else
        (fill (reader.advance count) request).map (strAfterFill (moved ++ data.take count)) := by
    rw [Reader.getStrTurn]
    simp only [countEq, sliceEq, List.length_append, List.length_take,
      Nat.min_eq_left countLe]
    simp [advance, isOpen]
  by_cases whole : reader.rdNext ≠ reader.stop ∧ moved.length + count = n
  · refine Or.inr ⟨data.take count, reader.advance count, request, ?_, ?_, Or.inl ⟨?_, ?_⟩⟩
    · rw [turnEq, if_pos whole]
    · rw [← whole.2, Nat.add_sub_cancel_left]
    · omega
    · rwa [← whole.2, Nat.add_sub_cancel_left]
  · have usedUp : (reader.advance count).rdNext = (reader.advance count).stop := by
      obtain ⟨low, -⟩ := supplies.inside held
      change reader.rdNext + count = reader.stop
      by_cases used : reader.rdNext = reader.stop
      · omega
      · have notWhole := not_and.mp whole used
        omega
    have fewer : moved.length + count < n := by
      by_cases used : reader.rdNext = reader.stop
      · omega
      · have notWhole := not_and.mp whole used
        omega
    obtain ⟨after, sent, fillEq, next⟩ := supplies.fill_spec taken usedUp
    rw [if_neg whole, fillEq, Option.map_some] at turnEq
    rcases next with ⟨stillOpen, heldAfter, window⟩ | ⟨empty, isOver⟩
    · refine Or.inl ⟨count, _, sent, ?_, countLe, fewer, heldAfter, window, ?_⟩
      · rw [turnEq]
        simp [strAfterFill, stillOpen]
      · intro nonempty
        obtain ⟨low, -⟩ := supplies.inside held
        omega
    · have all : data.length ≤ count := List.drop_eq_nil_iff.mp empty
      refine Or.inr ⟨data.take count, after, sent, ?_, ?_, Or.inr ⟨?_, isOver⟩⟩
      · rw [turnEq]
        simp [strAfterFill, supplies.ended_closed isOver]
      · rw [List.take_of_length_le all, List.take_of_length_le (by omega)]
      · omega

/-- `FCGX_GetStr` returns the next `n` bytes, or all that are left if there
are fewer. -/
theorem Supplies.getStr (held : rest data reader request) (n : Nat) :
    ∃ str after sent, Reader.getStr fill n reader request = some (str, after, sent) ∧
      GotStr rest ended data n (str, after, sent) := by
  have isOpen := supplies.is_open held
  by_cases zero : n = 0
  · refine ⟨[], reader, request, ?_, ?_, Or.inl ⟨?_, ?_⟩⟩
    · rw [Reader.getStr, if_pos (Or.inr zero)]
    · rw [zero, List.take_zero]
    · omega
    · rwa [zero]
  · by_cases fits : n ≤ reader.stop - reader.rdNext
    · have sliceEq := supplies.slice_eq held fits
      have windowLe := (supplies.window held).length_le
      obtain ⟨low, high⟩ := supplies.inside held
      rw [Reader.window, length_slice _ (by omega)] at windowLe
      refine ⟨_, reader.advance n, request, ?_, sliceEq,
        Or.inl ⟨by omega, supplies.take held fits⟩⟩
      rw [Reader.getStr, if_neg (by simp [isOpen, zero]), if_pos fits]
    · have dataLe := supplies.length_le held
      obtain ⟨⟨str, after, sent⟩, runs, got⟩ := run_total (Reader.getStrTurn fill n)
        (fun state => state.1.length < n ∧
          ∃ left, state.1 ++ left = data ∧ rest left state.2.1 state.2.2)
        (GotStr rest ended data n)
        (fun state => data.length - state.1.length +
          if state.2.1.rdNext = state.2.1.stop then 1 else 0)
        (by
          rintro ⟨moved, current, now⟩ ⟨short, left, dataEq, heldNow⟩
          dsimp only at short dataEq heldNow
          rcases supplies.getStrTurn heldNow short with
            ⟨count, after, sent, turnEq, countLe, fewer, heldAfter, window, progress⟩ |
            ⟨str, after, sent, turnEq, strEq, next⟩
          · refine Or.inl ⟨_, turnEq, ⟨?_, left.drop count, ?_, heldAfter⟩, ?_⟩
            · simpa [countLe] using fewer
            · rw [List.append_assoc, List.take_append_drop, dataEq]
            · have total := congrArg List.length dataEq
              rw [List.length_append] at total
              simp only [window, if_false, List.length_append, List.length_take,
                Nat.min_eq_left countLe]
              split
              · omega
              · rename_i notUsed
                have positive := progress notUsed
                omega
          · refine Or.inr ⟨_, turnEq, ?_, ?_⟩
            · rw [← dataEq, List.take_append, List.take_of_length_le (Nat.le_of_lt short), strEq]
            · have total := congrArg List.length dataEq
              rw [List.length_append] at total
              rcases next with ⟨enough, heldAfter⟩ | ⟨few, isOver⟩
              · refine Or.inl ⟨by omega, ?_⟩
                rwa [← dataEq, List.drop_append, List.drop_of_length_le (Nat.le_of_lt short),
                  List.nil_append]
              · exact Or.inr ⟨by omega, isOver⟩)
        (2 * reader.pending request + 2) ([], reader, request)
        ⟨Nat.pos_of_ne_zero zero, data, rfl, held⟩
        (by
          dsimp only
          split <;> simp <;> omega)
      refine ⟨str, after, sent, ?_, got⟩
      rw [Reader.getStr, if_neg (by simp [isOpen, zero]), if_neg fits]
      exact runs

end Supplies

end Reader

end NginxFastcgi.Fcgi
