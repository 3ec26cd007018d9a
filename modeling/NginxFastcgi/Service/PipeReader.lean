import NginxFastcgi.Service.PipeQueue

/-!
# The reader of a pipe queue

`held` is what the reader has read and not popped.  A pop takes the first
pointer of the held bytes, after a read when there is no whole one.
-/

namespace NginxFastcgi.Service.CPipeQueueReader

open Foundation.MachineInt
open Foundation.Memory
open NginxFastcgi.Network

/-- The bytes from the offset on. -/
def held (reader : CPipeQueueReader) : List UInt8 :=
  slice reader.mBuf (Pointer.size * reader.mDataNumOffset.toNat) reader.mRemainingSize.toNat

/-- The counters agree and lie inside the buffer. -/
structure Valid (reader : CPipeQueueReader) : Prop where
  allocated : reader.mBuf.length = kCommonConstant * Pointer.size
  offset_nonneg : 0 ≤ reader.mDataNumOffset
  remaining_nonneg : 0 ≤ reader.mRemainingSize
  end_eq : reader.mDataNumEnd = reader.mDataNumOffset + reader.mRemainingSize / 8
  inside : 8 * reader.mDataNumOffset + reader.mRemainingSize ≤ 256
  input : reader.registered.epollin

theorem new_valid (contents : Contents) (pool : PoolId) (fd : Int) :
    ((new contents).attachPool pool fd).Valid where
  allocated := length_fresh contents _
  offset_nonneg := Int.le_refl 0
  remaining_nonneg := Int.le_refl 0
  end_eq := rfl
  inside := show (8 * 0 + 0 : Int) ≤ 256 by decide
  input := rfl

variable {reader : CPipeQueueReader}

theorem Valid.length_held (valid : reader.Valid) :
    (reader.held.length : Int) = reader.mRemainingSize := by
  have nonneg := valid.offset_nonneg
  have remaining := valid.remaining_nonneg
  have inside := valid.inside
  have lengthEq : reader.mBuf.length = 256 := valid.allocated
  have sizeEq : Pointer.size = 8 := rfl
  rw [held, sizeEq, length_slice _ (by omega)]
  omega

/-- The buffer holds a whole pointer exactly when the offset is below the end. -/
theorem Valid.offset_lt_end_iff (valid : reader.Valid) :
    reader.mDataNumOffset < reader.mDataNumEnd ↔ 8 ≤ reader.held.length := by
  have lengthEq := valid.length_held
  have endEq := valid.end_eq
  omega

theorem take_spec (valid : reader.Valid) (whole : 8 ≤ reader.held.length) :
    ∃ after, reader.take = (after, Pointer.ofBytes (reader.held.take 8)) ∧ after.Valid ∧
      after.held = reader.held.drop 8 := by
  have lengthEq := valid.length_held
  have nonneg := valid.offset_nonneg
  have endEq := valid.end_eq
  have inside := valid.inside
  have sizeEq : Pointer.size = 8 := rfl
  have remainingEq : reader.take.1.mRemainingSize = reader.mRemainingSize - 8 :=
    toInt32_of_bounds (by omega) (by omega)
  have offsetEq : reader.take.1.mDataNumOffset = reader.mDataNumOffset + 1 :=
    toInt32_of_bounds (by omega) (by omega)
  have sameEnd : reader.take.1.mDataNumEnd = reader.mDataNumEnd := rfl
  have first : slice reader.mBuf (Pointer.size * reader.mDataNumOffset.toNat) Pointer.size =
      reader.held.take 8 := by
    rw [held, take_slice _ (by omega), sizeEq]
  refine ⟨reader.take.1, Prod.ext rfl (congrArg Pointer.ofBytes first),
    ⟨valid.allocated, by omega, by omega, by omega, by omega, valid.input⟩, ?_⟩
  have startEq : 8 * (reader.mDataNumOffset + 1).toNat =
      8 * reader.mDataNumOffset.toNat + 8 := by omega
  have restEq : (reader.mRemainingSize - 8).toNat = reader.mRemainingSize.toNat - 8 := by omega
  rw [held, held, offsetEq, remainingEq, drop_slice, sizeEq, startEq, restEq]
  rfl

/-- Moving the rest of a pointer to the front keeps it. -/
theorem moveFront_spec (valid : reader.Valid) (short : reader.held.length < 8) :
    reader.moveFront.Valid ∧ reader.moveFront.held = reader.held := by
  have lengthEq := valid.length_held
  have remaining := valid.remaining_nonneg
  have nothing : (0 : Int) = 0 + reader.mRemainingSize / 8 := by omega
  have fits : (8 * 0 : Int) + reader.mRemainingSize ≤ 256 := by omega
  have allocated : reader.mBuf.length = 256 := valid.allocated
  by_cases some_left : reader.mRemainingSize > 0
  · have moved : reader.moveFront.mBuf = blit reader.mBuf 0 reader.held := by
      rw [moveFront]
      exact if_pos some_left
    have sameLength : (blit reader.mBuf 0 reader.held).length = reader.mBuf.length :=
      length_blit _ _ (by omega)
    refine ⟨⟨?_, Int.le_refl 0, remaining, nothing, fits, valid.input⟩, ?_⟩
    · rw [moved, sameLength, valid.allocated]
    · have readBack := slice_blit reader.mBuf reader.held (Nat.zero_le _)
      have countEq : reader.mRemainingSize.toNat = reader.held.length := by omega
      rw [held, moved]
      exact (congrArg _ countEq).trans readBack
  · have kept : reader.moveFront.mBuf = reader.mBuf := by
      rw [moveFront]
      exact if_neg some_left
    refine ⟨⟨?_, Int.le_refl 0, remaining, nothing, fits, valid.input⟩, ?_⟩
    · rw [kept, valid.allocated]
    · have none_left : reader.held = [] := List.eq_nil_of_length_eq_zero (by omega)
      have countEq : reader.mRemainingSize.toNat = 0 := by omega
      rw [none_left, held]
      exact (congrArg _ countEq).trans (slice_zero_length _ _)

/-- A read into a buffer whose bytes start at the front appends to them. -/
theorem fill_spec (valid : reader.Valid) (front : reader.mDataNumOffset = 0)
    {data : List UInt8} (fits : reader.held.length + data.length ≤ 256) :
    (reader.fill data).Valid ∧ (reader.fill data).held = reader.held ++ data := by
  have lengthEq := valid.length_held
  have remaining := valid.remaining_nonneg
  have allocated : reader.mBuf.length = 256 := valid.allocated
  have sizeEq : Pointer.size = 8 := rfl
  have sum : toInt32 (reader.mRemainingSize + data.length) =
      reader.mRemainingSize + data.length :=
    toInt32_of_bounds (by omega) (by omega)
  have quotient : toInt32 (toSize (reader.mRemainingSize + data.length) / Pointer.size : Nat) =
      (reader.mRemainingSize + data.length) / 8 := by
    rw [toSize_of_nonneg (by omega) (by omega), sizeEq,
      toInt32_of_bounds (by omega) (by omega)]
    omega
  have sameLength : (blit reader.mBuf reader.mRemainingSize.toNat data).length =
      reader.mBuf.length :=
    length_blit _ _ (by omega)
  have extended := slice_blit_extend reader.mBuf data
    (show 0 + reader.mRemainingSize.toNat ≤ reader.mBuf.length by omega)
  have countEq : (reader.mRemainingSize + data.length).toNat =
      reader.mRemainingSize.toNat + data.length := by omega
  rw [Nat.zero_add] at extended
  have filled : reader.fill data =
      { reader with
        mBuf := blit reader.mBuf reader.mRemainingSize.toNat data
        mRemainingSize := reader.mRemainingSize + data.length
        mDataNumEnd := (reader.mRemainingSize + data.length) / 8 } := by
    rw [fill, sum, quotient]
  rw [filled]
  refine ⟨⟨?_, valid.offset_nonneg, ?_, ?_, ?_, valid.input⟩, ?_⟩
  · rw [sameLength, valid.allocated]
  · exact (by omega : 0 ≤ reader.mRemainingSize + data.length)
  · simp only [front, Int.zero_add]
  · simp only [front]
    omega
  · simp only [held, front, countEq]
    exact extended

/-- A pop that finds a whole pointer does not read. -/
theorem pop_of_whole (valid : reader.Valid) (whole : 8 ≤ reader.held.length)
    (pipe : List UInt8) (available : Nat) :
    ∃ after, reader.pop pipe available =
        some (after, Pointer.ofBytes (reader.held.take 8), pipe) ∧
      after.Valid ∧ after.held = reader.held.drop 8 := by
  obtain ⟨after, taken, afterValid, left⟩ := take_spec valid whole
  have below := valid.offset_lt_end_iff.mpr whole
  refine ⟨after, ?_, afterValid, left⟩
  rw [pop, if_neg (by omega), taken]

/-- What the next pop reads: nothing while there is a whole pointer, and
otherwise what is available and fits. -/
def readData (reader : CPipeQueueReader) (pipe : List UInt8) (available : Nat) : List UInt8 :=
  if 8 ≤ reader.held.length then
    []
  else
    pipe.take (min available (256 - reader.held.length))

theorem readData_append_drop (reader : CPipeQueueReader) (pipe : List UInt8) (available : Nat) :
    reader.readData pipe available ++ pipe.drop (reader.readData pipe available).length =
      pipe := by
  unfold readData
  split
  · rfl
  · exact List.prefix_iff_eq_append.mp (List.take_prefix _ pipe)

/-- A pop without a whole pointer in the buffer is one read. -/
theorem pop_of_short (valid : reader.Valid) (short : reader.held.length < 8)
    (pipe : List UInt8) (available : Nat) :
    reader.pop pipe available =
      if reader.readData pipe available = [] then
        some (reader.moveFront, 0, pipe)
      else
        some ((reader.moveFront.fill (reader.readData pipe available)).take.1,
          (reader.moveFront.fill (reader.readData pipe available)).take.2,
          pipe.drop (reader.readData pipe available).length) := by
  obtain ⟨movedValid, -⟩ := moveFront_spec valid short
  have notBelow := (not_congr valid.offset_lt_end_iff).mpr (Nat.not_le.mpr short)
  have lengthEq := valid.length_held
  have wanted : ((reader.moveFront.mBuf.length : Int) - reader.moveFront.mRemainingSize).toNat =
      256 - reader.held.length := by
    have allocated : reader.moveFront.mBuf.length = 256 := movedValid.allocated
    have sameSize : reader.moveFront.mRemainingSize = reader.mRemainingSize := rfl
    omega
  have notNegative : ¬ reader.moveFront.mRemainingSize < 0 :=
    Int.not_lt.mpr movedValid.remaining_nonneg
  rw [pop, if_pos (by omega), readData, if_neg (Nat.not_le.mpr short)]
  simp only [wanted, if_neg notNegative]

/-- A pop takes the first pointer of the held and the newly read bytes, and
returns `NULL` when there are none.  A read must not end inside the first
pointer. -/
theorem pop_spec (valid : reader.Valid) (pipe : List UInt8) (available : Nat)
    (complete : reader.readData pipe available = [] ∨
      8 ≤ reader.held.length + (reader.readData pipe available).length) :
    ∃ after, after.Valid ∧
      (reader.held.length < 8 ∧ reader.readData pipe available = [] ∧
          reader.pop pipe available = some (after, 0, pipe) ∧ after.held = reader.held ∨
        8 ≤ reader.held.length + (reader.readData pipe available).length ∧
          reader.pop pipe available =
            some (after,
              Pointer.ofBytes ((reader.held ++ reader.readData pipe available).take 8),
              pipe.drop (reader.readData pipe available).length) ∧
          after.held = (reader.held ++ reader.readData pipe available).drop 8) := by
  by_cases whole : 8 ≤ reader.held.length
  · obtain ⟨after, popped, afterValid, left⟩ := pop_of_whole valid whole pipe available
    have noRead : reader.readData pipe available = [] := if_pos whole
    rw [noRead, List.append_nil, List.length_nil, List.drop_zero]
    exact ⟨after, afterValid, Or.inr ⟨whole, popped, left⟩⟩
  · have short : reader.held.length < 8 := Nat.not_le.mp whole
    obtain ⟨movedValid, sameHeld⟩ := moveFront_spec valid short
    rw [pop_of_short valid short]
    by_cases nothing : reader.readData pipe available = []
    · exact ⟨reader.moveFront, movedValid, Or.inl ⟨short, nothing, if_pos nothing, sameHeld⟩⟩
    · have enough := complete.resolve_left nothing
      have fits : reader.moveFront.held.length +
          (reader.readData pipe available).length ≤ 256 := by
        rw [sameHeld, readData, if_neg whole, List.length_take]
        omega
      obtain ⟨filledValid, filledHeld⟩ := fill_spec movedValid rfl fits
      rw [sameHeld] at filledHeld
      obtain ⟨after, taken, afterValid, left⟩ := take_spec filledValid
        (by rw [filledHeld, List.length_append]; exact enough)
      rw [filledHeld] at taken left
      refine ⟨after, afterValid, Or.inr ⟨enough, ?_, left⟩⟩
      rw [if_neg nothing, taken]

end NginxFastcgi.Service.CPipeQueueReader
