import NginxFastcgi.Service.PipeQueue

/-!
# The writer of a pipe queue

`Valid` describes the writer between calls, and `pending` is what it still has
to write.  Every call whose offsets are used as they were counted moves bytes
from the pending ones to the kernel and keeps `Valid`.
-/

namespace NginxFastcgi.Service.CPipeQueueWriter

open Foundation.MachineInt
open Foundation.Memory
open NginxFastcgi.Network

/-- The bytes between the offset and the end. -/
def pending (writer : CPipeQueueWriter) : List UInt8 :=
  slice writer.mBuf writer.mDataSizeOffset.toNat
    (writer.mDataSizeEnd - writer.mDataSizeOffset).toNat

/-- The buffer was doubled a number of times, the counters lie inside it, and
output is asked for while there is some. -/
structure Valid (writer : CPipeQueueWriter) : Prop where
  attached : writer.mOwner.isSome
  doubled : ∃ times : Nat, writer.mBufVolume = kCommonConstant * 2 ^ times
  allocated : (writer.mBuf.length : Int) = Pointer.size * writer.mBufVolume
  small : writer.mBuf.length ≤ 2 ^ 31
  offset_nonneg : 0 ≤ writer.mDataSizeOffset
  pending_or_reset : writer.mDataSizeOffset < writer.mDataSizeEnd ∨
    writer.mDataSizeOffset = 0 ∧ writer.mDataSizeEnd = 0
  end_le_length : writer.mDataSizeEnd ≤ writer.mBuf.length
  end_lt : writer.mDataSizeEnd < 2 ^ 31
  output : writer.mDataSizeOffset < writer.mDataSizeEnd →
    writer.mEvents.epollout ∧ writer.registered.epollout

theorem new_valid (contents : Contents) (pool : PoolId) (fd : Int) :
    ((new contents).attachPool pool fd).Valid where
  attached := rfl
  doubled := ⟨0, rfl⟩
  allocated := by simp [new, attachPool, kCommonConstant, Pointer.size]
  small := by simp [new, attachPool, kCommonConstant, Pointer.size]
  offset_nonneg := Int.le_refl 0
  pending_or_reset := Or.inr ⟨rfl, rfl⟩
  end_le_length := Int.natCast_nonneg _
  end_lt := show (0 : Int) < 2 ^ 31 by decide
  output := fun below => absurd below (Int.lt_irrefl 0)

theorem modifyOwnEvent_of_attached {writer : CPipeQueueWriter} (attached : writer.mOwner.isSome) :
    writer.modifyOwnEvent =
      some { writer with
        toCPollUnit := { writer.toCPollUnit with registered := writer.mEvents } } := by
  obtain ⟨pool, owner⟩ := Option.isSome_iff_exists.mp attached
  rw [modifyOwnEvent, CPollUnit.modifyEvent_of_owner owner, Option.map_some]

namespace Valid

variable {writer : CPipeQueueWriter}

theorem length_pending (valid : writer.Valid) :
    (writer.pending.length : Int) = writer.mDataSizeEnd - writer.mDataSizeOffset := by
  have nonneg := valid.offset_nonneg
  have ordered := valid.pending_or_reset
  have inside := valid.end_le_length
  rw [pending, length_slice _ (by omega)]
  omega

/-- What a write offers is as long as what is pending. -/
theorem offered (valid : writer.Valid) :
    (writer.mDataSizeEnd - writer.mDataSizeOffset).toNat = writer.pending.length := by
  have lengthEq := valid.length_pending
  omega

theorem full_iff (valid : writer.Valid) :
    writer.Full ↔ writer.mDataSizeEnd = writer.mBuf.length := by
  have nonneg := valid.offset_nonneg
  have ordered := valid.pending_or_reset
  have inside := valid.end_le_length
  have small := valid.small
  have allocated := valid.allocated
  have sizeEq : Pointer.size = 8 := rfl
  rw [sizeEq] at allocated
  have volume : toSize writer.mBufVolume * Pointer.size = writer.mBuf.length := by
    rw [toSize_of_nonneg (by omega) (by omega), sizeEq]
    omega
  rw [Full, volume, wrap64_of_lt (by omega), toSize_of_nonneg (by omega) (by omega)]
  omega

theorem flushDue_iff (valid : writer.Valid) :
    writer.FlushDue ↔ 256 ≤ writer.mDataSizeEnd - writer.mDataSizeOffset ∧
      writer.mDataSizeEnd % 256 = 0 := by
  have nonneg := valid.offset_nonneg
  have ordered := valid.pending_or_reset
  have bounded := valid.end_lt
  have granule : kCommonConstant * Pointer.size = 256 := rfl
  rw [FlushDue, granule, toInt32_of_bounds (by omega) (by omega),
    toSize_of_nonneg (by omega) (by omega), toSize_of_nonneg (by omega) (by omega)]
  omega

end Valid

/-! ## Writing to the pipe -/

/-- The end of `OutputNotify`, after the offset has moved forward. -/
theorem finishOutput_spec {writer : CPipeQueueWriter} (valid : writer.Valid) {moved : Int}
    (lower : writer.mDataSizeOffset ≤ moved) (upper : moved ≤ writer.mDataSizeEnd) :
    ∃ after, finishOutput { writer with mDataSizeOffset := moved } = some after ∧ after.Valid ∧
      after.pending = slice writer.mBuf moved.toNat (writer.mDataSizeEnd - moved).toNat ∧
      after.mDataSizeOffset = if moved = writer.mDataSizeEnd then 0 else moved := by
  have nonneg : 0 ≤ moved := Int.le_trans valid.offset_nonneg lower
  have bounded := valid.end_lt
  have remaining : toInt32 (writer.mDataSizeEnd - moved) = writer.mDataSizeEnd - moved :=
    toInt32_of_bounds (by omega) (by omega)
  by_cases finished : moved = writer.mDataSizeEnd
  · have empty : toInt32 (writer.mDataSizeEnd - moved) ≤ 0 := by omega
    rw [finishOutput, if_pos empty, if_pos finished]
    refine ⟨_, modifyOwnEvent_of_attached valid.attached, ?_, ?_, rfl⟩
    · exact ⟨valid.attached, valid.doubled, valid.allocated, valid.small, Int.le_refl 0,
        Or.inr ⟨rfl, rfl⟩, Int.natCast_nonneg _, (by decide : (0 : Int) < 2 ^ 31),
        fun below => absurd below (Int.lt_irrefl 0)⟩
    · rw [finished, Int.sub_self, Int.toNat_zero, slice_zero_length]
      exact slice_zero_length _ _
  · have unfinished : moved < writer.mDataSizeEnd := by omega
    have nonempty : ¬ toInt32 (writer.mDataSizeEnd - moved) ≤ 0 := by omega
    have asked := valid.output (by omega)
    rw [finishOutput, if_neg nonempty, if_neg finished]
    refine ⟨_, modifyOwnEvent_of_attached valid.attached, ?_, rfl, rfl⟩
    exact ⟨valid.attached, valid.doubled, valid.allocated, valid.small, nonneg,
      Or.inl unfinished, valid.end_le_length, bounded, fun _ => ⟨asked.1, asked.1⟩⟩

/-- A write that the kernel refuses, or with nothing to offer, changes nothing
but resets an empty buffer. -/
theorem outputNotify_of_nothing {writer : CPipeQueueWriter} (valid : writer.Valid) {room : Nat}
    (nothing : min room writer.pending.length = 0) :
    ∃ after, writer.outputNotify room = some (after, writer.pending.take room) ∧
      after.Valid ∧ after.pending = writer.pending.drop room ∧
      after.mDataSizeOffset =
        if writer.pending.length ≤ room then 0 else writer.mDataSizeOffset + room := by
  have lengthEq := valid.length_pending
  have ordered := valid.pending_or_reset
  have offered := valid.offered
  obtain ⟨after, finished, afterValid, pendingEq, offsetEq⟩ :=
    finishOutput_spec valid (Int.le_refl _) (by omega)
  have noTake : writer.pending.take room = [] := by
    rw [List.take_eq_nil_iff, ← List.length_eq_zero_iff]
    omega
  have noDrop : writer.pending.drop room = writer.pending := by
    have joined := List.take_append_drop room writer.pending
    rwa [noTake, List.nil_append] at joined
  refine ⟨after, ?_, afterValid, ?_, ?_⟩
  · unfold outputNotify
    simp only [offered, if_pos nothing, noTake]
    rw [finished]
    rfl
  · rw [pendingEq, noDrop]
    rfl
  · rw [offsetEq]
    split <;> split <;> omega

/-- A write from the front of the buffer moves pending bytes to the kernel. -/
theorem outputNotify_of_start {writer : CPipeQueueWriter} (valid : writer.Valid) {room : Nat}
    (something : ¬ min room writer.pending.length = 0) (atStart : writer.mDataSizeOffset = 0) :
    ∃ after, writer.outputNotify room = some (after, writer.pending.take room) ∧
      after.Valid ∧ after.pending = writer.pending.drop room ∧
      after.mDataSizeOffset =
        if writer.pending.length ≤ room then 0 else writer.mDataSizeOffset + room := by
  have lengthEq := valid.length_pending
  have ordered := valid.pending_or_reset
  have bounded := valid.end_lt
  have within := valid.end_le_length
  have offered := valid.offered
  have moved : toInt32 (writer.mDataSizeOffset + (min room writer.pending.length : Nat)) =
      (min room writer.pending.length : Nat) := by
    rw [atStart, Int.zero_add]
    exact toInt32_of_bounds (by omega) (by omega)
  obtain ⟨after, finished, afterValid, pendingEq, offsetEq⟩ := finishOutput_spec valid
    (show writer.mDataSizeOffset ≤ (min room writer.pending.length : Nat) by omega)
    (by omega)
  have fromZero : writer.pending = slice writer.mBuf 0 writer.pending.length := by
    conv_lhs => rw [pending, offered, atStart, Int.toNat_zero]
  have inside : Pointer.size * writer.mDataSizeOffset.toNat + min room writer.pending.length ≤
      writer.mBuf.length := by
    rw [atStart, Int.toNat_zero, Nat.mul_zero]
    omega
  have written : writer.pending.take room =
      slice writer.mBuf 0 (min room writer.pending.length) := by
    conv_lhs => rw [fromZero, slice, List.take_take]
    rfl
  have left : writer.pending.drop room = slice writer.mBuf (min room writer.pending.length)
      (writer.pending.length - min room writer.pending.length) := by
    rcases Nat.le_total room writer.pending.length with within | beyond
    · conv_lhs => rw [fromZero, drop_slice, Nat.zero_add]
      rw [Nat.min_eq_left within]
    · rw [List.drop_eq_nil_of_le beyond, Nat.min_eq_right beyond, Nat.sub_self,
        slice_zero_length]
  refine ⟨after, ?_, afterValid, ?_, ?_⟩
  · unfold outputNotify
    simp only [offered, if_neg something, if_pos inside, moved]
    rw [finished, Option.map_some, atStart, Int.toNat_zero, Nat.mul_zero, written]
  · have rest : (writer.mDataSizeEnd - (min room writer.pending.length : Nat)).toNat =
        writer.pending.length - min room writer.pending.length := by omega
    rw [pendingEq, left, Int.toNat_natCast, rest]
  · rw [offsetEq]
    split <;> split <;> omega

/-- A write from the front of the buffer, or one the kernel refuses, moves
pending bytes to the kernel. -/
theorem outputNotify_spec {writer : CPipeQueueWriter} (valid : writer.Valid) {room : Nat}
    (fromStart : room = 0 ∨ writer.mDataSizeOffset = 0) :
    ∃ after, writer.outputNotify room = some (after, writer.pending.take room) ∧
      after.Valid ∧ after.pending = writer.pending.drop room ∧
      after.mDataSizeOffset =
        if writer.pending.length ≤ room then 0 else writer.mDataSizeOffset + room := by
  by_cases nothing : min room writer.pending.length = 0
  · exact outputNotify_of_nothing valid nothing
  · exact outputNotify_of_start valid nothing (fromStart.resolve_left (by omega))

/-! ## Pushing -/

/-- A buffer that is full has a size below the largest one, so doubling it
keeps it representable. -/
theorem Valid.length_of_full {writer : CPipeQueueWriter} (valid : writer.Valid)
    (full : writer.Full) : 256 ≤ writer.mBuf.length ∧ writer.mBuf.length ≤ 2 ^ 30 := by
  obtain ⟨times, volume⟩ := valid.doubled
  have endEq := valid.full_iff.mp full
  have bounded := valid.end_lt
  have lengthEq : writer.mBuf.length = 256 * 2 ^ times := by
    have allocated := valid.allocated
    rw [volume] at allocated
    have granule : (Pointer.size : Int) * ((kCommonConstant : Int) * 2 ^ times) =
        ((256 * 2 ^ times : Nat) : Int) := by
      push_cast
      rw [← Int.mul_assoc]
      rfl
    omega
  have positive : 1 ≤ 2 ^ times := Nat.one_le_two_pow
  have fewTimes : times < 23 := by
    by_contra many
    have large : 2 ^ 23 ≤ 2 ^ times := Nat.pow_le_pow_right (by decide) (by omega)
    omega
  have atMost : 2 ^ times ≤ 2 ^ 22 := Nat.pow_le_pow_right (by decide) (by omega)
  omega

/-- Making room keeps the pending bytes, now at the front of the buffer, and
leaves room for one pointer behind them. -/
structure MakesRoom (writer roomy : CPipeQueueWriter) : Prop where
  valid : roomy.Valid
  pending_eq : roomy.pending = writer.pending
  at_start : roomy.mDataSizeOffset = 0
  inside : roomy.mDataSizeEnd + 8 ≤ roomy.mBuf.length
  counted : roomy.mDataSizeEnd + 8 < 2 ^ 31

/-- Compaction moves the pending bytes to the front. -/
theorem makesRoom_compact {writer : CPipeQueueWriter} (valid : writer.Valid)
    (full : writer.Full) (compacts : 8 < writer.mDataSizeOffset) :
    writer.MakesRoom
      { writer with
        mBuf := blit writer.mBuf 0 (slice writer.mBuf writer.mDataSizeOffset.toNat
          (writer.mDataSizeEnd - writer.mDataSizeOffset).toNat)
        mDataSizeEnd := writer.mDataSizeEnd - writer.mDataSizeOffset
        mDataSizeOffset := 0 } := by
  have ordered := valid.pending_or_reset
  have bounded := valid.end_lt
  have endEq := valid.full_iff.mp full
  have moved : (slice writer.mBuf writer.mDataSizeOffset.toNat
      (writer.mDataSizeEnd - writer.mDataSizeOffset).toNat).length =
        (writer.mDataSizeEnd - writer.mDataSizeOffset).toNat :=
    length_slice _ (by omega)
  have sameLength : (blit writer.mBuf 0 (slice writer.mBuf writer.mDataSizeOffset.toNat
      (writer.mDataSizeEnd - writer.mDataSizeOffset).toNat)).length = writer.mBuf.length :=
    length_blit _ _ (by omega)
  have readBack := slice_blit writer.mBuf (slice writer.mBuf writer.mDataSizeOffset.toNat
    (writer.mDataSizeEnd - writer.mDataSizeOffset).toNat) (Nat.zero_le _)
  rw [moved] at readBack
  refine ⟨⟨valid.attached, valid.doubled, ?_, ?_, Int.le_refl 0, Or.inl ?_, ?_, ?_,
    fun _ => valid.output (by omega)⟩, ?_, rfl, ?_, ?_⟩
  · exact (congrArg Int.ofNat sameLength).trans valid.allocated
  · exact Nat.le_trans (Nat.le_of_eq sameLength) valid.small
  · exact (by omega : 0 < writer.mDataSizeEnd - writer.mDataSizeOffset)
  · rw [sameLength]
    exact (by omega : writer.mDataSizeEnd - writer.mDataSizeOffset ≤ writer.mBuf.length)
  · exact (by omega : writer.mDataSizeEnd - writer.mDataSizeOffset < 2 ^ 31)
  · rw [pending, pending, Int.sub_zero]
    exact readBack
  · rw [sameLength]
    exact (by omega :
      writer.mDataSizeEnd - writer.mDataSizeOffset + 8 ≤ writer.mBuf.length)
  · exact (by omega : writer.mDataSizeEnd - writer.mDataSizeOffset + 8 < 2 ^ 31)

/-- Doubling leaves the pending bytes where they are. -/
theorem makesRoom_double {writer : CPipeQueueWriter} (valid : writer.Valid)
    (full : writer.Full) (atStart : writer.mDataSizeOffset = 0) (contents : Contents) :
    writer.MakesRoom
      { writer with
        mBuf := writer.mBuf ++ fresh contents writer.mBuf.length
        mBufVolume := toInt32 (writer.mBufVolume * 2)
        mDataSizeOffset := 0 } := by
  have bounded := valid.end_lt
  have endEq := valid.full_iff.mp full
  obtain ⟨lower, upper⟩ := valid.length_of_full full
  obtain ⟨times, volume⟩ := valid.doubled
  have sizeEq : Pointer.size = 8 := rfl
  have allocated := valid.allocated
  rw [sizeEq] at allocated
  have twice : toInt32 (writer.mBufVolume * 2) = writer.mBufVolume * 2 :=
    toInt32_of_bounds (by omega) (by omega)
  have newLength : (writer.mBuf ++ fresh contents writer.mBuf.length).length =
      writer.mBuf.length + writer.mBuf.length := by
    rw [List.length_append, length_fresh]
  refine ⟨⟨valid.attached, ⟨times + 1, ?_⟩, ?_, ?_, Int.le_refl 0, Or.inl ?_, ?_, bounded,
    fun _ => valid.output (by omega)⟩, ?_, rfl, ?_, ?_⟩
  · rw [twice, volume, Int.pow_succ, Int.mul_assoc]
  · rw [newLength, twice, sizeEq]
    exact (by omega : ((writer.mBuf.length + writer.mBuf.length : Nat) : Int) =
      (8 : Nat) * (writer.mBufVolume * 2))
  · rw [newLength]
    omega
  · exact (by omega : 0 < writer.mDataSizeEnd)
  · rw [newLength]
    exact (by omega : writer.mDataSizeEnd ≤ (writer.mBuf.length + writer.mBuf.length : Nat))
  · have inside : (0 : Int).toNat + (writer.mDataSizeEnd - 0).toNat ≤ writer.mBuf.length := by
      omega
    rw [pending, pending, atStart]
    exact slice_append _ _ inside
  · rw [newLength]
    exact (by omega :
      writer.mDataSizeEnd + 8 ≤ (writer.mBuf.length + writer.mBuf.length : Nat))
  · exact (by omega : writer.mDataSizeEnd + 8 < 2 ^ 31)

/-- When a full buffer is compacted or doubled with nothing written from its
front, the pending bytes stay the same and one pointer fits. -/
theorem makeRoom_spec {writer roomy : CPipeQueueWriter} (valid : writer.Valid)
    (full : writer.Full) {realloc : Option Contents}
    (notResent : writer.mDataSizeOffset = 0 ∨ 8 < writer.mDataSizeOffset)
    (made : writer.makeRoom realloc = some roomy) : writer.MakesRoom roomy := by
  have nonneg := valid.offset_nonneg
  have ordered := valid.pending_or_reset
  have bounded := valid.end_lt
  have sizeEq : Pointer.size = 8 := rfl
  rw [makeRoom, if_pos full, toSize_of_nonneg (by omega) (by omega), sizeEq] at made
  by_cases compacts : writer.mDataSizeOffset.toNat > 8
  · rw [if_pos compacts, toInt32_of_bounds (by omega) (by omega)] at made
    cases made
    exact makesRoom_compact valid full (by omega)
  · rw [if_neg compacts] at made
    obtain ⟨contents, -, rfl⟩ := Option.map_eq_some_iff.mp made
    exact makesRoom_double valid full (by omega) contents

theorem store_spec {writer : CPipeQueueWriter} (valid : writer.Valid) (data : Pointer)
    (inside : writer.mDataSizeEnd + 8 ≤ writer.mBuf.length)
    (counted : writer.mDataSizeEnd + 8 < 2 ^ 31) :
    ∃ stored, writer.store data = some stored ∧ stored.Valid ∧
      stored.pending = writer.pending ++ data.bytes ∧
      stored.mDataSizeOffset = writer.mDataSizeOffset ∧
      stored.mDataSizeEnd = writer.mDataSizeEnd + 8 := by
  have nonneg := valid.offset_nonneg
  have ordered := valid.pending_or_reset
  have sizeEq : Pointer.size = 8 := rfl
  have size : data.bytes.length = 8 := data.length_bytes
  have fits : 0 ≤ writer.mDataSizeEnd ∧
      writer.mDataSizeEnd.toNat + Pointer.size ≤ writer.mBuf.length := by omega
  have advanced : toInt32 (writer.mDataSizeEnd + (Pointer.size : Int)) =
      writer.mDataSizeEnd + 8 :=
    toInt32_of_bounds (by omega) (by omega)
  have sameLength : (blit writer.mBuf writer.mDataSizeEnd.toNat data.bytes).length =
      writer.mBuf.length :=
    length_blit _ _ (by omega)
  rw [store, if_pos fits]
  refine ⟨_, modifyOwnEvent_of_attached valid.attached, ⟨valid.attached, valid.doubled, ?_, ?_,
    nonneg, Or.inl ?_, ?_, ?_, fun _ => ⟨rfl, rfl⟩⟩, ?_, rfl, advanced⟩
  · exact (congrArg Int.ofNat sameLength).trans valid.allocated
  · exact Nat.le_trans (Nat.le_of_eq sameLength) valid.small
  · rw [advanced]
    exact (by omega : writer.mDataSizeOffset < writer.mDataSizeEnd + 8)
  · rw [sameLength, advanced]
    exact inside
  · rw [advanced]
    exact counted
  · have startEq : writer.mDataSizeEnd.toNat = writer.mDataSizeOffset.toNat +
        (writer.mDataSizeEnd - writer.mDataSizeOffset).toNat := by omega
    have extended := slice_blit_extend writer.mBuf data.bytes
      (show writer.mDataSizeOffset.toNat +
        (writer.mDataSizeEnd - writer.mDataSizeOffset).toNat ≤ writer.mBuf.length by omega)
    have lengthEq : (writer.mDataSizeEnd + 8 - writer.mDataSizeOffset).toNat =
        (writer.mDataSizeEnd - writer.mDataSizeOffset).toNat + data.bytes.length := by omega
    rw [← startEq, ← lengthEq] at extended
    rw [pending, advanced]
    exact extended

/-- The steps of `Push` at which a counter is used as it was counted.  A full
buffer is not rewound to bytes that were sent already; otherwise the pointer
fits and the end stays a signed number, and an early flush starts at the front
of the buffer or writes nothing. -/
structure SafePush (writer : CPipeQueueWriter) (realloc : Option Contents) (room : Nat) :
    Prop where
  not_resent : writer.Full → realloc.isSome →
    writer.mDataSizeOffset = 0 ∨ 8 < writer.mDataSizeOffset
  inside : ¬ writer.Full → writer.mDataSizeEnd + 8 ≤ 8 * writer.mBufVolume
  counted : ¬ writer.Full → writer.mDataSizeEnd + 8 < 2 ^ 31
  flush_from_start : ¬ writer.Full → writer.mDataSizeOffset = 0 ∨ room = 0 ∨
    writer.mDataSizeEnd + 8 - writer.mDataSizeOffset < 256 ∨
    (writer.mDataSizeEnd + 8) % 256 ≠ 0

theorem safePush_iff {writer : CPipeQueueWriter} {realloc : Option Contents} {room : Nat} :
    writer.SafePush realloc room ↔
      (writer.Full → realloc.isSome →
          writer.mDataSizeOffset = 0 ∨ 8 < writer.mDataSizeOffset) ∧
        (¬ writer.Full → writer.mDataSizeEnd + 8 ≤ 8 * writer.mBufVolume) ∧
        (¬ writer.Full → writer.mDataSizeEnd + 8 < 2 ^ 31) ∧
        (¬ writer.Full → writer.mDataSizeOffset = 0 ∨ room = 0 ∨
          writer.mDataSizeEnd + 8 - writer.mDataSizeOffset < 256 ∨
          (writer.mDataSizeEnd + 8) % 256 ≠ 0) :=
  ⟨fun safe => ⟨safe.not_resent, safe.inside, safe.counted, safe.flush_from_start⟩,
    fun parts => ⟨parts.1, parts.2.1, parts.2.2.1, parts.2.2.2⟩⟩

instance {writer : CPipeQueueWriter} {realloc : Option Contents} {room : Nat} :
    Decidable (writer.SafePush realloc room) :=
  decidable_of_iff' _ safePush_iff

/-- The first part of a safe `Push` fails for lack of memory, or leaves room
for one pointer behind the same pending bytes. -/
theorem makeRoom_of_safe {writer : CPipeQueueWriter} (valid : writer.Valid)
    {realloc : Option Contents} {room : Nat} (safe : writer.SafePush realloc room) :
    writer.makeRoom realloc = none ∧ writer.Full ∧ realloc = none ∨
      ∃ roomy, writer.makeRoom realloc = some roomy ∧ roomy.Valid ∧
        roomy.pending = writer.pending ∧ roomy.mDataSizeEnd + 8 ≤ roomy.mBuf.length ∧
        roomy.mDataSizeEnd + 8 < 2 ^ 31 ∧
        (writer.mDataSizeOffset = 0 → roomy.mDataSizeOffset = 0) ∧
        (roomy.mDataSizeOffset = 0 ∨ room = 0 ∨
          roomy.mDataSizeEnd + 8 - roomy.mDataSizeOffset < 256 ∨
          (roomy.mDataSizeEnd + 8) % 256 ≠ 0) := by
  by_cases full : writer.Full
  · have nonneg := valid.offset_nonneg
    have ordered := valid.pending_or_reset
    have bounded := valid.end_lt
    have offsetSize : toSize writer.mDataSizeOffset = writer.mDataSizeOffset.toNat :=
      toSize_of_nonneg nonneg (by omega)
    cases made : writer.makeRoom realloc with
    | none =>
        rw [makeRoom, if_pos full] at made
        split at made
        · contradiction
        · exact Or.inl ⟨rfl, full, Option.map_eq_none_iff.mp made⟩
    | some roomy =>
        have notResent : writer.mDataSizeOffset = 0 ∨ 8 < writer.mDataSizeOffset := by
          by_cases compacts : 8 < writer.mDataSizeOffset
          · exact Or.inr compacts
          · have sizeEq : Pointer.size = 8 := rfl
            rw [makeRoom, if_pos full, offsetSize, sizeEq, if_neg (by omega)] at made
            obtain ⟨contents, reallocEq, -⟩ := Option.map_eq_some_iff.mp made
            exact safe.not_resent full (by rw [reallocEq]; rfl)
        have makes := makeRoom_spec valid full notResent made
        exact Or.inr ⟨roomy, rfl, makes.valid, makes.pending_eq, makes.inside, makes.counted,
          fun _ => makes.at_start, Or.inl makes.at_start⟩
  · right
    have inside := safe.inside full
    have allocated := valid.allocated
    have sizeEq : Pointer.size = 8 := rfl
    rw [sizeEq] at allocated
    refine ⟨writer, ?_, valid, rfl, by omega, safe.counted full, id,
      safe.flush_from_start full⟩
    rw [makeRoom, if_neg full]

/-- A safe `Push` fails for lack of memory, or appends the pointer to the
pending bytes and flushes from their front. -/
theorem push_spec {writer : CPipeQueueWriter} (valid : writer.Valid) (data : Pointer)
    {realloc : Option Contents} {room : Nat} (safe : writer.SafePush realloc room) :
    writer.push data realloc room = some .failed ∧ writer.Full ∧ realloc = none ∨
      ∃ after flushed,
        writer.push data realloc room =
            some (.pushed after ((writer.pending ++ data.bytes).take flushed)) ∧
          after.Valid ∧ (flushed = 0 ∨ flushed = room) ∧
          after.pending = (writer.pending ++ data.bytes).drop flushed ∧
          (writer.mDataSizeOffset = 0 → after.mDataSizeOffset =
            if (writer.pending ++ data.bytes).length ≤ flushed then 0 else (flushed : Int)) := by
  rcases makeRoom_of_safe valid safe with
    ⟨made, full, noMemory⟩ | ⟨roomy, made, roomyValid, samePending, inside, counted,
      startKept, fromStart⟩
  · left
    refine ⟨?_, full, noMemory⟩
    rw [push, made]
  · right
    obtain ⟨stored, storeEq, storedValid, pendingEq, offsetEq, endEq⟩ :=
      store_spec roomyValid data inside counted
    rw [samePending] at pendingEq
    by_cases due : stored.FlushDue
    · have dueAt := storedValid.flushDue_iff.mp due
      rw [endEq, offsetEq] at dueAt
      have flushedFromStart : room = 0 ∨ stored.mDataSizeOffset = 0 := by omega
      obtain ⟨after, notified, afterValid, left, afterOffset⟩ :=
        outputNotify_spec storedValid flushedFromStart
      refine ⟨after, room, ?_, afterValid, Or.inr rfl, ?_, ?_⟩
      · rw [push, made]
        simp only [storeEq, Option.bind_some, if_pos due, notified, Option.map_some, pendingEq]
      · rw [left, pendingEq]
      · intro atStart
        rw [afterOffset, pendingEq, offsetEq, startKept atStart, Int.zero_add]
    · refine ⟨stored, 0, ?_, storedValid, Or.inl rfl, ?_, ?_⟩
      · rw [push, made]
        simp only [storeEq, Option.bind_some, if_neg due, List.take_zero]
      · rw [pendingEq, List.drop_zero]
      · intro atStart
        rw [offsetEq, startKept atStart]
        split <;> rfl

/-- An end that became negative is due for a flush, which resets the buffer. -/
theorem flush_of_wrapped {writer : CPipeQueueWriter} (attached : writer.mOwner.isSome)
    (atStart : writer.mDataSizeOffset = 0) (wrapped : writer.mDataSizeEnd = -2 ^ 31)
    (room : Nat) :
    writer.FlushDue ∧ ∃ unit, unit.mOwner = writer.mOwner ∧
      writer.outputNotify room =
        some ({ writer with toCPollUnit := unit, mDataSizeOffset := 0, mDataSizeEnd := 0 },
          []) := by
  have nothing : min room (writer.mDataSizeEnd - writer.mDataSizeOffset).toNat = 0 := by
    rw [atStart, wrapped]
    exact Nat.min_zero room
  have empty : toInt32 (writer.mDataSizeEnd - writer.mDataSizeOffset) ≤ 0 := by
    rw [atStart, wrapped]
    decide
  refine ⟨?_, { writer.disableOutput with registered := writer.disableOutput.mEvents }, rfl, ?_⟩
  · rw [FlushDue, atStart, wrapped]
    decide
  · have finished : writer.finishOutput = some
        { writer with
          toCPollUnit :=
            { writer.disableOutput with registered := writer.disableOutput.mEvents }
          mDataSizeOffset := 0
          mDataSizeEnd := 0 } := by
      rw [finishOutput, if_pos empty]
      exact modifyOwnEvent_of_attached attached
    rw [outputNotify]
    simp only [if_pos nothing, finished, Option.map_some]

/-- A pointer is stored behind `2 ^ 31 - 8` bytes without more room, and the end is
negative. -/
theorem store_saturated {writer : CPipeQueueWriter} (valid : writer.Valid)
    (atStart : writer.mDataSizeOffset = 0) (saturated : writer.mDataSizeEnd + 8 = 2 ^ 31)
    (data : Pointer) :
    ¬ writer.Full ∧ ∃ stored, writer.store data = some stored ∧ stored.mOwner.isSome ∧
      stored.mDataSizeOffset = 0 ∧ stored.mDataSizeEnd = -2 ^ 31 ∧
      stored.mBufVolume = writer.mBufVolume ∧ stored.mBuf.length = writer.mBuf.length := by
  have inside := valid.end_le_length
  have sizeEq : Pointer.size = 8 := rfl
  obtain ⟨times, volume⟩ := valid.doubled
  have granule : (256 : Int) ∣ writer.mBuf.length := by
    refine ⟨2 ^ times, ?_⟩
    rw [valid.allocated, volume, ← Int.mul_assoc]
    rfl
  have fits : 0 ≤ writer.mDataSizeEnd ∧
      writer.mDataSizeEnd.toNat + Pointer.size ≤ writer.mBuf.length := by
    omega
  have wrapped : toInt32 (writer.mDataSizeEnd + (Pointer.size : Int)) = -2 ^ 31 := by
    have sum : writer.mDataSizeEnd + (Pointer.size : Int) = 2 ^ 31 := saturated
    rw [sum]
    decide
  have sameLength : (blit writer.mBuf writer.mDataSizeEnd.toNat data.bytes).length =
      writer.mBuf.length :=
    length_blit _ _ (by rw [data.length_bytes]; exact fits.2)
  constructor
  · rw [valid.full_iff]
    omega
  · rw [store, if_pos fits]
    exact ⟨_, modifyOwnEvent_of_attached valid.attached, valid.attached, atStart, wrapped, rfl,
      sameLength⟩

/-- A `Push` behind `2 ^ 31 - 8` bytes makes the end negative.  Its size is then
large enough for an early flush, which finds nothing between the offset and
the end: every pending pointer is gone. -/
theorem push_saturated {writer : CPipeQueueWriter} (valid : writer.Valid)
    (atStart : writer.mDataSizeOffset = 0) (saturated : writer.mDataSizeEnd + 8 = 2 ^ 31)
    (data : Pointer) (realloc : Option Contents) (room : Nat) :
    ∃ after, writer.push data realloc room = some (.pushed after []) ∧ after.Valid ∧
      after.mDataSizeOffset = 0 ∧ after.mDataSizeEnd = 0 := by
  rcases store_saturated valid atStart saturated data with
    ⟨notFull, stored, storeEq, storedAttached, offsetEq, endEq, volumeEq, lengthEq⟩
  obtain ⟨times, volume⟩ := valid.doubled
  obtain ⟨due, unit, sameOwner, flushed⟩ :=
    flush_of_wrapped storedAttached offsetEq endEq room
  refine ⟨{ stored with toCPollUnit := unit, mDataSizeOffset := 0, mDataSizeEnd := 0 }, ?_,
    ⟨?_, ⟨times, volumeEq.trans volume⟩, ?_, ?_, Int.le_refl 0, Or.inr ⟨rfl, rfl⟩,
      Int.natCast_nonneg _, (by decide : (0 : Int) < 2 ^ 31),
      fun below => absurd below (Int.lt_irrefl 0)⟩, rfl, rfl⟩
  · rw [push, makeRoom, if_neg notFull]
    simp only [storeEq, Option.bind_some, if_pos due, flushed, Option.map_some]
  · rw [← sameOwner] at storedAttached
    exact storedAttached
  · simp only [lengthEq, volumeEq]
    exact valid.allocated
  · simp only [lengthEq]
    exact valid.small

end NginxFastcgi.Service.CPipeQueueWriter
