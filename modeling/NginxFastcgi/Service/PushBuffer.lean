import NginxFastcgi.Foundation.Transition
import NginxFastcgi.Service.PipeWriter

/-!
# What `Push` leaves pending

A run of the writer calls `Push` and `OutputNotify`.  Before an early flush,
`Push` either fails with nothing changed or puts the pointer behind the pending
bytes; whether it does depends on the offset, the end and the volume it finds.

A partial write can leave the offset at any byte.  A full buffer is compacted
from offset 9 on only, is rewound to sent bytes below that, and a compacted
buffer whose end is not a multiple of eight is found full too late.
-/

namespace NginxFastcgi.Service.CPipeQueueWriter

open Foundation.MachineInt
open Foundation.Memory
open Foundation.Transition

/-- The writer after `OutputNotify`, wherever the kernel found the bytes.  They
can lie behind the buffer, which the write does not notice. -/
def moveOn (writer : CPipeQueueWriter) (room : Nat) : Option CPipeQueueWriter :=
  let count := min room (writer.mDataSizeEnd - writer.mDataSizeOffset).toNat
  if count = 0 then
    writer.finishOutput
  else
    finishOutput { writer with mDataSizeOffset := toInt32 (writer.mDataSizeOffset + count) }

theorem moveOn_of_outputNotify {writer after : CPipeQueueWriter} {room : Nat}
    {written : List UInt8} (notified : writer.outputNotify room = some (after, written)) :
    writer.moveOn room = some after := by
  unfold outputNotify at notified
  unfold moveOn
  simp only at notified ⊢
  split at notified
  · rename_i nothing
    obtain ⟨finished, finishedEq, pairEq⟩ := Option.map_eq_some_iff.mp notified
    cases pairEq
    rw [if_pos nothing, finishedEq]
  · rename_i something
    split at notified
    · obtain ⟨finished, finishedEq, pairEq⟩ := Option.map_eq_some_iff.mp notified
      cases pairEq
      rw [if_neg something, finishedEq]
    · contradiction

/-- The writer after `Push`. -/
def afterPush (writer : CPipeQueueWriter) (data : Pointer) (realloc : Option Contents)
    (room : Nat) : Option CPipeQueueWriter :=
  match writer.makeRoom realloc with
  | none => some writer
  | some roomy =>
      (roomy.store data).bind fun stored =>
        if stored.FlushDue then stored.moveOn room else some stored

/-- The writer that an outcome of `Push` leaves. -/
def PushOutcome.writer (before : CPipeQueueWriter) : PushOutcome → CPipeQueueWriter
  | .failed => before
  | .pushed after _ => after

theorem afterPush_of_push {writer : CPipeQueueWriter} {data : Pointer}
    {realloc : Option Contents} {room : Nat} {outcome : PushOutcome}
    (pushed : writer.push data realloc room = some outcome) :
    writer.afterPush data realloc room = some (outcome.writer writer) := by
  unfold afterPush
  unfold push at pushed
  cases made : writer.makeRoom realloc with
  | none =>
      rw [made] at pushed
      cases pushed
      rfl
  | some roomy =>
      rw [made] at pushed
      obtain ⟨stored, storeEq, flushed⟩ := Option.bind_eq_some_iff.mp pushed
      simp only [storeEq, Option.bind_some]
      by_cases due : stored.FlushDue
      · rw [if_pos due] at flushed ⊢
        obtain ⟨⟨after, written⟩, notified, outcomeEq⟩ := Option.map_eq_some_iff.mp flushed
        cases outcomeEq
        exact moveOn_of_outputNotify notified
      · rw [if_neg due] at flushed ⊢
        cases flushed
        rfl

/-! ## Runs -/

/-- A call, with what `realloc` returns and the room in the pipe. -/
inductive Call
  | push (data : Pointer) (realloc : Option Contents) (room : Nat)
  | outputNotify (room : Nat)

def step : Step CPipeQueueWriter Call
  | writer, .push data realloc room => writer.afterPush data realloc room
  | writer, .outputNotify room => writer.moveOn room

/-- Writers reached from a new one by any calls. -/
def Reached (contents : Contents) (pool : Network.PoolId) (fd : Int) :
    CPipeQueueWriter → Prop :=
  Reachable step (fun _ _ => True) ((new contents).attachPool pool fd)

/-- `Push` fails with nothing changed, or stores the pointer inside the
allocated bytes and behind the pending ones. -/
def PushKeeps (writer : CPipeQueueWriter) (data : Pointer) (realloc : Option Contents) : Prop :=
  writer.makeRoom realloc = none ∨
    ∃ roomy stored, writer.makeRoom realloc = some roomy ∧ roomy.store data = some stored ∧
      0 ≤ roomy.mDataSizeEnd ∧
      roomy.mDataSizeEnd + Pointer.size ≤ roomy.mBufVolume * Pointer.size ∧
      (stored.mBuf.length : Int) = roomy.mBufVolume * Pointer.size ∧
      stored.pending = writer.pending ++ data.bytes

/-- A full buffer cannot grow, was compacted, or had nothing written from its
front; otherwise the pointer fits and the end stays a signed number. -/
def Appends (writer : CPipeQueueWriter) (realloc : Option Contents) : Prop :=
  if writer.Full then
    writer.mDataSizeOffset ≤ 8 ∧ realloc = none ∨
      0 ≤ writer.mDataSizeEnd ∧ (writer.mDataSizeOffset = 0 ∨ 8 < writer.mDataSizeOffset)
  else
    writer.mDataSizeEnd + 8 ≤ 8 * writer.mBufVolume ∧ writer.mDataSizeEnd + 8 < 2 ^ 31

instance (writer : CPipeQueueWriter) (realloc : Option Contents) :
    Decidable (writer.Appends realloc) :=
  inferInstanceAs (Decidable (if writer.Full then _ else _))

/-- A buffer of the largest size whose end has become negative. -/
structure Wrapped (writer : CPipeQueueWriter) : Prop where
  attached : writer.mOwner.isSome
  doubled : ∃ times : Nat, writer.mBufVolume = kCommonConstant * 2 ^ times
  allocated : (writer.mBuf.length : Int) = Pointer.size * writer.mBufVolume
  largest : writer.mBuf.length = 2 ^ 31
  offset_nonneg : 0 ≤ writer.mDataSizeOffset
  offset_lt : writer.mDataSizeOffset < 2 ^ 31
  end_eq : writer.mDataSizeEnd = -2 ^ 31
  output : writer.mEvents.epollout ∧ writer.registered.epollout

/-- What runs leave of the writer. -/
def Kept (writer : CPipeQueueWriter) : Prop :=
  writer.Valid ∨ writer.Wrapped

theorem Valid.moveOn {writer after : CPipeQueueWriter} (valid : writer.Valid) {room : Nat}
    (notified : writer.moveOn room = some after) : after.Valid := by
  have nonneg := valid.offset_nonneg
  have ordered := valid.pending_or_reset
  have bounded := valid.end_lt
  unfold CPipeQueueWriter.moveOn at notified
  simp only at notified
  split at notified
  · obtain ⟨next, finished, nextValid, -⟩ :=
      finishOutput_spec valid (Int.le_refl _) (by omega)
    cases finished.symm.trans notified
    exact nextValid
  · have counted : toInt32 (writer.mDataSizeOffset +
        (min room (writer.mDataSizeEnd - writer.mDataSizeOffset).toNat : Nat)) =
          writer.mDataSizeOffset +
            (min room (writer.mDataSizeEnd - writer.mDataSizeOffset).toNat : Nat) :=
      toInt32_of_bounds (by omega) (by omega)
    rw [counted] at notified
    obtain ⟨next, finished, nextValid, -⟩ := finishOutput_spec valid
      (show writer.mDataSizeOffset ≤ writer.mDataSizeOffset +
        (min room (writer.mDataSizeEnd - writer.mDataSizeOffset).toNat : Nat) by omega)
      (by omega)
    cases finished.symm.trans notified
    exact nextValid

/-- The bytes between the offset and `2 ^ 31`, as their count is converted. -/
theorem Wrapped.length_eq {writer : CPipeQueueWriter} (wrapped : writer.Wrapped)
    (positive : 0 < writer.mDataSizeOffset) :
    toInt32 (writer.mDataSizeEnd - writer.mDataSizeOffset) =
      2 ^ 31 - writer.mDataSizeOffset := by
  have bounded := wrapped.offset_lt
  rw [wrapped.end_eq, toInt32, Int.bmod_def]
  split <;> omega

theorem Wrapped.pending_eq {writer : CPipeQueueWriter} (wrapped : writer.Wrapped) :
    writer.pending = [] := by
  have nonneg := wrapped.offset_nonneg
  have endEq := wrapped.end_eq
  have nothing : (writer.mDataSizeEnd - writer.mDataSizeOffset).toNat = 0 := by omega
  rw [pending, nothing, slice_zero_length]

theorem Wrapped.full {writer : CPipeQueueWriter} (wrapped : writer.Wrapped) : writer.Full := by
  have converted : toSize (-2 ^ 31) = 2 ^ 64 - 2 ^ 31 := by decide
  have allocated := wrapped.allocated
  have largest := wrapped.largest
  have sizeEq : Pointer.size = 8 := rfl
  rw [sizeEq] at allocated
  have volume : toSize writer.mBufVolume * Pointer.size = 2 ^ 31 := by
    rw [toSize_of_nonneg (by omega) (by omega), sizeEq]
    omega
  rw [Full, volume, wrapped.end_eq, converted, wrap64_of_lt (by decide)]
  decide

/-- A negative end makes `OutputNotify` do nothing, or reset the buffer. -/
theorem Wrapped.moveOn {writer after : CPipeQueueWriter} (wrapped : writer.Wrapped) {room : Nat}
    (notified : writer.moveOn room = some after) : after.Kept := by
  have nonneg := wrapped.offset_nonneg
  have endEq := wrapped.end_eq
  have nothing : min room (writer.mDataSizeEnd - writer.mDataSizeOffset).toNat = 0 := by omega
  unfold CPipeQueueWriter.moveOn at notified
  simp only [if_pos nothing] at notified
  rcases Int.lt_or_eq_of_le nonneg with positive | atStart
  · have nonempty : ¬ toInt32 (writer.mDataSizeEnd - writer.mDataSizeOffset) ≤ 0 := by
      have bounded := wrapped.offset_lt
      rw [wrapped.length_eq positive]
      omega
    rw [finishOutput, if_neg nonempty, modifyOwnEvent_of_attached wrapped.attached] at notified
    cases notified
    exact Or.inr ⟨wrapped.attached, wrapped.doubled, wrapped.allocated, wrapped.largest, nonneg,
      wrapped.offset_lt, endEq, wrapped.output.1, wrapped.output.1⟩
  · have empty : toInt32 (writer.mDataSizeEnd - writer.mDataSizeOffset) ≤ 0 := by
      rw [← atStart, endEq]
      decide
    rw [finishOutput, if_pos empty, modifyOwnEvent_of_attached ?attached] at notified
    case attached => exact wrapped.attached
    cases notified
    exact Or.inl ⟨wrapped.attached, wrapped.doubled, wrapped.allocated,
      Nat.le_of_eq wrapped.largest, Int.le_refl 0, Or.inr ⟨rfl, rfl⟩, Int.natCast_nonneg _,
      (by decide : (0 : Int) < 2 ^ 31), fun below => absurd below (Int.lt_irrefl 0)⟩

theorem Kept.moveOn {writer after : CPipeQueueWriter} (kept : writer.Kept) {room : Nat}
    (notified : writer.moveOn room = some after) : after.Kept := by
  rcases kept with valid | wrapped
  · exact Or.inl (valid.moveOn notified)
  · exact wrapped.moveOn notified

/-! ## Making room and storing -/

theorem store_inside {writer stored : CPipeQueueWriter} {data : Pointer}
    (storeEq : writer.store data = some stored) :
    0 ≤ writer.mDataSizeEnd ∧ writer.mDataSizeEnd + 8 ≤ writer.mBuf.length := by
  have sizeEq : Pointer.size = 8 := rfl
  unfold store at storeEq
  split at storeEq
  · rename_i inside
    omega
  · contradiction

/-- A pointer stored at the end of the largest buffer makes the end negative. -/
theorem Valid.store_wrapped {writer stored : CPipeQueueWriter} (valid : writer.Valid)
    {data : Pointer} (beyond : ¬ writer.mDataSizeEnd + 8 < 2 ^ 31)
    (storeEq : writer.store data = some stored) : stored.Wrapped := by
  obtain ⟨-, inside⟩ := store_inside storeEq
  have ordered := valid.pending_or_reset
  have bounded := valid.end_lt
  have small := valid.small
  have sizeEq : Pointer.size = 8 := rfl
  have size : data.bytes.length = 8 := data.length_bytes
  have fits : 0 ≤ writer.mDataSizeEnd ∧
      writer.mDataSizeEnd.toNat + Pointer.size ≤ writer.mBuf.length := by omega
  have sameLength : (blit writer.mBuf writer.mDataSizeEnd.toNat data.bytes).length =
      writer.mBuf.length :=
    length_blit _ _ (by omega)
  have sum : writer.mDataSizeEnd + (Pointer.size : Int) = 2 ^ 31 := by omega
  have converted : toInt32 (2 ^ 31) = -2 ^ 31 := by decide
  have counted : toInt32 (writer.mDataSizeEnd + (Pointer.size : Int)) = -2 ^ 31 := by
    rw [sum, converted]
  rw [CPipeQueueWriter.store, if_pos fits, modifyOwnEvent_of_attached ?attached] at storeEq
  case attached => exact valid.attached
  cases storeEq
  refine ⟨valid.attached, valid.doubled, ?_, ?_, valid.offset_nonneg, ?_, counted, rfl, rfl⟩
  · exact (congrArg Int.ofNat sameLength).trans valid.allocated
  · exact sameLength.trans (by omega)
  · exact (by omega : writer.mDataSizeOffset < 2 ^ 31)

theorem Valid.store {writer stored : CPipeQueueWriter} (valid : writer.Valid) {data : Pointer}
    (storeEq : writer.store data = some stored) : stored.Kept := by
  by_cases counted : writer.mDataSizeEnd + 8 < 2 ^ 31
  · obtain ⟨next, nextEq, nextValid, -⟩ := store_spec valid data (store_inside storeEq).2 counted
    cases nextEq.symm.trans storeEq
    exact Or.inl nextValid
  · exact Or.inr (valid.store_wrapped counted storeEq)

/-- A full buffer with its offset moved back to the front. -/
theorem Valid.rewind {writer : CPipeQueueWriter} (valid : writer.Valid) (full : writer.Full) :
    Valid { writer with mDataSizeOffset := 0 } := by
  have ordered := valid.pending_or_reset
  have endEq := valid.full_iff.mp full
  obtain ⟨lower, -⟩ := valid.length_of_full full
  exact ⟨valid.attached, valid.doubled, valid.allocated, valid.small, Int.le_refl 0,
    Or.inl (by omega : 0 < writer.mDataSizeEnd), valid.end_le_length, valid.end_lt,
    fun _ => valid.output (by omega)⟩

/-- A full buffer with one to eight bytes written from its front is doubled and
rewound, so that these bytes are pending again. -/
theorem Valid.makeRoom_rewinds {writer roomy : CPipeQueueWriter} (valid : writer.Valid)
    (full : writer.Full) {realloc : Option Contents} (short : writer.mDataSizeOffset ≤ 8)
    (made : writer.makeRoom realloc = some roomy) :
    MakesRoom { writer with mDataSizeOffset := 0 } roomy := by
  have nonneg := valid.offset_nonneg
  have sizeEq : Pointer.size = 8 := rfl
  have notCompacts : ¬ toSize writer.mDataSizeOffset > Pointer.size := by
    rw [toSize_of_nonneg nonneg (by omega)]
    omega
  have rewound : makeRoom { writer with mDataSizeOffset := 0 } realloc = some roomy := by
    rw [makeRoom, if_pos full, if_neg notCompacts] at made
    rw [makeRoom, if_pos (show Full { writer with mDataSizeOffset := 0 } from full),
      if_neg (by decide : ¬ toSize 0 > Pointer.size)]
    exact made
  exact makeRoom_spec (valid.rewind full) full (Or.inl rfl) rewound

theorem Valid.makeRoom {writer roomy : CPipeQueueWriter} (valid : writer.Valid)
    {realloc : Option Contents} (made : writer.makeRoom realloc = some roomy) : roomy.Valid := by
  by_cases full : writer.Full
  · by_cases short : writer.mDataSizeOffset ≤ 8
    · exact (valid.makeRoom_rewinds full short made).valid
    · exact (makeRoom_spec valid full (Or.inr (by omega)) made).valid
  · rw [CPipeQueueWriter.makeRoom, if_neg full] at made
    cases made
    exact valid

/-- Compaction of a buffer whose end is negative finds the bytes up to
`2 ^ 31`. -/
theorem Wrapped.compact {writer roomy : CPipeQueueWriter} (wrapped : writer.Wrapped)
    {realloc : Option Contents} (compacts : 8 < writer.mDataSizeOffset)
    (made : writer.makeRoom realloc = some roomy) :
    roomy.Valid ∧ roomy.pending ≠ [] ∧ roomy.mDataSizeEnd + 8 ≤ roomy.mBuf.length ∧
      roomy.mDataSizeEnd + 8 < 2 ^ 31 := by
  have bounded := wrapped.offset_lt
  have largest := wrapped.largest
  have sizeEq : Pointer.size = 8 := rfl
  have long : toSize writer.mDataSizeOffset > Pointer.size := by
    rw [toSize_of_nonneg (by omega) (by omega)]
    omega
  rw [makeRoom, if_pos wrapped.full, if_pos long, wrapped.length_eq (by omega)] at made
  have moved : (slice writer.mBuf writer.mDataSizeOffset.toNat
      (2 ^ 31 - writer.mDataSizeOffset).toNat).length =
        (2 ^ 31 - writer.mDataSizeOffset).toNat :=
    length_slice _ (by omega)
  have sameLength : (blit writer.mBuf 0 (slice writer.mBuf writer.mDataSizeOffset.toNat
      (2 ^ 31 - writer.mDataSizeOffset).toNat)).length = writer.mBuf.length :=
    length_blit _ _ (by omega)
  cases made
  have valid : Valid
      { writer with
        mBuf := blit writer.mBuf 0 (slice writer.mBuf writer.mDataSizeOffset.toNat
          (2 ^ 31 - writer.mDataSizeOffset).toNat)
        mDataSizeEnd := 2 ^ 31 - writer.mDataSizeOffset
        mDataSizeOffset := 0 } := by
    refine ⟨wrapped.attached, wrapped.doubled, ?_, ?_, Int.le_refl 0, Or.inl ?_, ?_, ?_,
      fun _ => wrapped.output⟩
    · exact (congrArg Int.ofNat sameLength).trans wrapped.allocated
    · exact Nat.le_of_eq (sameLength.trans largest)
    · exact (by omega : 0 < 2 ^ 31 - writer.mDataSizeOffset)
    · rw [sameLength]
      exact (by omega : 2 ^ 31 - writer.mDataSizeOffset ≤ writer.mBuf.length)
    · exact (by omega : 2 ^ 31 - writer.mDataSizeOffset < 2 ^ 31)
  have lengthEq : _ = 2 ^ 31 - writer.mDataSizeOffset - 0 := valid.length_pending
  refine ⟨valid, List.ne_nil_of_length_pos (by omega), ?_, ?_⟩
  · rw [sameLength]
    exact (by omega : 2 ^ 31 - writer.mDataSizeOffset + 8 ≤ writer.mBuf.length)
  · exact (by omega : 2 ^ 31 - writer.mDataSizeOffset + 8 < 2 ^ 31)

/-- Below offset 9 the buffer is not compacted, and the negative end stays. -/
theorem Wrapped.store_none {writer roomy : CPipeQueueWriter} (wrapped : writer.Wrapped)
    {realloc : Option Contents} (short : writer.mDataSizeOffset ≤ 8)
    (made : writer.makeRoom realloc = some roomy) (data : Pointer) :
    roomy.store data = none := by
  have nonneg := wrapped.offset_nonneg
  have sizeEq : Pointer.size = 8 := rfl
  have notCompacts : ¬ toSize writer.mDataSizeOffset > Pointer.size := by
    rw [toSize_of_nonneg nonneg (by omega)]
    omega
  rw [makeRoom, if_pos wrapped.full, if_neg notCompacts] at made
  obtain ⟨contents, -, roomyEq⟩ := Option.map_eq_some_iff.mp made
  cases roomyEq
  have endEq := wrapped.end_eq
  rw [store, if_neg]
  rintro ⟨endNonneg, -⟩
  have : 0 ≤ writer.mDataSizeEnd := endNonneg
  omega

theorem Kept.stored {writer roomy stored : CPipeQueueWriter} (kept : writer.Kept)
    {data : Pointer} {realloc : Option Contents} (made : writer.makeRoom realloc = some roomy)
    (storeEq : roomy.store data = some stored) : stored.Kept := by
  rcases kept with valid | wrapped
  · exact (valid.makeRoom made).store storeEq
  · by_cases short : writer.mDataSizeOffset ≤ 8
    · rw [wrapped.store_none short made] at storeEq
      contradiction
    · exact (wrapped.compact (by omega) made).1.store storeEq

theorem Kept.step {writer after : CPipeQueueWriter} (kept : writer.Kept) {call : Call}
    (stepEq : step writer call = some after) : after.Kept := by
  cases call with
  | push data realloc room =>
      unfold CPipeQueueWriter.step afterPush at stepEq
      simp only at stepEq
      split at stepEq
      · cases stepEq
        exact kept
      · rename_i roomy made
        obtain ⟨stored, storeEq, flushed⟩ := Option.bind_eq_some_iff.mp stepEq
        have storedKept := kept.stored made storeEq
        split at flushed
        · exact storedKept.moveOn flushed
        · cases flushed
          exact storedKept
  | outputNotify room => exact kept.moveOn stepEq

theorem Reached.kept {contents : Contents} {pool : Network.PoolId} {fd : Int}
    {writer : CPipeQueueWriter} (reached : Reached contents pool fd writer) : writer.Kept :=
  reached.invariant (Or.inl (new_valid contents pool fd))
    fun _ _ _ kept _ stepEq => kept.step stepEq

/-! ## Which calls append -/

theorem pushKeeps_of_made {writer roomy : CPipeQueueWriter} {data : Pointer}
    {realloc : Option Contents} (made : writer.makeRoom realloc = some roomy) :
    writer.PushKeeps data realloc ↔
      ∃ stored, roomy.store data = some stored ∧ 0 ≤ roomy.mDataSizeEnd ∧
        roomy.mDataSizeEnd + Pointer.size ≤ roomy.mBufVolume * Pointer.size ∧
        (stored.mBuf.length : Int) = roomy.mBufVolume * Pointer.size ∧
        stored.pending = writer.pending ++ data.bytes := by
  rw [PushKeeps, made]
  constructor
  · rintro (failed | ⟨next, stored, nextEq, rest⟩)
    · contradiction
    · cases nextEq
      exact ⟨stored, rest⟩
  · rintro ⟨stored, rest⟩
    exact Or.inr ⟨roomy, stored, rfl, rest⟩

theorem length_stored {writer stored : CPipeQueueWriter} {data : Pointer}
    (storeEq : writer.store data = some stored) : stored.mBuf.length = writer.mBuf.length := by
  unfold store at storeEq
  split at storeEq
  · rename_i inside
    obtain ⟨unit, -, storedEq⟩ := Option.map_eq_some_iff.mp storeEq
    cases storedEq
    exact length_blit _ _ (by rw [data.length_bytes]; exact inside.2)
  · contradiction

/-- A pointer stored with room behind the pending bytes of `roomy` ends up
behind the bytes pending before exactly when these are the same. -/
theorem Valid.pushKeeps_iff {writer roomy : CPipeQueueWriter} {data : Pointer}
    {realloc : Option Contents} (made : writer.makeRoom realloc = some roomy)
    (valid : roomy.Valid) (inside : roomy.mDataSizeEnd + 8 ≤ roomy.mBuf.length)
    (counted : roomy.mDataSizeEnd + 8 < 2 ^ 31) :
    writer.PushKeeps data realloc ↔ roomy.pending = writer.pending := by
  have nonneg := valid.offset_nonneg
  have ordered := valid.pending_or_reset
  have allocated := valid.allocated
  have sizeEq : Pointer.size = 8 := rfl
  rw [sizeEq] at allocated
  obtain ⟨stored, storeEq, -, pendingEq, -⟩ := store_spec valid data inside counted
  have sameLength := length_stored storeEq
  rw [pushKeeps_of_made made, sizeEq]
  constructor
  · rintro ⟨other, otherEq, -, -, -, appended⟩
    cases storeEq.symm.trans otherEq
    exact List.append_cancel_right (pendingEq.symm.trans appended)
  · intro same
    exact ⟨stored, storeEq, by omega, by omega, by omega, by rw [pendingEq, same]⟩

theorem Valid.pushKeeps_iff_appends {writer : CPipeQueueWriter} (valid : writer.Valid)
    (data : Pointer) (realloc : Option Contents) :
    writer.PushKeeps data realloc ↔ writer.Appends realloc := by
  have nonneg := valid.offset_nonneg
  have ordered := valid.pending_or_reset
  have bounded := valid.end_lt
  have allocated := valid.allocated
  have sizeEq : Pointer.size = 8 := rfl
  rw [sizeEq] at allocated
  rw [Appends]
  by_cases full : writer.Full
  · rw [if_pos full]
    cases made : writer.makeRoom realloc with
    | none =>
        refine iff_of_true (Or.inl made) ?_
        rw [CPipeQueueWriter.makeRoom, if_pos full] at made
        split at made
        · contradiction
        · rename_i notCompacts
          rw [toSize_of_nonneg nonneg (by omega)] at notCompacts
          exact Or.inl ⟨by omega, Option.map_eq_none_iff.mp made⟩
    | some roomy =>
        by_cases rewinds : 0 < writer.mDataSizeOffset ∧ writer.mDataSizeOffset ≤ 8
        · -- The bytes in front of the offset are pending again.
          have makes := valid.makeRoom_rewinds full rewinds.2 made
          refine iff_of_false (fun keeps => ?_) ?_
          · have same := (makes.valid.pushKeeps_iff made makes.inside makes.counted).mp keeps
            have before := valid.length_pending
            have after : _ = writer.mDataSizeEnd - 0 := (valid.rewind full).length_pending
            rw [← makes.pending_eq, same] at after
            omega
          · rintro (⟨-, failed⟩ | ⟨-, apart⟩)
            · rw [CPipeQueueWriter.makeRoom, if_pos full, failed,
                toSize_of_nonneg nonneg (by omega), if_neg (by omega)] at made
              contradiction
            · omega
        · have makes := makeRoom_spec valid full (by omega) made
          refine iff_of_true ?_ (Or.inr ⟨by omega, by omega⟩)
          exact (makes.valid.pushKeeps_iff made makes.inside makes.counted).mpr makes.pending_eq
  · have made : writer.makeRoom realloc = some writer := by
      rw [CPipeQueueWriter.makeRoom, if_neg full]
    rw [if_neg full]
    by_cases appends : writer.mDataSizeEnd + 8 ≤ 8 * writer.mBufVolume ∧
        writer.mDataSizeEnd + 8 < 2 ^ 31
    · exact iff_of_true ((valid.pushKeeps_iff made (by omega) appends.2).mpr rfl) appends
    · refine iff_of_false (fun keeps => ?_) appends
      obtain ⟨stored, storeEq, -, -, -, appended⟩ := (pushKeeps_of_made made).mp keeps
      obtain ⟨-, inside⟩ := store_inside storeEq
      -- The pointer fits, so it is the end that wraps.
      have wrapped := valid.store_wrapped (by omega) storeEq
      have lengths := congrArg List.length appended
      rw [wrapped.pending_eq, List.length_append, data.length_bytes, List.length_nil] at lengths
      omega

theorem Wrapped.pushKeeps_iff_appends {writer : CPipeQueueWriter} (wrapped : writer.Wrapped)
    (data : Pointer) (realloc : Option Contents) :
    writer.PushKeeps data realloc ↔ writer.Appends realloc := by
  have nonneg := wrapped.offset_nonneg
  have endEq := wrapped.end_eq
  have sizeEq : Pointer.size = 8 := rfl
  rw [Appends, if_pos wrapped.full]
  cases made : writer.makeRoom realloc with
  | none =>
      refine iff_of_true (Or.inl made) ?_
      have bounded := wrapped.offset_lt
      rw [CPipeQueueWriter.makeRoom, if_pos wrapped.full] at made
      split at made
      · contradiction
      · rename_i notCompacts
        rw [toSize_of_nonneg nonneg (by omega)] at notCompacts
        exact Or.inl ⟨by omega, Option.map_eq_none_iff.mp made⟩
  | some roomy =>
      by_cases short : writer.mDataSizeOffset ≤ 8
      · refine iff_of_false (fun keeps => ?_) ?_
        · obtain ⟨stored, storeEq, -⟩ := (pushKeeps_of_made made).mp keeps
          rw [wrapped.store_none short made] at storeEq
          contradiction
        · rintro (⟨-, failed⟩ | ⟨endNonneg, -⟩)
          · rw [CPipeQueueWriter.makeRoom, if_pos wrapped.full, failed,
              toSize_of_nonneg nonneg (by omega), if_neg (by omega)] at made
            contradiction
          · omega
      · obtain ⟨valid, something, inside, counted⟩ := wrapped.compact (by omega) made
        refine iff_of_false (fun keeps => something ?_) (by omega)
        rw [(valid.pushKeeps_iff made inside counted).mp keeps, wrapped.pending_eq]

theorem Kept.pushKeeps_iff_appends {writer : CPipeQueueWriter} (kept : writer.Kept)
    (data : Pointer) (realloc : Option Contents) :
    writer.PushKeeps data realloc ↔ writer.Appends realloc := by
  rcases kept with valid | wrapped
  · exact valid.pushKeeps_iff_appends data realloc
  · exact wrapped.pushKeeps_iff_appends data realloc

/-- In every state that calls reach, `Push` fails with nothing changed or puts
the pointer behind the pending bytes exactly where it appends. -/
theorem reached_pushKeeps_iff {contents : Contents} {pool : Network.PoolId} {fd : Int}
    {writer : CPipeQueueWriter} (reached : Reached contents pool fd writer) (data : Pointer)
    (realloc : Option Contents) :
    writer.PushKeeps data realloc ↔ writer.Appends realloc :=
  reached.kept.pushKeeps_iff_appends data realloc

/-- The first `Push` appends. -/
theorem pushKeeps_first :
    PushKeeps ((new fun _ => 0).attachPool 0 5) 1 none :=
  (reached_pushKeeps_iff Reachable.refl 1 none).mpr (by decide)

/-- Thirty-two pointers, of which the flush writes the first. -/
def oneOfThirtyTwo : List Call :=
  (List.range 32).map fun index => .push (UInt64.ofNat (index + 1)) none 8

/-- Doubling a full buffer whose first pointer was written makes that pointer
pending again. -/
theorem pushKeeps_resent :
    ∃ writer, Reached (fun _ => 0) 0 5 writer ∧
      ¬ writer.PushKeeps 33 (some fun _ => 0) := by
  have executed : (execute (restrict step fun _ _ => True) oneOfThirtyTwo
      ((new fun _ => 0).attachPool 0 5)).map
        (fun writer => decide (writer.Appends (some fun _ => 0))) = some false := by
    decide +kernel
  obtain ⟨writer, runs, observed⟩ := Option.map_eq_some_iff.mp executed
  have reached : Reached (fun _ => 0) 0 5 writer := Reachable.of_execute runs
  refine ⟨writer, reached, fun keeps => ?_⟩
  exact of_decide_eq_false observed ((reached.kept.pushKeeps_iff_appends 33 _).mp keeps)

end NginxFastcgi.Service.CPipeQueueWriter
