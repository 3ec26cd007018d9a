import NginxFastcgi.Service.PipeRun

/-!
# Reassembling pointers from a byte stream

The pipe holds the bytes of a stream of pointers and its reader answers input
events, with reads that return as much as they like.  The writer of the queue
does nothing.

A `read` that leaves less than one pointer in the buffer is followed by the end
of `Pop` all the same, which counts a pointer that is not there.
-/

namespace NginxFastcgi.Service.PipeReassembly

open Foundation.Blocks
open Foundation.MachineInt
open Foundation.Transition
open NginxFastcgi.Network
open PipeRun

inductive Label
  | inputNotify
  /-- A turn of the loop in `InputNotify`; a `read` in it finds so many bytes,
  and none stands for `EAGAIN`. -/
  | turn (available : Nat)
  deriving DecidableEq

def step : Step State Label
  | state, .inputNotify => PipeRun.step state .inputNotify
  | state, .turn available => PipeRun.step state (.turn available)

/-- The queue `queue` with the bytes of a stream in its pipe. -/
def start (readerContents writerContents : Contents) (source target : PoolId)
    (readFd writeFd : Int) (stream : List Pointer) : State :=
  let attached := initial readerContents writerContents source target readFd writeFd
  { attached with queue := { attached.queue with kernelPipe := stream.flatMap Pointer.bytes } }

/-- The counters agree, the next `read` stays in the buffer, and the pointers
that were popped are the first of the stream and all their bytes were read. -/
structure Sound (stream : List Pointer) (state : State) : Prop where
  offset_nonneg : 0 ≤ state.queue.mDataNumOffset
  offset_le_end : state.queue.mDataNumOffset ≤ state.queue.mDataNumEnd
  remaining_eq : ∃ r : Int, 0 ≤ r ∧ r < Pointer.size ∧ state.queue.mRemainingSize =
    Pointer.size * (state.queue.mDataNumEnd - state.queue.mDataNumOffset) + r
  read_inside : 0 ≤ state.queue.mRemainingSize ∧
    state.queue.mRemainingSize ≤ state.queue.mBuf.length
  popped_prefix : state.delivered <+: stream
  popped_read : Pointer.size * state.delivered.length + state.queue.kernelPipe.length ≤
    (stream.flatMap Pointer.bytes).length

/-- What the reader holds, and what is in the pipe, are the rest of the stream. -/
def Kept (stream : List Pointer) (state : State) : Prop :=
  ∃ ahead, state.queue.Carries ahead ∧ state.queue.mWriter.pending = [] ∧
    stream = state.delivered ++ ahead

/-- Every `read` fails or completes the first pointer in the buffer. -/
def ReadsWhole (state : State) : Label → Prop
  | .inputNotify => True
  | .turn available => ∀ taskNum, state.taskNum = some taskNum →
      taskNum + 1 ≤ kCommonConstant * 2 → state.queue.SafeRead available

theorem readsWhole_turn_iff {state : State} {taskNum available : Nat}
    (phase : state.taskNum = some taskNum) :
    ReadsWhole state (.turn available) ↔
      (taskNum + 1 ≤ kCommonConstant * 2 → state.queue.SafeRead available) := by
  constructor
  · exact fun condition => condition taskNum phase
  · intro condition other otherPhase
    cases phase.symm.trans otherPhase
    exact condition

instance (state : State) : DecidablePred (ReadsWhole state) := fun label =>
  match label with
  | .inputNotify => isTrue trivial
  | .turn _ =>
      match phase : state.taskNum with
      | none => isTrue fun _ taken => nomatch phase.symm.trans taken
      | some _ => decidable_of_iff' _ (readsWhole_turn_iff phase)

variable {stream : List Pointer} {state after : State}

theorem sound_of_kept (kept : Kept stream state) : Sound stream state := by
  obtain ⟨ahead, carries, idle, streamEq⟩ := kept
  have valid := carries.reader_valid
  have nonneg := valid.offset_nonneg
  have remaining := valid.remaining_nonneg
  have endEq := valid.end_eq
  have inside := valid.inside
  have allocated : state.queue.mBuf.length = 256 := valid.allocated
  have sizeEq : Pointer.size = 8 := rfl
  have lengthEq := congrArg List.length carries.stream
  rw [idle, List.append_nil, List.length_append,
    length_flatMap Pointer.length_bytes, sizeEq] at lengthEq
  refine ⟨nonneg, by omega, ⟨state.queue.mRemainingSize % 8, ?_⟩, by omega, ⟨ahead, streamEq.symm⟩,
    ?_⟩
  · rw [sizeEq]
    omega
  · rw [length_flatMap Pointer.length_bytes, streamEq, List.length_append, sizeEq]
    omega

theorem kept_start (readerContents writerContents : Contents) (source target : PoolId)
    (readFd writeFd : Int) (notNull : ∀ data ∈ stream, data ≠ 0) :
    Kept stream (start readerContents writerContents source target readFd writeFd stream) := by
  have attached :=
    CPipeQueue.Carries.attachPool readerContents writerContents source target readFd writeFd
  have nothing := attached.stream.symm
  simp only [List.flatMap_nil, List.append_eq_nil_iff] at nothing
  obtain ⟨⟨holdsNothing, -⟩, idle⟩ := nothing
  refine ⟨stream, ⟨attached.reader_valid, attached.writer_valid, notNull, ?_⟩, idle, rfl⟩
  have readerEq : (start readerContents writerContents source target readFd writeFd
      stream).queue.held = [] := holdsNothing
  have writerEq : (start readerContents writerContents source target readFd writeFd
      stream).queue.mWriter.pending = [] := idle
  rw [readerEq, writerEq, List.nil_append, List.append_nil]
  rfl

/-- A `read` that ends inside the first pointer leaves the offset behind the
end. -/
theorem pop_of_partial {reader : CPipeQueueReader} (valid : reader.Valid) {pipe : List UInt8}
    {available : Nat} (some_read : reader.readData pipe available ≠ [])
    (incomplete : reader.held.length + (reader.readData pipe available).length < 8) :
    ∃ after data rest, reader.pop pipe available = some (after, data, rest) ∧
      after.mDataNumOffset = 1 ∧ after.mDataNumEnd = 0 := by
  have short : reader.held.length < 8 := by omega
  have remaining := valid.length_held
  have sum : toInt32
      (reader.mRemainingSize + (reader.readData pipe available).length) =
        reader.mRemainingSize + (reader.readData pipe available).length :=
    toInt32_of_bounds (by omega) (by omega)
  have noPointer : toInt32 (toSize
      (reader.mRemainingSize + (reader.readData pipe available).length) / Pointer.size : Nat) =
        0 := by
    have sizeEq : Pointer.size = 8 := rfl
    rw [toSize_of_nonneg (by omega) (by omega), sizeEq,
      Nat.div_eq_of_lt (by omega)]
    rfl
  refine ⟨_, _, _, (CPipeQueueReader.pop_of_short valid short pipe available).trans
    (if_neg some_read), rfl, ?_⟩
  simp only [CPipeQueueReader.take, CPipeQueueReader.fill, CPipeQueueReader.moveFront, sum,
    noPointer]

/-- So the counters no longer agree after such a turn. -/
theorem not_sound_of_partial (kept : Kept stream state) {taskNum available : Nat}
    (phase : state.taskNum = some taskNum) (within : taskNum + 1 ≤ kCommonConstant * 2)
    (unsafe_read : ¬ state.queue.SafeRead available)
    (stepEq : step state (.turn available) = some after) : ¬ Sound stream after := by
  obtain ⟨ahead, carries, -, -⟩ := kept
  obtain ⟨some_read, incomplete⟩ := not_or.mp unsafe_read
  obtain ⟨reader, data, rest, popped, offsetEq, endEq⟩ :=
    pop_of_partial carries.reader_valid some_read (Nat.not_le.mp incomplete)
  have left : after.queue.toCPipeQueueReader = reader := by
    by_cases null : data = 0
    · have finished : state.queue.turn taskNum available = some (.finished
          { state.queue with toCPipeQueueReader := reader, kernelPipe := rest }) := by
        simp only [CPipeQueue.turn, if_pos within, CPipeQueue.popData, popped, Option.map_some,
          if_pos null]
      cases (turn_of_finished phase finished).symm.trans stepEq
      rfl
    · have notified : state.queue.turn taskNum available = some (.notified
          { state.queue with toCPipeQueueReader := reader, kernelPipe := rest } (taskNum + 1)
          data) := by
        simp only [CPipeQueue.turn, if_pos within, CPipeQueue.popData, popped, Option.map_some,
          if_neg null]
      cases (turn_of_notified phase notified).symm.trans stepEq
      rfl
  intro sound
  have ordered := sound.offset_le_end
  rw [left, offsetEq, endEq] at ordered
  contradiction

/-- A turn whose `read` is whole takes the next pointer of the stream, or
nothing. -/
theorem kept_of_whole (kept : Kept stream state) {taskNum available : Nat}
    (phase : state.taskNum = some taskNum) (whole : state.queue.SafeRead available)
    (stepEq : step state (.turn available) = some after) : Kept stream after := by
  obtain ⟨ahead, carries, idle, streamEq⟩ := kept
  obtain ⟨queue, sameWriter, outcome⟩ := carries.turn whole taskNum
  have idleAfter : queue.mWriter.pending = [] := by rw [sameWriter, idle]
  rcases outcome with ⟨finished, left, -⟩ | ⟨data, rest, aheadEq, notified, left, -⟩
  · cases (turn_of_finished phase finished).symm.trans stepEq
    exact ⟨ahead, left, idleAfter, streamEq⟩
  · cases (turn_of_notified phase notified).symm.trans stepEq
    refine ⟨rest, left, idleAfter, ?_⟩
    rw [streamEq, aheadEq, List.append_assoc, List.singleton_append]

/-- A turn after the quota ends the loop without a `Pop`. -/
theorem kept_of_quota (kept : Kept stream state) {taskNum available : Nat}
    (phase : state.taskNum = some taskNum) (beyond : ¬ taskNum + 1 ≤ kCommonConstant * 2)
    (stepEq : step state (.turn available) = some after) : Kept stream after := by
  have finished : state.queue.turn taskNum available = some (.finished state.queue) :=
    if_neg beyond
  cases (turn_of_finished phase finished).symm.trans stepEq
  exact kept

/-- A step keeps the reader sound exactly when its `read`, if there is one, does
not end inside the first pointer. -/
theorem step_exact {label : Label} (keeps : Sound stream state → Kept stream state)
    (sound : Sound stream state) (stepEq : step state label = some after) :
    (Sound stream after → Kept stream after) ∧
      (Sound stream after ↔ ReadsWhole state label) := by
  have kept := keeps sound
  have settled : ∀ {condition : Prop}, Kept stream after → condition →
      (Sound stream after → Kept stream after) ∧ (Sound stream after ↔ condition) :=
    fun keptAfter meets => ⟨fun _ => keptAfter, iff_of_true (sound_of_kept keptAfter) meets⟩
  cases label with
  | inputNotify =>
      obtain ⟨-, rfl⟩ := inputNotify_eq_some stepEq
      exact settled kept trivial
  | turn available =>
      obtain ⟨taskNum, phase⟩ := taskNum_of_turn stepEq
      rw [readsWhole_turn_iff phase]
      by_cases within : taskNum + 1 ≤ kCommonConstant * 2
      · by_cases whole : state.queue.SafeRead available
        · exact settled (kept_of_whole kept phase whole stepEq) fun _ => whole
        · have broken := not_sound_of_partial kept phase within whole stepEq
          exact ⟨fun held => absurd held broken,
            iff_of_false broken fun condition => whole (condition within)⟩
      · exact settled (kept_of_quota kept phase within stepEq) fun isWithin =>
          absurd isWithin within

/-- For every stream and every sequence of reads: the counters agree and the
pointers are reassembled all along exactly when every `read` fails or completes
the first pointer in the buffer. -/
theorem sound_iff_readsWhole (readerContents writerContents : Contents) (source target : PoolId)
    (readFd writeFd : Int) (stream : List Pointer) (notNull : ∀ data ∈ stream, data ≠ 0)
    (labels : List Label) :
    Always step (Sound stream) labels
        (start readerContents writerContents source target readFd writeFd stream) ↔
      EachStep step ReadsWhole labels
        (start readerContents writerContents source target readFd writeFd stream) := by
  have kept := kept_start readerContents writerContents source target readFd writeFd notNull
  exact always_iff_eachStep_of_exact (fun _ _ _ => step_exact) (fun _ => kept)
    (sound_of_kept kept)

/-- Buffers that contain zeros, and two pointers to come. -/
def twoPointers : State :=
  start (fun _ => 0) (fun _ => 0) 0 1 10 11 [7, 9]

/-- A read ends inside the second pointer, one fails, and one brings the rest. -/
theorem sound_twoPointers :
    Always step (Sound [7, 9]) [.inputNotify, .turn 12, .turn 0, .inputNotify, .turn 4]
      twoPointers := by
  refine (sound_iff_readsWhole (fun _ => 0) (fun _ => 0) 0 1 10 11 [7, 9] ?_ _).mpr ?_
  · simp
  · decide +kernel

/-- The first read returns half of the first pointer. -/
theorem not_sound_of_short_read :
    ¬ Always step (Sound [7, 9]) [.inputNotify, .turn 4] twoPointers := by
  intro always
  have executed : (execute step [.inputNotify, .turn 4] twoPointers).map
      (fun state => (state.queue.mDataNumOffset, state.queue.mDataNumEnd)) = some (1, 0) := by
    decide +kernel
  obtain ⟨state, runs, counters⟩ := Option.map_eq_some_iff.mp executed
  obtain ⟨offsetEq, endEq⟩ := Prod.mk.inj counters
  have ordered := (always.after runs).offset_le_end
  rw [offsetEq, endEq] at ordered
  exact absurd ordered (by decide)

end NginxFastcgi.Service.PipeReassembly
