import NginxFastcgi.Service.PipeReader
import NginxFastcgi.Service.PipeWriter

/-!
# The pointers in transit through a pipe queue

`Carries queue transit` says that the bytes in the reader, in the kernel pipe
and in the writer are, in this order, the pointers of `transit`.  A push adds
one at the back, a pop takes one from the front and everything else leaves the
sequence as it is, provided the counters of the queue are used as they were
counted.
-/

namespace NginxFastcgi.Service.CPipeQueue

open Foundation.Blocks
open NginxFastcgi.Network

structure Carries (queue : CPipeQueue) (transit : List Pointer) : Prop where
  reader_valid : queue.toCPipeQueueReader.Valid
  writer_valid : queue.mWriter.Valid
  not_null : ∀ data ∈ transit, data ≠ 0
  stream : transit.flatMap Pointer.bytes =
    queue.held ++ queue.kernelPipe ++ queue.mWriter.pending

/-- The next `write` starts at the front of the buffer, or writes nothing. -/
def SafeWrite (queue : CPipeQueue) (room : Nat) : Prop :=
  room = 0 ∨ ¬ (0 < queue.mWriter.mDataSizeOffset ∧
    queue.mWriter.mDataSizeOffset < queue.mWriter.mDataSizeEnd)

instance (queue : CPipeQueue) (room : Nat) : Decidable (queue.SafeWrite room) :=
  inferInstanceAs (Decidable (_ ∨ _))

/-- The next `read` does not end inside the first pointer. -/
def SafeRead (queue : CPipeQueue) (available : Nat) : Prop :=
  queue.readData queue.kernelPipe available = [] ∨
    8 ≤ queue.held.length + (queue.readData queue.kernelPipe available).length

instance (queue : CPipeQueue) (available : Nat) : Decidable (queue.SafeRead available) :=
  inferInstanceAs (Decidable (_ ∨ _))

namespace Carries

variable {queue : CPipeQueue} {transit : List Pointer}

theorem attachPool (readerContents writerContents : Contents) (source target : PoolId)
    (readFd writeFd : Int) :
    Carries (CPipeQueue.attachPool readerContents writerContents source target readFd writeFd)
      [] :=
  ⟨CPipeQueueReader.new_valid _ _ _, CPipeQueueWriter.new_valid _ _ _, by simp, rfl⟩

/-- What a call of the writer leaves: the same reader, and a pipe to which the
kernel only appended. -/
theorem push (carries : queue.Carries transit) {data : Pointer} (notNull : data ≠ 0)
    {realloc : Option Contents} {room : Nat} (safe : queue.mWriter.SafePush realloc room) :
    queue.push data realloc room = some (queue, -1) ∧ realloc = none ∨
      ∃ after written, queue.push data realloc room = some (after, 0) ∧
        after.Carries (transit ++ [data]) ∧
        after.toCPipeQueueReader = queue.toCPipeQueueReader ∧
        after.kernelPipe = queue.kernelPipe ++ written := by
  rcases CPipeQueueWriter.push_spec carries.writer_valid data safe with
    ⟨failed, -, noMemory⟩ | ⟨writer, flushed, pushed, writerValid, -, left, -⟩
  · left
    refine ⟨?_, noMemory⟩
    rw [CPipeQueue.push, failed]
    rfl
  · right
    refine ⟨{ queue with
      mWriter := writer
      kernelPipe := queue.kernelPipe ++ (queue.mWriter.pending ++ data.bytes).take flushed },
      (queue.mWriter.pending ++ data.bytes).take flushed, ?_,
      ⟨carries.reader_valid, writerValid, ?_, ?_⟩, rfl, rfl⟩
    · rw [CPipeQueue.push, pushed]
      rfl
    · intro other member
      rcases List.mem_append.mp member with member | member
      · exact carries.not_null other member
      · rw [List.mem_singleton.mp member]
        exact notNull
    · rw [List.flatMap_append, carries.stream, left]
      simp only [List.flatMap_cons, List.flatMap_nil, List.append_nil, List.append_assoc,
        List.take_append_drop]

theorem outputNotify (carries : queue.Carries transit) {room : Nat}
    (safe : queue.SafeWrite room) :
    ∃ after written, queue.outputNotify room = some after ∧ after.Carries transit ∧
      after.toCPipeQueueReader = queue.toCPipeQueueReader ∧
      after.kernelPipe = queue.kernelPipe ++ written := by
  have nonneg := carries.writer_valid.offset_nonneg
  have ordered := carries.writer_valid.pending_or_reset
  have fromStart : room = 0 ∨ queue.mWriter.mDataSizeOffset = 0 := by
    unfold SafeWrite at safe
    omega
  obtain ⟨writer, notified, writerValid, left, -⟩ :=
    CPipeQueueWriter.outputNotify_spec carries.writer_valid fromStart
  refine ⟨{ queue with
    mWriter := writer
    kernelPipe := queue.kernelPipe ++ queue.mWriter.pending.take room },
    queue.mWriter.pending.take room, ?_,
    ⟨carries.reader_valid, writerValid, carries.not_null, ?_⟩, rfl, rfl⟩
  · rw [CPipeQueue.outputNotify, notified]
    rfl
  · rw [carries.stream, left]
    simp only [List.append_assoc, List.take_append_drop]

/-- A pop returns the first pointer in transit, or `NULL` when the reader holds
no whole pointer and reads nothing. -/
theorem popData (carries : queue.Carries transit) {available : Nat}
    (safe : queue.SafeRead available) :
    ∃ after, after.mWriter = queue.mWriter ∧
      (queue.held.length < 8 ∧ queue.readData queue.kernelPipe available = [] ∧
          queue.popData available = some (after, 0) ∧ after.Carries transit ∧
          after.held.length = queue.held.length ∧ after.kernelPipe = queue.kernelPipe ∨
        ∃ data rest, transit = data :: rest ∧ data ≠ 0 ∧
          queue.popData available = some (after, data) ∧ after.Carries rest ∧
          after.held.length + 8 =
            queue.held.length + (queue.readData queue.kernelPipe available).length ∧
          after.kernelPipe =
            queue.kernelPipe.drop (queue.readData queue.kernelPipe available).length) := by
  obtain ⟨reader, readerValid, outcome⟩ :=
    CPipeQueueReader.pop_spec carries.reader_valid queue.kernelPipe available safe
  have received := queue.readData_append_drop queue.kernelPipe available
  generalize queue.readData queue.kernelPipe available = data at outcome received ⊢
  rcases outcome with ⟨short, nothing, popped, kept⟩ | ⟨enough, popped, left⟩
  · refine ⟨{ queue with toCPipeQueueReader := reader }, rfl, Or.inl
      ⟨short, nothing, ?_, ⟨readerValid, carries.writer_valid, carries.not_null, ?_⟩, ?_, rfl⟩⟩
    · rw [CPipeQueue.popData, popped]
      rfl
    · rw [carries.stream, kept]
    · rw [kept]
  · have blockLength : ((queue.held ++ data).take 8).length = 8 := by
      rw [List.length_take, List.length_append]
      omega
    have stream : transit.flatMap Pointer.bytes = (queue.held ++ data).take 8 ++
        ((queue.held ++ data).drop 8 ++ queue.kernelPipe.drop data.length ++
          queue.mWriter.pending) := by
      conv_lhs => rw [carries.stream, ← received]
      rw [← List.append_assoc, ← List.append_assoc, ← List.append_assoc, List.take_append_drop]
    obtain ⟨first, rest, transitEq, encoded, restStream⟩ :=
      uncons Pointer.length_bytes (by decide) stream blockLength
    have firstNotNull : first ≠ 0 :=
      carries.not_null first (by rw [transitEq]; exact List.mem_cons_self)
    refine ⟨{ queue with
      toCPipeQueueReader := reader
      kernelPipe := queue.kernelPipe.drop data.length }, rfl, Or.inr
        ⟨first, rest, transitEq, firstNotNull, ?_, ⟨readerValid, carries.writer_valid, ?_, ?_⟩,
          ?_, rfl⟩⟩
    · rw [CPipeQueue.popData, popped, ← encoded, Pointer.ofBytes_bytes]
      rfl
    · intro other member
      exact carries.not_null other (by rw [transitEq]; exact List.mem_cons_of_mem _ member)
    · rw [restStream, left]
    · rw [left, List.length_drop, List.length_append]
      omega

/-- A turn of the loop ends it after its quota or at a `NULL`, and otherwise
notifies the first pointer in transit. -/
theorem turn (carries : queue.Carries transit) {available : Nat}
    (safe : queue.SafeRead available) (taskNum : Nat) :
    ∃ after, after.mWriter = queue.mWriter ∧
      (queue.turn taskNum available = some (.finished after) ∧ after.Carries transit ∧
          (64 ≤ taskNum ∧ after = queue ∨
            queue.held.length < 8 ∧ queue.readData queue.kernelPipe available = [] ∧
              after.held.length = queue.held.length ∧ after.kernelPipe = queue.kernelPipe) ∨
        ∃ data rest, transit = data :: rest ∧
          queue.turn taskNum available = some (.notified after (taskNum + 1) data) ∧
          after.Carries rest ∧ taskNum + 1 ≤ 64 ∧
          after.held.length + 8 =
            queue.held.length + (queue.readData queue.kernelPipe available).length ∧
          after.kernelPipe =
            queue.kernelPipe.drop (queue.readData queue.kernelPipe available).length) := by
  by_cases within : taskNum + 1 ≤ kCommonConstant * 2
  · obtain ⟨after, sameWriter, outcome⟩ := carries.popData safe
    refine ⟨after, sameWriter, ?_⟩
    rw [CPipeQueue.turn, if_pos within]
    rcases outcome with
      ⟨short, nothing, popped, afterCarries, kept, samePipe⟩ |
      ⟨data, rest, transitEq, notNull, popped, afterCarries, left, pipeEq⟩
    · left
      rw [popped]
      exact ⟨rfl, afterCarries, Or.inr ⟨short, nothing, kept, samePipe⟩⟩
    · right
      rw [popped, Option.map_some, if_neg notNull]
      exact ⟨data, rest, transitEq, rfl, afterCarries, within, left, pipeEq⟩
  · refine ⟨queue, rfl, Or.inl ⟨?_, carries, Or.inl ⟨?_, rfl⟩⟩⟩
    · rw [CPipeQueue.turn, if_neg within]
    · have quota : kCommonConstant * 2 = 64 := rfl
      omega

end Carries

end NginxFastcgi.Service.CPipeQueue
