import NginxFastcgi.Service.PipeCoverage

/-!
# Pushes that the kernel refuses, and the passage of one pointer

While every `write` fails with `EAGAIN` the pushed pointers collect in the
writer, up to the push that makes the end of the buffer negative.  A pointer
pushed into a queue that carries nothing comes out at the other end.
-/

namespace NginxFastcgi.Service.CPipeQueue

open Foundation.Blocks

namespace Whole

variable {queue : CPipeQueue} {transit : List Pointer} (whole : queue.Whole)
include whole

/-- The end counts the pending bytes. -/
theorem end_eq (valid : queue.mWriter.Valid) :
    queue.mWriter.mDataSizeEnd = queue.mWriter.pending.length := by
  have lengthEq := valid.length_pending
  have atStart := whole.at_start
  omega

/-- A push that the kernel refuses only adds to the writer. -/
theorem push_kept (carries : queue.Carries transit)
    (counted : queue.mWriter.mDataSizeEnd + 8 < 2 ^ 31) {data : Pointer} (notNull : data ≠ 0)
    {realloc : Option Contents} (memory : realloc.isSome) :
    ∃ after, queue.push data realloc 0 = some (after, 0) ∧ after.Whole ∧
      after.Carries (transit ++ [data]) ∧
      after.toCPipeQueueReader = queue.toCPipeQueueReader ∧
      after.mWriter.mDataSizeEnd = queue.mWriter.mDataSizeEnd + 8 := by
  have valid := carries.writer_valid
  have safe := whole.safePush valid counted realloc 0
  rcases carries.push notNull safe with ⟨-, noMemory⟩ | ⟨after, -, pushed, afterCarries, -⟩
  · rw [noMemory] at memory
    contradiction
  · have afterWhole := whole.push valid counted (Or.inl rfl) pushed
    refine ⟨after, pushed, afterWhole, afterCarries, ?_⟩
    rcases CPipeQueueWriter.push_spec valid data safe with
      ⟨failed, -⟩ | ⟨writer, flushed, writerPushed, -, flushedEq, left, -⟩
    · rw [CPipeQueue.push, failed] at pushed
      cases pushed
    · have refused : flushed = 0 := flushedEq.elim id id
      rw [refused, List.drop_zero] at left
      rw [refused, List.take_zero] at writerPushed
      rw [CPipeQueue.push, writerPushed] at pushed
      cases pushed
      refine ⟨rfl, ?_⟩
      have endEq := afterWhole.end_eq afterCarries.writer_valid
      have before := whole.end_eq valid
      have size : data.bytes.length = 8 := data.length_bytes
      have lengthEq := congrArg List.length left
      rw [List.length_append] at lengthEq
      change writer.mDataSizeEnd = writer.pending.length at endEq
      change writer.mDataSizeEnd = queue.mWriter.mDataSizeEnd + 8
      omega

/-- The push that makes the end negative loses its own pointer and every
pending one. -/
theorem push_saturated (carries : queue.Carries transit)
    (saturated : queue.mWriter.mDataSizeEnd + 8 = 2 ^ 31) (data : Pointer)
    (realloc : Option Contents) (room : Nat) :
    ∃ after kept lost, queue.push data realloc room = some (after, 0) ∧ after.Whole ∧
      after.Carries kept ∧ transit = kept ++ lost ∧ lost.length = 2 ^ 28 - 1 ∧
      after.mWriter.mDataSizeEnd = 0 := by
  have valid := carries.writer_valid
  have sizeEq : Pointer.size = 8 := rfl
  obtain ⟨writer, pushed, writerValid, offsetEq, endEq⟩ :=
    CPipeQueueWriter.push_saturated valid whole.at_start saturated data realloc room
  have nothing : writer.pending = [] := by
    have lengthEq := writerValid.length_pending
    exact List.eq_nil_of_length_eq_zero (by omega)
  have received : 8 ∣ (queue.held ++ queue.kernelPipe).length := by
    have held := whole.held
    have pipe := whole.pipe
    rw [List.length_append]
    omega
  obtain ⟨kept, lost, transitEq, keptEq, lostEq⟩ :=
    split Pointer.length_bytes carries.stream received
  refine ⟨{ queue with mWriter := writer }, kept, lost, ?_, ?_,
    ⟨carries.reader_valid, writerValid, ?_, ?_⟩, transitEq, ?_, endEq⟩
  · rw [CPipeQueue.push, pushed, Option.map_some]
    simp only [List.append_nil]
  · refine ⟨offsetEq, whole.held, whole.pipe, ?_⟩
    change 8 ∣ writer.pending.length
    rw [nothing]
    exact Nat.dvd_zero 8
  · intro other member
    exact carries.not_null other (by rw [transitEq]; exact List.mem_append_left _ member)
  · rw [keptEq, nothing, List.append_nil]
  · have pendingLength := whole.end_eq valid
    have counted := length_flatMap Pointer.length_bytes lost
    rw [lostEq, sizeEq] at counted
    omega

/-- A write that the kernel takes leaves nothing pending. -/
theorem pending_outputNotify (valid : queue.mWriter.Valid) {after : CPipeQueue}
    (notified : queue.outputNotify (2 ^ 31) = some after) : after.mWriter.pending = [] := by
  have endEq := whole.end_eq valid
  have bounded := valid.end_lt
  obtain ⟨writer, writerNotified, -, left, -⟩ :=
    CPipeQueueWriter.outputNotify_spec valid (Or.inr whole.at_start)
  rw [CPipeQueue.outputNotify, writerNotified] at notified
  cases notified
  change writer.pending = []
  rw [left]
  exact List.drop_eq_nil_of_le (by omega)

/-- A pointer pushed into an empty queue is alone in the kernel's pipe when it is
written. -/
theorem pushed_written (carries : queue.Carries []) {data : Pointer} (notNull : data ≠ 0)
    {realloc : Option Contents} (memory : realloc.isSome) :
    ∃ pushed written,
      queue.push data realloc 0 = some (pushed, 0) ∧
      pushed.outputNotify (2 ^ 31) = some written ∧ written.Whole ∧ written.Carries [data] ∧
      written.held = [] ∧ written.kernelPipe = data.bytes := by
  have empty := carries.stream
  rw [List.flatMap_nil, eq_comm, List.append_eq_nil_iff, List.append_eq_nil_iff] at empty
  obtain ⟨⟨noneHeld, emptyPipe⟩, nonePending⟩ := empty
  have endEq := whole.end_eq carries.writer_valid
  rw [nonePending, List.length_nil] at endEq
  obtain ⟨pushed, pushedEq, pushedWhole, pushedCarries, sameReader, pushedEnd⟩ :=
    whole.push_kept carries (by omega) notNull memory
  rw [List.nil_append] at pushedCarries
  obtain ⟨written, -, writtenEq, writtenCarries, keptReader, -⟩ :=
    pushedCarries.outputNotify (pushedWhole.safeWrite (2 ^ 31))
  have writtenWhole := pushedWhole.outputNotify pushedCarries.writer_valid
    (Or.inr (Nat.le_refl _)) writtenEq
  have shortHeld : written.held = [] := by
    rw [keptReader, sameReader, noneHeld]
  have inPipe : data.bytes = written.kernelPipe := by
    have stream := writtenCarries.stream
    rw [pushedWhole.pending_outputNotify pushedCarries.writer_valid writtenEq, shortHeld] at stream
    simpa only [List.flatMap_cons, List.flatMap_nil, List.append_nil, List.nil_append] using stream
  exact ⟨pushed, written, pushedEq, writtenEq, writtenWhole, writtenCarries, shortHeld,
    inPipe.symm⟩

/-- A pointer pushed into an empty queue is the next one notified. -/
theorem passes (carries : queue.Carries []) {data : Pointer} (notNull : data ≠ 0)
    {realloc : Option Contents} (memory : realloc.isSome) :
    ∃ pushed written popped drained,
      queue.push data realloc 0 = some (pushed, 0) ∧
      pushed.outputNotify (2 ^ 31) = some written ∧
      written.turn 0 256 = some (.notified popped 1 data) ∧
      popped.turn 1 256 = some (.finished drained) := by
  obtain ⟨pushed, written, pushedEq, writtenEq, writtenWhole, writtenCarries, shortHeld, inPipe⟩ :=
    whole.pushed_written carries notNull memory
  have readable : written.readData written.kernelPipe 256 ≠ [] := by
    rw [CPipeQueueReader.readData, shortHeld, inPipe]
    intro nothing
    have lengthEq := congrArg List.length nothing
    simp [Pointer.size] at lengthEq
  obtain ⟨popped, -, ⟨-, -, reason⟩ | ⟨first, rest, transitEq, notified, restCarries, -⟩⟩ :=
    writtenCarries.turn (writtenWhole.safeRead (show 8 ∣ 256 by decide)) 0
  · rcases reason with ⟨exhausted, -⟩ | ⟨-, nothing, -⟩
    · omega
    · exact absurd nothing readable
  · cases transitEq
    have poppedWhole : popped.Whole := by
      rcases writtenWhole.turn writtenCarries (show 8 ∣ 256 by decide) notified with
        ⟨other, otherEq, -⟩ | ⟨other, first, rest, otherEq, -, whole, -⟩
      · cases otherEq
      · cases otherEq
        exact whole
    obtain ⟨drained, -, ⟨finished, -⟩ | ⟨next, rest, nothing, -⟩⟩ :=
      restCarries.turn (poppedWhole.safeRead (show 8 ∣ 256 by decide)) 1
    · exact ⟨pushed, written, popped, drained, pushedEq, writtenEq, notified, finished⟩
    · contradiction

end Whole

end NginxFastcgi.Service.CPipeQueue
