import NginxFastcgi.Service.PipeRun

/-!
# Whether the event loop still looks after every pointer

Between callbacks a pointer that was pushed and not delivered has to be in the
writer, which then waits for output, or behind a non-empty kernel pipe, which
wakes the reader.  The runs here transfer whole pointers: a write takes all or
nothing, and a read fails only on an empty pipe.
-/

namespace NginxFastcgi.Service

open Foundation.Blocks
open Foundation.Transition
open NginxFastcgi.Network

namespace CPipeQueue

/-- All parts of the queue hold whole pointers, and the writer has written
none of those it holds. -/
structure Whole (queue : CPipeQueue) : Prop where
  at_start : queue.mWriter.mDataSizeOffset = 0
  held : 8 ∣ queue.held.length
  pipe : 8 ∣ queue.kernelPipe.length
  pending : 8 ∣ queue.mWriter.pending.length

/-- The kernel takes everything or nothing; no more than `2 ^ 31` bytes are
ever offered. -/
def WholeRoom (room : Nat) : Prop :=
  room = 0 ∨ 2 ^ 31 ≤ room

instance (room : Nat) : Decidable (WholeRoom room) :=
  inferInstanceAs (Decidable (_ ∨ _))

namespace Whole

variable {queue after : CPipeQueue} (whole : queue.Whole)
include whole

theorem safePush (valid : queue.mWriter.Valid) (counted : queue.mWriter.mDataSizeEnd + 8 < 2 ^ 31)
    (realloc : Option Contents) (room : Nat) : queue.mWriter.SafePush realloc room := by
  refine ⟨fun _ _ => Or.inl whole.at_start, fun notFull => ?_, fun _ => counted,
    fun _ => Or.inl whole.at_start⟩
  have lengthEq := valid.length_pending
  have atStart := whole.at_start
  have inside := valid.end_le_length
  have allocated := valid.allocated
  have sizeEq : Pointer.size = 8 := rfl
  obtain ⟨count, countEq⟩ := whole.pending
  rw [valid.full_iff] at notFull
  rw [sizeEq] at allocated
  omega

theorem safeWrite (room : Nat) : queue.SafeWrite room := by
  have atStart := whole.at_start
  exact Or.inr (by omega)

theorem dvd_length_readData {available : Nat} (wholeRead : 8 ∣ available) :
    8 ∣ (queue.readData queue.kernelPipe available).length := by
  have held := whole.held
  have pipe := whole.pipe
  unfold CPipeQueueReader.readData
  split
  · exact Nat.dvd_zero 8
  · rw [List.length_take]
    omega

theorem safeRead {available : Nat} (wholeRead : 8 ∣ available) : queue.SafeRead available := by
  have whole_data := whole.dvd_length_readData wholeRead
  by_cases nothing : queue.readData queue.kernelPipe available = []
  · exact Or.inl nothing
  · have positive := List.length_pos_iff.mpr nothing
    exact Or.inr (by omega)

/-- A write of all or nothing keeps whole pointers on both sides. -/
theorem of_written {writer : CPipeQueueWriter} {bytes : List UInt8} {count : Nat}
    (wholeBytes : 8 ∣ bytes.length) (allOrNothing : count = 0 ∨ bytes.length ≤ count)
    (left : writer.pending = bytes.drop count)
    (offsetEq : writer.mDataSizeOffset = if bytes.length ≤ count then 0 else (count : Int)) :
    Whole { queue with
      mWriter := writer
      kernelPipe := queue.kernelPipe ++ bytes.take count } := by
  have pipe := whole.pipe
  refine ⟨?_, whole.held, ?_, ?_⟩
  · change writer.mDataSizeOffset = 0
    rw [offsetEq]
    split <;> omega
  · change 8 ∣ (queue.kernelPipe ++ bytes.take count).length
    rw [List.length_append, List.length_take]
    omega
  · change 8 ∣ writer.pending.length
    rw [left, List.length_drop]
    omega

theorem push (valid : queue.mWriter.Valid) (counted : queue.mWriter.mDataSizeEnd + 8 < 2 ^ 31)
    {data : Pointer} {realloc : Option Contents} {room : Nat} {result : Int}
    (wholeRoom : WholeRoom room) (pushed : queue.push data realloc room = some (after, result)) :
    after.Whole := by
  have lengthEq := valid.length_pending
  have atStart := whole.at_start
  have wholePending := whole.pending
  have size : data.bytes.length = 8 := data.length_bytes
  rcases CPipeQueueWriter.push_spec valid data (whole.safePush valid counted realloc room) with
    ⟨failed, -⟩ | ⟨writer, flushed, writerPushed, -, flushedEq, left, offsetEq⟩
  · rw [CPipeQueue.push, failed] at pushed
    cases pushed
    exact whole
  · rw [CPipeQueue.push, writerPushed] at pushed
    cases pushed
    refine whole.of_written ?_ ?_ left (offsetEq atStart)
    · rw [List.length_append]
      omega
    · rw [List.length_append]
      unfold WholeRoom at wholeRoom
      omega

theorem outputNotify (valid : queue.mWriter.Valid) {room : Nat} (wholeRoom : WholeRoom room)
    (notified : queue.outputNotify room = some after) : after.Whole := by
  have lengthEq := valid.length_pending
  have bounded := valid.end_lt
  have atStart := whole.at_start
  obtain ⟨writer, writerNotified, -, left, offsetEq⟩ :=
    CPipeQueueWriter.outputNotify_spec valid (Or.inr atStart)
  rw [CPipeQueue.outputNotify, writerNotified] at notified
  cases notified
  rw [atStart, Int.zero_add] at offsetEq
  refine whole.of_written whole.pending ?_ left offsetEq
  unfold WholeRoom at wholeRoom
  omega

/-- A read of whole pointers and a pop of one, or of none. -/
theorem of_popped {held data : Nat} (sameWriter : after.mWriter = queue.mWriter)
    (wholeData : 8 ∣ data) (left : after.held.length + held = queue.held.length + data)
    (wholePop : 8 ∣ held) (pipeEq : after.kernelPipe = queue.kernelPipe.drop data) :
    after.Whole := by
  have wholeHeld := whole.held
  have wholePipe := whole.pipe
  refine ⟨?_, ?_, ?_, ?_⟩
  · rw [sameWriter]
    exact whole.at_start
  · omega
  · rw [pipeEq, List.length_drop]
    omega
  · rw [sameWriter]
    exact whole.pending

theorem turn {transit : List Pointer} (carries : queue.Carries transit) {available : Nat}
    (wholeRead : 8 ∣ available) {taskNum : Nat} {outcome : Turn}
    (turnEq : queue.turn taskNum available = some outcome) :
    (∃ after, outcome = .finished after ∧ after.Whole ∧ after.Carries transit) ∨
      ∃ after data rest, outcome = .notified after (taskNum + 1) data ∧
        transit = data :: rest ∧ after.Whole ∧ after.Carries rest := by
  have wholeData := whole.dvd_length_readData wholeRead
  obtain ⟨after, sameWriter, ⟨finished, afterCarries, reason⟩ |
      ⟨data, rest, transitEq, notified, restCarries, -, left, pipeEq⟩⟩ :=
    carries.turn (whole.safeRead wholeRead) taskNum
  · rw [finished] at turnEq
    cases turnEq
    refine Or.inl ⟨after, rfl, ?_, afterCarries⟩
    rcases reason with ⟨-, rfl⟩ | ⟨-, -, kept, samePipe⟩
    · exact whole
    · exact whole.of_popped sameWriter (Nat.dvd_zero 8) kept (Nat.dvd_zero 8) samePipe
  · rw [notified] at turnEq
    cases turnEq
    exact Or.inr ⟨after, data, rest, rfl, transitEq,
      whole.of_popped sameWriter wholeData left (Nat.dvd_refl 8) pipeEq, restCarries⟩

end Whole

end CPipeQueue

namespace PipeRun

/-- The environment transfers whole pointers, and a read returns some of what
is in the pipe. -/
def WholeTransfer : Label → Prop
  | .push data _ room => data ≠ 0 ∧ CPipeQueue.WholeRoom room
  | .outputNotify room => CPipeQueue.WholeRoom room
  | .inputNotify => True
  | .turn available => 0 < available ∧ 8 ∣ available

instance : DecidablePred WholeTransfer := fun label =>
  match label with
  | .push data _ room => inferInstanceAs (Decidable (data ≠ 0 ∧ CPipeQueue.WholeRoom room))
  | .outputNotify room => inferInstanceAs (Decidable (CPipeQueue.WholeRoom room))
  | .inputNotify => isTrue trivial
  | .turn available => inferInstanceAs (Decidable (0 < available ∧ 8 ∣ available))

def allowedWhole (_ : State) (label : Label) : Prop :=
  WholeTransfer label

instance (state : State) (label : Label) : Decidable (allowedWhole state label) :=
  inferInstanceAs (Decidable (WholeTransfer label))

/-- No push takes the pending bytes to `2 ^ 31`, and no read that empties the
pipe returns more pointers than the running notification may still deliver. -/
def WithinQuota (state : State) : Label → Prop
  | .push _ _ _ => state.queue.mWriter.mDataSizeEnd + 8 < 2 ^ 31
  | .outputNotify _ => True
  | .inputNotify => True
  | .turn available =>
      ∀ taskNum ∈ state.taskNum,
        state.queue.readData state.queue.kernelPipe available = state.queue.kernelPipe →
          state.queue.kernelPipe.length ≤ 8 * (kCommonConstant * 2 - taskNum)

instance (state : State) : DecidablePred (WithinQuota state) := fun label =>
  match label with
  | .push _ _ _ => inferInstanceAs (Decidable (_ < _))
  | .outputNotify _ => isTrue trivial
  | .inputNotify => isTrue trivial
  | .turn _ => inferInstanceAs (Decidable (∀ taskNum ∈ state.taskNum, _ → _))

/-- The event loop looks after every pointer on the way. -/
structure Covered (state : State) : Prop where
  located : ∃ held piped pending : List Pointer,
    state.pushed = state.delivered ++ held ++ piped ++ pending ∧
      held.flatMap Pointer.bytes = state.queue.held ∧
      piped.flatMap Pointer.bytes = state.queue.kernelPipe ∧
      pending.flatMap Pointer.bytes = state.queue.mWriter.pending ∧
      (pending ≠ [] → state.queue.mWriter.registered.epollout) ∧
      (state.taskNum = none → held ++ piped ≠ [] →
        state.queue.kernelPipe ≠ [] ∧ state.queue.registered.epollin)
  nothing_left : state.taskNum = none → state.queue.kernelPipe = [] →
    ¬ state.queue.mDataNumOffset < state.queue.mDataNumEnd

/-- What holds between any two steps: the reader holds no more than the running
notification can deliver, or the pipe wakes it again. -/
structure Tended (state : State) : Prop where
  ordered : Ordered state
  whole : state.queue.Whole
  quota : state.queue.held.length ≤ 8 * (64 - state.taskNum.getD 64) ∨
    state.queue.kernelPipe ≠ []

theorem tended_initial (readerContents writerContents : Contents) (source target : PoolId)
    (readFd writeFd : Int) :
    Tended (initial readerContents writerContents source target readFd writeFd) :=
  ⟨⟨[], CPipeQueue.Carries.attachPool _ _ _ _ _ _, rfl⟩,
    ⟨rfl, Nat.dvd_zero 8, Nat.dvd_zero 8, Nat.dvd_zero 8⟩, Or.inl (Nat.le_refl 0)⟩

namespace Tended

variable {state after : State} (tended : Tended state)
include tended

theorem safe {label : Label} (transfer : WholeTransfer label)
    (within : WithinQuota state label) : NotNull label ∧ Safe state label := by
  obtain ⟨transit, carries, -⟩ := tended.ordered
  cases label with
  | push data realloc room =>
      exact ⟨transfer.1, tended.whole.safePush carries.writer_valid within realloc room⟩
  | outputNotify room => exact ⟨trivial, tended.whole.safeWrite room⟩
  | inputNotify => exact ⟨trivial, trivial⟩
  | turn available => exact ⟨trivial, tended.whole.safeRead transfer.2⟩

/-- A call of the writer only appends to the pipe. -/
theorem of_writer {queue : CPipeQueue} {pushed : List Pointer} {written : List UInt8}
    (ordered : Ordered { state with queue := queue, pushed := pushed }) (whole : queue.Whole)
    (sameReader : queue.toCPipeQueueReader = state.queue.toCPipeQueueReader)
    (appended : queue.kernelPipe = state.queue.kernelPipe ++ written) :
    Tended { state with queue := queue, pushed := pushed } := by
  refine ⟨ordered, whole, ?_⟩
  rcases tended.quota with few | nonempty
  · left
    rw [← sameReader] at few
    exact few
  · right
    change queue.kernelPipe ≠ []
    rw [appended]
    exact List.append_ne_nil_of_left_ne_nil nonempty written

/-- A turn of the loop. -/
theorem turn {available taskNum : Nat} (phase : state.taskNum = some taskNum)
    (transfer : 0 < available ∧ 8 ∣ available)
    (within : state.queue.readData state.queue.kernelPipe available = state.queue.kernelPipe →
      state.queue.kernelPipe.length ≤ 8 * (64 - taskNum))
    (stepEq : step state (.turn available) = some after) :
    after.queue.Whole ∧
      (after.queue.held.length ≤ 8 * (64 - after.taskNum.getD 64) ∨
        after.queue.kernelPipe ≠ []) := by
  obtain ⟨transit, carries, -⟩ := tended.ordered
  have whole := tended.whole
  have wholeData := whole.dvd_length_readData transfer.2
  have wholeHeld := whole.held
  have quota := tended.quota
  rw [phase, Option.getD_some] at quota
  obtain ⟨queue, sameWriter, outcome⟩ :=
    carries.turn (whole.safeRead transfer.2) taskNum
  rcases outcome with ⟨finished, -, reason⟩ | ⟨data, rest, -, notified, -, within64, left, pipeEq⟩
  · rw [turn_of_finished phase finished] at stepEq
    cases stepEq
    rcases reason with ⟨exhausted, rfl⟩ | ⟨short, -, kept, samePipe⟩
    · refine ⟨whole, quota.imp_left fun few => ?_⟩
      change state.queue.held.length ≤ 0
      omega
    · refine ⟨whole.of_popped sameWriter (Nat.dvd_zero 8) kept (Nat.dvd_zero 8) samePipe,
        Or.inl ?_⟩
      change queue.held.length ≤ 0
      omega
  · rw [turn_of_notified phase notified] at stepEq
    cases stepEq
    refine ⟨whole.of_popped sameWriter wholeData left (Nat.dvd_refl 8) pipeEq, ?_⟩
    change queue.held.length ≤ 8 * (64 - (taskNum + 1)) ∨ queue.kernelPipe ≠ []
    by_cases emptied : queue.kernelPipe = []
    · left
      rw [pipeEq, List.drop_eq_nil_iff] at emptied
      have all : state.queue.readData state.queue.kernelPipe available =
          state.queue.kernelPipe := by
        have joined := state.queue.readData_append_drop state.queue.kernelPipe available
        rwa [List.drop_eq_nil_iff.mpr emptied, List.append_nil] at joined
      have bounded := within all
      rw [all] at left
      by_cases wholePointer : 8 ≤ state.queue.held.length
      · -- Nothing was read, so the pipe was empty before.
        have noRead : state.queue.readData state.queue.kernelPipe available = [] :=
          if_pos wholePointer
        rw [all] at noRead
        rw [noRead, List.length_nil] at left
        rcases quota with few | nonempty
        · omega
        · exact absurd noRead nonempty
      · omega
    · exact Or.inr emptied

theorem step_tended {label : Label} (transfer : WholeTransfer label)
    (within : WithinQuota state label) (stepEq : step state label = some after) :
    Tended after := by
  obtain ⟨notNull, safe⟩ := tended.safe transfer within
  have ordered := ordered_step tended.ordered notNull safe stepEq
  obtain ⟨transit, carries, -⟩ := tended.ordered
  cases label with
  | push data realloc room =>
      rcases carries.push notNull safe with
        ⟨failed, -⟩ | ⟨queue, written, pushed, -, sameReader, appended⟩
      · rw [step, failed] at stepEq
        cases stepEq
        exact tended
      · have whole := tended.whole.push carries.writer_valid within transfer.2 pushed
        rw [step, pushed] at stepEq
        cases stepEq
        exact tended.of_writer ordered whole sameReader appended
  | outputNotify room =>
      obtain ⟨queue, written, notified, -, sameReader, appended⟩ := carries.outputNotify safe
      have whole := tended.whole.outputNotify carries.writer_valid transfer notified
      rw [step, notified] at stepEq
      cases stepEq
      exact tended.of_writer ordered whole sameReader appended
  | inputNotify =>
      obtain ⟨idle, rfl⟩ := inputNotify_eq_some stepEq
      refine ⟨ordered, tended.whole, tended.quota.imp_left fun few => ?_⟩
      rw [idle] at few
      exact Nat.le_trans few (Nat.zero_le (8 * 64))
  | turn available =>
      obtain ⟨taskNum, phase⟩ := taskNum_of_turn stepEq
      obtain ⟨whole, quota⟩ := tended.turn phase transfer (within taskNum phase) stepEq
      exact ⟨ordered, whole, quota⟩

theorem covered : Covered state := by
  obtain ⟨transit, carries, pushedEq⟩ := tended.ordered
  have whole := tended.whole
  have stream := carries.stream
  rw [List.append_assoc] at stream
  obtain ⟨held, later, transitEq, heldEq, laterStream⟩ :=
    split Pointer.length_bytes stream whole.held
  obtain ⟨piped, pending, laterEq, pipedEq, pendingEq⟩ :=
    split Pointer.length_bytes laterStream whole.pipe
  have heldNone : state.taskNum = none → state.queue.kernelPipe = [] →
      state.queue.held.length = 0 := by
    intro idle empty
    rcases tended.quota with few | nonempty
    · rw [idle] at few
      exact Nat.le_zero.mp few
    · exact absurd empty nonempty
  refine ⟨⟨held, piped, pending, ?_, heldEq, pipedEq, pendingEq, ?_, ?_⟩, ?_⟩
  · rw [pushedEq, transitEq, laterEq]
    simp only [List.append_assoc]
  · intro some_pending
    have lengthEq := carries.writer_valid.length_pending
    have counted := length_flatMap Pointer.length_bytes pending
    rw [pendingEq] at counted
    have positive := List.length_pos_iff.mpr some_pending
    have sizeEq : Pointer.size = 8 := rfl
    rw [sizeEq] at counted
    exact (carries.writer_valid.output (by omega)).2
  · intro idle some_left
    refine ⟨fun empty => some_left ?_, carries.reader_valid.input⟩
    have heldLength := length_flatMap Pointer.length_bytes held
    have pipedLength := length_flatMap Pointer.length_bytes piped
    have sizeEq : Pointer.size = 8 := rfl
    rw [heldEq, heldNone idle empty, sizeEq] at heldLength
    rw [pipedEq, empty, List.length_nil, sizeEq] at pipedLength
    rw [List.append_eq_nil_iff, ← List.length_eq_zero_iff, ← List.length_eq_zero_iff]
    omega
  · intro idle empty below
    have whole_held := carries.reader_valid.offset_lt_end_iff.mp below
    have none_held := heldNone idle empty
    omega

end Tended

section Runs

variable {readerContents writerContents : Contents} {source target : PoolId}
  {readFd writeFd : Int}

/-- In every run that stays within the quota, the event loop looks after every
pointer on the way. -/
theorem covered_of_withinQuota {state : State}
    (reachable : Reachable step
      (fun before label => allowedWhole before label ∧ WithinQuota before label)
      (initial readerContents writerContents source target readFd writeFd) state) :
    Covered state := by
  have tended : Tended state := by
    refine reachable.invariant (tended_initial _ _ _ _ _ _) ?_
    intro before label after beforeTended permitted stepEq
    exact beforeTended.step_tended permitted.1 permitted.2 stepEq
  exact tended.covered

end Runs

/-- Two pointers are pushed, and one is delivered before the notification ends
for lack of room in its turn. -/
theorem covered_of_two :
    ∃ state : State, state.pushed = [7, 8] ∧ state.delivered = [7] ∧ Covered state := by
  have executed : (execute
      (restrict step fun before label => allowedWhole before label ∧ WithinQuota before label)
      [.push 7 none 0, .outputNotify (2 ^ 31), .push 8 none 0, .inputNotify, .turn 256,
        .turn 256] zeroed).map (fun state => (state.pushed, state.delivered)) =
          some ([7, 8], [7]) := by
    decide +kernel
  obtain ⟨state, runs, observed⟩ := Option.map_eq_some_iff.mp executed
  obtain ⟨pushedEq, deliveredEq⟩ := Prod.mk.inj observed
  exact ⟨state, pushedEq, deliveredEq, covered_of_withinQuota (Reachable.of_execute runs)⟩

/-- Batches of 31, 32 and 5 pointers reach the reader within one notification,
which ends inside the last batch. -/
def threeBatches : List Label :=
  (List.range 31).map (fun index => .push (UInt64.ofNat (index + 1)) none 0) ++
    [.outputNotify (2 ^ 31), .inputNotify] ++ List.replicate 31 (.turn 256) ++
    (List.range 32).map (fun index => .push (UInt64.ofNat (index + 32)) none (2 ^ 31)) ++
    List.replicate 32 (.turn 256) ++
    (List.range 5).map (fun index => .push (UInt64.ofNat (index + 64)) none 0) ++
    [.outputNotify (2 ^ 31), .turn 256, .turn 256]

/-- The notification ends with four pointers in the buffer of the reader while
the pipe is empty. -/
theorem threeBatches_not_covered :
    ∃ state, Reachable step allowedWhole zeroed state ∧ ¬ Covered state := by
  have executed : (execute (restrict step allowedWhole) threeBatches zeroed).map
      (fun state => (state.taskNum, state.queue.kernelPipe, state.queue.mDataNumOffset,
        state.queue.mDataNumEnd)) = some (none, [], 1, 5) := by
    decide +kernel
  obtain ⟨state, runs, observed⟩ := Option.map_eq_some_iff.mp executed
  simp only [Prod.mk.injEq] at observed
  obtain ⟨idle, empty, offsetEq, endEq⟩ := observed
  refine ⟨state, Reachable.of_execute runs, fun covered => ?_⟩
  exact covered.nothing_left idle empty (by rw [offsetEq, endEq]; decide)

end PipeRun

end NginxFastcgi.Service
