import NginxFastcgi.Foundation.Transition
import NginxFastcgi.Service.PipeTransit

/-!
# Runs of a pipe queue

One thread pushes and answers output events, another answers input events.  A
step is one call of the writer, the start of an `InputNotify`, or one turn of
its loop, so that the threads meet at every system call.
-/

namespace NginxFastcgi.Service.PipeRun

open Foundation.Transition
open NginxFastcgi.Network

structure State where
  queue : CPipeQueue
  /-- The turns of the running `InputNotify`; `none` between callbacks. -/
  taskNum : Option Nat
  /-- The pointers for which `Push` returned zero. -/
  pushed : List Pointer
  /-- The pointers given to `TaskNotify`. -/
  delivered : List Pointer

inductive Label
  | push (data : Pointer) (realloc : Option Contents) (room : Nat)
  | outputNotify (room : Nat)
  | inputNotify
  | turn (available : Nat)

/-- A queue that was just attached to two pools. -/
def initial (readerContents writerContents : Contents) (source target : PoolId)
    (readFd writeFd : Int) : State where
  queue := CPipeQueue.attachPool readerContents writerContents source target readFd writeFd
  taskNum := none
  pushed := []
  delivered := []

def step : Step State Label
  | state, .push data realloc room =>
      (state.queue.push data realloc room).map fun (result : CPipeQueue × Int) =>
        { state with
          queue := result.1
          pushed := if result.2 = 0 then state.pushed ++ [data] else state.pushed }
  | state, .outputNotify room =>
      (state.queue.outputNotify room).map fun queue => { state with queue := queue }
  | state, .inputNotify =>
      match state.taskNum with
      | none => some { state with taskNum := some 0 }
      | some _ => none
  | state, .turn available =>
      match state.taskNum with
      | none => none
      | some taskNum =>
          (state.queue.turn taskNum available).map fun
            | .finished queue => { state with queue := queue, taskNum := none }
            | .notified queue taskNum data =>
                { state with
                  queue := queue
                  taskNum := some taskNum
                  delivered := state.delivered ++ [data] }

section Steps

variable {state after : State} {queue : CPipeQueue} {taskNum available : Nat}

/-- A notification begins between callbacks. -/
theorem inputNotify_eq_some (stepEq : step state .inputNotify = some after) :
    state.taskNum = none ∧ after = { state with taskNum := some 0 } := by
  simp only [step] at stepEq
  split at stepEq
  · rename_i idle
    cases stepEq
    exact ⟨idle, rfl⟩
  · contradiction

/-- A turn is one of a running notification. -/
theorem taskNum_of_turn (stepEq : step state (.turn available) = some after) :
    ∃ taskNum, state.taskNum = some taskNum := by
  simp only [step] at stepEq
  split at stepEq
  · contradiction
  · exact ⟨_, ‹_›⟩

theorem turn_of_finished (phase : state.taskNum = some taskNum)
    (finished : state.queue.turn taskNum available = some (.finished queue)) :
    step state (.turn available) = some { state with queue := queue, taskNum := none } := by
  simp only [step, phase, finished, Option.map_some]

theorem turn_of_notified {next : Nat} {data : Pointer} (phase : state.taskNum = some taskNum)
    (notified : state.queue.turn taskNum available = some (.notified queue next data)) :
    step state (.turn available) =
      some { state with
        queue := queue
        taskNum := some next
        delivered := state.delivered ++ [data] } := by
  simp only [step, phase, notified, Option.map_some]

end Steps

/-- Pushed pointers are not `NULL`. -/
def NotNull : Label → Prop
  | .push data _ _ => data ≠ 0
  | _ => True

instance : DecidablePred NotNull := fun label =>
  match label with
  | .push data _ _ => inferInstanceAs (Decidable (data ≠ 0))
  | .outputNotify _ => isTrue trivial
  | .inputNotify => isTrue trivial
  | .turn _ => isTrue trivial

def allowed (_ : State) (label : Label) : Prop :=
  NotNull label

instance (state : State) (label : Label) : Decidable (allowed state label) :=
  inferInstanceAs (Decidable (NotNull label))

/-- The counters of the queue are used as they were counted: no push rewinds
over bytes that were sent, stores over the end of the buffer or overflows the
end, no write continues inside the buffer, and no read ends inside the first
pointer. -/
def Safe (state : State) : Label → Prop
  | .push _ realloc room => state.queue.mWriter.SafePush realloc room
  | .outputNotify room => state.queue.SafeWrite room
  | .inputNotify => True
  | .turn available => state.queue.SafeRead available

instance (state : State) : DecidablePred (Safe state) := fun label =>
  match label with
  | .push _ realloc room => inferInstanceAs (Decidable (state.queue.mWriter.SafePush realloc room))
  | .outputNotify room => inferInstanceAs (Decidable (state.queue.SafeWrite room))
  | .inputNotify => isTrue trivial
  | .turn available => inferInstanceAs (Decidable (state.queue.SafeRead available))

/-- The pushed pointers are those delivered and those in transit. -/
def Ordered (state : State) : Prop :=
  ∃ transit, state.queue.Carries transit ∧ state.pushed = state.delivered ++ transit

theorem ordered_step {state after : State} {label : Label} (ordered : Ordered state)
    (notNull : NotNull label) (safe : Safe state label)
    (stepEq : step state label = some after) : Ordered after := by
  obtain ⟨transit, carries, pushedEq⟩ := ordered
  cases label with
  | push data realloc room =>
      rcases carries.push notNull safe with ⟨failed, -⟩ | ⟨queue, written, pushed, pushedCarries, -⟩
      · rw [step, failed] at stepEq
        cases stepEq
        exact ⟨transit, carries, pushedEq⟩
      · rw [step, pushed] at stepEq
        cases stepEq
        refine ⟨transit ++ [data], pushedCarries, ?_⟩
        simp only [if_true, pushedEq, List.append_assoc]
  | outputNotify room =>
      obtain ⟨queue, written, notified, notifiedCarries, -⟩ := carries.outputNotify safe
      rw [step, notified] at stepEq
      cases stepEq
      exact ⟨transit, notifiedCarries, pushedEq⟩
  | inputNotify =>
      obtain ⟨-, rfl⟩ := inputNotify_eq_some stepEq
      exact ⟨transit, carries, pushedEq⟩
  | turn available =>
      obtain ⟨taskNum, phase⟩ := taskNum_of_turn stepEq
      obtain ⟨queue, -, outcome⟩ := carries.turn safe taskNum
      rcases outcome with
        ⟨finished, afterCarries, -⟩ | ⟨data, rest, transitEq, notified, afterCarries, -⟩
      · rw [turn_of_finished phase finished] at stepEq
        cases stepEq
        exact ⟨transit, afterCarries, pushedEq⟩
      · rw [turn_of_notified phase notified] at stepEq
        cases stepEq
        refine ⟨rest, afterCarries, ?_⟩
        simp only [pushedEq, transitEq, List.append_assoc, List.singleton_append]

/-- The queue of a run, with memory that happens to be zero. -/
def zeroed : State :=
  initial (fun _ => 0) (fun _ => 0) 0 1 3 4

section Runs

variable {readerContents writerContents : Contents} {source target : PoolId}
  {readFd writeFd : Int}

/-- In every run that uses the counters as they were counted, the pointers
delivered are a prefix of the pointers pushed. -/
theorem delivered_prefix_of_safe {state : State}
    (reachable : Reachable step
      (fun before label => allowed before label ∧ Safe before label)
      (initial readerContents writerContents source target readFd writeFd) state) :
    state.delivered <+: state.pushed := by
  have ordered : Ordered state := by
    refine reachable.invariant ⟨[], CPipeQueue.Carries.attachPool _ _ _ _ _ _, rfl⟩ ?_
    intro before label after beforeOrdered permitted stepEq
    exact ordered_step beforeOrdered permitted.1 permitted.2 stepEq
  obtain ⟨transit, -, pushedEq⟩ := ordered
  exact ⟨transit, pushedEq.symm⟩

end Runs

/-- A run that delivers one of two pointers. -/
theorem delivered_prefix_of_one :
    ∃ state : State, state.delivered = [7] ∧ state.delivered <+: state.pushed := by
  have executed : (execute
      (restrict step fun before label => allowed before label ∧ Safe before label)
      [.push 7 none 0, .outputNotify 8, .push 8 none 0, .inputNotify, .turn 256] zeroed).map
        State.delivered = some [7] := by
    decide +kernel
  obtain ⟨state, runs, deliveredEq⟩ := Option.map_eq_some_iff.mp executed
  exact ⟨state, deliveredEq, delivered_prefix_of_safe (Reachable.of_execute runs)⟩

/-- Nine pushes, a write that ends behind the first pointer and one that
should continue there. -/
def partialWrite : List Label :=
  (List.range 9).map (fun index => .push (UInt64.ofNat (index + 1)) none 0) ++
    [.outputNotify 8, .outputNotify 8, .inputNotify, .turn 256, .turn 256]

/-- The second write takes the ninth pointer, because its start counts
pointers. -/
theorem partialWrite_not_prefix :
    ∃ state, Reachable step allowed zeroed state ∧ ¬ state.delivered <+: state.pushed := by
  have executed : (execute (restrict step allowed) partialWrite zeroed).map
      (fun state => (state.pushed, state.delivered)) =
        some ([1, 2, 3, 4, 5, 6, 7, 8, 9], [1, 9]) := by
    decide +kernel
  obtain ⟨state, runs, observed⟩ := Option.map_eq_some_iff.mp executed
  refine ⟨state, Reachable.of_execute runs, ?_⟩
  obtain ⟨pushedEq, deliveredEq⟩ := Prod.mk.inj observed
  rw [pushedEq, deliveredEq]
  decide

end NginxFastcgi.Service.PipeRun
