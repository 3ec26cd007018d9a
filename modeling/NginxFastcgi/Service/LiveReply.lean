import NginxFastcgi.Service.Server

/-!
# Replies and the life of connections

A task keeps the address of its connection, and nothing tells it when the
connection is destroyed.  As long as no connection is destroyed while a task of
it is still allocated, every reply goes to the live connection that its request
came from.
-/

namespace NginxFastcgi.Service.Server

open Foundation.PartialMap
open Foundation.Transition
open NginxFastcgi.Network

/-- The connection that a step destroys. -/
def destroyed (state : State) : Label → Option ConnectionId
  | .connectionInput connection read =>
      (state.connections connection).bind fun live =>
        match live.inputNotify CTcpConnection.decode read with
        | some .destroyed => some connection
        | _ => none
  | .connectionOutput connection writev =>
      (state.connections connection).bind fun live =>
        match live.outputNotify writev with
        | some .destroyed => some connection
        | _ => none
  | .hangup connection => some connection
  | _ => none

/-- The step destroys no connection that an allocated task refers to. -/
def Quiet (state : State) (label : Label) : Prop :=
  ∀ connection, destroyed state label = some connection →
    ∀ data job, state.heap data = some job → job.task.getConnection ≠ some connection

/-- Every reply went to a live connection, the one its request came from. -/
def RepliesLive (state : State) : Prop :=
  ∀ send ∈ state.sends, send.live ∧
    ∃ request, state.created[send.serial]? = some ⟨send.connection, request⟩

/-- Allocated tasks, and the packets being dispatched, refer to live
connections. -/
structure Linked (state : State) : Prop where
  jobs : ∀ data job, state.heap data = some job →
    ∃ request connection, state.created[job.serial]? = some ⟨connection, request⟩ ∧
      job.task.getConnection = some connection ∧ (state.connections connection).isSome
  dispatching : ∀ connection packets, state.listener = .dispatching connection packets →
    (state.connections connection).isSome
  replies : RepliesLive state

theorem linked_initial (memory : Memory) : Linked (initial memory) :=
  ⟨fun _ _ absent => by simp [initial] at absent,
    fun _ _ busy => by simp [initial] at busy,
    fun _ none => by simp [initial] at none⟩

namespace Linked

variable {state after : State} (linked : Linked state)
include linked

/-- A step that leaves tasks and history alone and keeps connections alive. -/
theorem frame (sameHeap : after.heap = state.heap) (sameCreated : after.created = state.created)
    (sameSends : after.sends = state.sends)
    (kept : ∀ connection, (state.connections connection).isSome →
      (after.connections connection).isSome)
    (dispatching : ∀ connection packets, after.listener = .dispatching connection packets →
      (after.connections connection).isSome) : Linked after := by
  refine ⟨?_, dispatching, ?_⟩
  · intro data job allocated
    rw [sameHeap] at allocated
    obtain ⟨request, connection, origin, refers, live⟩ := linked.jobs data job allocated
    exact ⟨request, connection, sameCreated ▸ origin, refers, kept connection live⟩
  · intro send member
    rw [sameSends] at member
    rw [sameCreated]
    exact linked.replies send member

/-- A task changes but keeps its serial and its connection. -/
theorem updateJob {data : Pointer} {job changed : Job} (allocated : state.heap data = some job)
    (sameSerial : changed.serial = job.serial)
    (sameConnection : changed.task.getConnection = job.task.getConnection) :
    Linked { state with heap := Function.update state.heap data (some changed) } := by
  refine ⟨?_, linked.dispatching, linked.replies⟩
  intro other otherJob otherAllocated
  rcases of_insert otherAllocated with ⟨rfl, rfl⟩ | ⟨-, unchanged⟩
  · rw [sameSerial, sameConnection]
    exact linked.jobs other job allocated
  · exact linked.jobs other otherJob unchanged

theorem clientReplyNotify {data : Pointer} {job : Job} (allocated : state.heap data = some job) :
    Linked (clientReplyNotify state data job) := by
  obtain ⟨request, connection, origin, refers, live⟩ := linked.jobs data job allocated
  obtain ⟨target, targetEq⟩ := Option.isSome_iff_exists.mp live
  unfold Server.clientReplyNotify
  rw [refers]
  simp only [targetEq, Option.map_some, Option.isSome_some]
  refine ⟨?_, ?_, ?_⟩
  · intro other otherJob otherAllocated
    obtain ⟨-, unchanged⟩ := of_erase otherAllocated
    obtain ⟨otherRequest, otherConnection, otherOrigin, otherRefers, otherLive⟩ :=
      linked.jobs other otherJob unchanged
    exact ⟨otherRequest, otherConnection, otherOrigin, otherRefers, isSome_insert _ otherLive⟩
  · intro other packets busy
    exact isSome_insert _ (linked.dispatching other packets busy)
  · intro send member
    rcases List.mem_append.mp member with member | member
    · exact linked.replies send member
    · rw [List.mem_singleton.mp member]
      exact ⟨rfl, request, origin⟩

theorem replyNotify {data : Pointer} {realloc : Option Contents} {room : Nat}
    (replied : replyNotify state data realloc room = some after) : Linked after := by
  obtain ⟨job, allocated, outcome⟩ := Option.bind_eq_some_iff.mp replied
  simp only at outcome
  generalize changedEq : { job with
    task := { job.task with replyList := job.task.replyList.popFront.2 } } = changed at outcome
  have changedLinked : Linked
      { state with heap := Function.update state.heap data (some changed) } := by
    subst changedEq
    exact linked.updateJob allocated rfl rfl
  have changedAllocated : Function.update state.heap data (some changed) data = some changed :=
    Function.update_self _ _ _
  split at outcome
  · cases outcome
    exact changedLinked
  · cases outcome
    exact changedLinked.clientReplyNotify changedAllocated
  · obtain ⟨pushed, -, rfl⟩ := Option.map_eq_some_iff.mp outcome
    exact changedLinked.frame rfl rfl rfl (fun _ live => live) changedLinked.dispatching

/-- An idle listener thread destroys a connection that no task refers to. -/
theorem destroy {connection : ConnectionId} (idle : state.listener = .idle)
    (unused : ∀ data job, state.heap data = some job →
      job.task.getConnection ≠ some connection) :
    Linked { state with connections := Function.update state.connections connection none } := by
  refine ⟨?_, ?_, linked.replies⟩
  · intro data job allocated
    obtain ⟨request, other, origin, refers, live⟩ := linked.jobs data job allocated
    have different : other ≠ connection := by
      rintro rfl
      exact unused data job allocated refers
    exact ⟨request, other, origin, refers, isSome_erase different live⟩
  · intro other packets busy
    rw [idle] at busy
    contradiction

theorem accept {fd : Int} (stepEq : Server.accept state fd = some after) : Linked after := by
  obtain ⟨-, rfl⟩ := accept_eq_some stepEq
  exact linked.frame rfl rfl rfl (fun _ live => isSome_insert _ live)
    (fun connection packets busy => isSome_insert _ (linked.dispatching connection packets busy))

theorem connectionInput {connection : ConnectionId} {read : ReadResult}
    (quiet : Quiet state (.connectionInput connection read))
    (stepEq : Server.connectionInput state connection read = some after) : Linked after := by
  obtain ⟨idle, live, present, ⟨notified, rfl⟩ | ⟨next, packets, notified, rfl⟩⟩ :=
    connectionInput_eq_some stepEq
  · refine linked.destroy idle (quiet connection ?_)
    rw [destroyed, present, Option.bind_some, notified]
  · refine linked.frame rfl rfl rfl (fun _ live => isSome_insert _ live) ?_
    intro other others busy
    cases packets with
    | nil => contradiction
    | cons packet packets =>
        cases busy
        exact isSome_insert_self _ _ _

theorem dispatch {address : Pointer} {realloc : Option Contents} {room : Nat}
    (stepEq : Server.dispatch state address realloc room = some after) : Linked after := by
  obtain ⟨connection, packet, packets, pushed, busy, -, -, -, rfl⟩ := dispatch_eq_some stepEq
  have live := linked.dispatching connection _ busy
  refine ⟨?_, ?_, ?_⟩
  · intro data job allocated
    rcases of_insert allocated with ⟨rfl, rfl⟩ | ⟨-, unchanged⟩
    · exact ⟨packet, connection, List.getElem?_concat_length, rfl, live⟩
    · obtain ⟨request, other, origin, refers, otherLive⟩ := linked.jobs data job unchanged
      have earlier := (List.getElem?_eq_some_iff.mp origin).1
      refine ⟨request, other, ?_, refers, otherLive⟩
      rw [List.getElem?_append_left earlier]
      exact origin
  · intro other others stillBusy
    cases packets with
    | nil => contradiction
    | cons next packets =>
        cases stillBusy
        exact live
  · intro send member
    obtain ⟨wasLive, request, origin⟩ := linked.replies send member
    have earlier := (List.getElem?_eq_some_iff.mp origin).1
    refine ⟨wasLive, request, ?_⟩
    rw [List.getElem?_append_left earlier]
    exact origin

theorem connectionOutput {connection : ConnectionId} {writev : WritevResult}
    (quiet : Quiet state (.connectionOutput connection writev))
    (stepEq : Server.connectionOutput state connection writev = some after) : Linked after := by
  obtain ⟨idle, live, present, ⟨notified, rfl⟩ | ⟨next, written, -, rfl⟩⟩ :=
    connectionOutput_eq_some stepEq
  · refine linked.destroy idle (quiet connection ?_)
    rw [destroyed, present, Option.bind_some, notified]
  · exact linked.frame rfl rfl rfl (fun _ live => isSome_insert _ live)
      (fun other packets busy => isSome_insert _ (linked.dispatching other packets busy))

theorem returnTurn {available : Nat} {realloc : Option Contents} {room : Nat}
    (stepEq : Server.returnTurn state available realloc room = some after) : Linked after := by
  obtain ⟨taskNum, -, ⟨queue, -, rfl⟩ | ⟨queue, next, data, -, replied⟩⟩ :=
    returnTurn_eq_some stepEq
  · exact linked.frame rfl rfl rfl (fun _ live => live) (fun _ _ busy => by contradiction)
  · have turned : Linked { state with returnPipe := queue, listener := .replying next } :=
      linked.frame rfl rfl rfl (fun _ live => live) (fun _ _ busy => by contradiction)
    exact turned.replyNotify replied

theorem work {realloc : Option Contents} {room : Nat}
    (stepEq : Server.work state realloc room = some after) : Linked after := by
  obtain ⟨taskNum, data, job, -, allocated, replied⟩ := work_eq_some stepEq
  have answered : Linked
      { state with heap := Function.update state.heap data (some { job with
          task := job.task.setResponseBody kWorkResponse
            (UInt32.ofNat kWorkResponse.length) }) } :=
    linked.updateJob allocated rfl rfl
  have released : Linked
      { state with
        heap := Function.update state.heap data (some { job with
          task := job.task.setResponseBody kWorkResponse
            (UInt32.ofNat kWorkResponse.length) })
        worker := .working taskNum } :=
    answered.frame rfl rfl rfl (fun _ live => live) answered.dispatching
  exact released.replyNotify replied

theorem step {label : Label} (quiet : Quiet state label)
    (stepEq : Server.step state label = some after) : Linked after := by
  have same : ∀ connection, (state.connections connection).isSome →
      (state.connections connection).isSome := fun _ live => live
  cases label with
  | accept fd => exact linked.accept stepEq
  | connectionInput connection read => exact linked.connectionInput quiet stepEq
  | dispatch address realloc room => exact linked.dispatch stepEq
  | connectionOutput connection writev => exact linked.connectionOutput quiet stepEq
  | hangup connection =>
      obtain ⟨idle, rfl⟩ := hangup_eq_some stepEq
      exact linked.destroy idle (quiet connection rfl)
  | incomingOutput room =>
      obtain ⟨-, queue, -, rfl⟩ := incomingOutput_eq_some stepEq
      exact linked.frame rfl rfl rfl same linked.dispatching
  | returnInput =>
      obtain ⟨-, rfl⟩ := returnInput_eq_some stepEq
      exact linked.frame rfl rfl rfl same (fun _ _ busy => by contradiction)
  | returnTurn available realloc room => exact linked.returnTurn stepEq
  | incomingInput =>
      obtain ⟨-, rfl⟩ := incomingInput_eq_some stepEq
      exact linked.frame rfl rfl rfl same linked.dispatching
  | incomingTurn available =>
      obtain ⟨taskNum, -, ⟨queue, -, rfl⟩ | ⟨queue, next, data, -, rfl⟩⟩ :=
        incomingTurn_eq_some stepEq
      · exact linked.frame rfl rfl rfl same linked.dispatching
      · exact linked.frame rfl rfl rfl same linked.dispatching
  | work realloc room => exact linked.work stepEq
  | returnOutput room =>
      obtain ⟨queue, -, rfl⟩ := returnOutput_eq_some stepEq
      exact linked.frame rfl rfl rfl same linked.dispatching

end Linked

/-- In every run in which no connection is destroyed while a task of it is
allocated, every reply goes to the live connection its request came from. -/
theorem repliesLive_of_quiet {memory : Memory} {state : State}
    (reachable : Reachable step Quiet (initial memory) state) : RepliesLive state := by
  have linked : Linked state := by
    refine reachable.invariant (linked_initial memory) ?_
    intro before label after beforeLinked quiet stepEq
    exact beforeLinked.step quiet stepEq
  exact linked.replies

/-- No connection is destroyed. -/
def StaysOpen (state : State) (label : Label) : Prop :=
  destroyed state label = none

instance (state : State) (label : Label) : Decidable (StaysOpen state label) :=
  inferInstanceAs (Decidable (_ = none))

theorem quiet_of_staysOpen {state : State} {label : Label} (stays : StaysOpen state label) :
    Quiet state label := by
  intro connection gone
  rw [StaysOpen, gone] at stays
  contradiction

/-- Memory that happens to be zero. -/
def zeroMemory : Memory :=
  ⟨fun _ => 0, fun _ => 0, fun _ => 0, fun _ => 0⟩

/-- A connection whose request of command `CT_A` has become a task. -/
def requestLabels : List Label :=
  [.accept 8, .connectionInput 0 (.data [0xFD, 0xFC, 0, 1, 0, 0, 0, 1, 0x61]),
    .dispatch 16 (some fun _ => 0) 0]

/-- The task passes both pipes. -/
def replyLabels : List Label :=
  [.incomingOutput (2 ^ 31), .incomingInput, .incomingTurn 256, .work (some fun _ => 0) 0,
    .incomingTurn 256, .returnOutput (2 ^ 31), .returnInput, .returnTurn 256 none 0]

theorem repliesLive_of_one :
    ∃ state : State, state.sends.length = 1 ∧ RepliesLive state := by
  have executed : (execute (restrict step StaysOpen) (requestLabels ++ replyLabels)
      (initial zeroMemory)).map (fun state => state.sends.length) = some 1 := by
    decide +kernel
  obtain ⟨state, runs, sent⟩ := Option.map_eq_some_iff.mp executed
  have reachable := (Reachable.of_execute runs).mono
    (fun before label stays => quiet_of_staysOpen stays)
  exact ⟨state, sent, repliesLive_of_quiet reachable⟩

/-- The client closes its connection while the task is in the incoming pipe,
and the reply is sent on the destroyed object. -/
theorem reply_after_eof :
    ∃ state, Reachable step (fun _ _ => True) (initial zeroMemory) state ∧
      ¬ RepliesLive state := by
  have executed : (execute (restrict step fun _ _ => True)
      (requestLabels ++ [.connectionInput 0 .eof] ++ replyLabels) (initial zeroMemory)).map
        (fun state => state.sends.map Send.live) = some [false] := by
    decide +kernel
  obtain ⟨state, runs, sent⟩ := Option.map_eq_some_iff.mp executed
  refine ⟨state, Reachable.of_execute runs, fun replies => ?_⟩
  obtain ⟨send, member, gone⟩ := List.mem_map.mp (sent ▸ List.mem_singleton_self false)
  have live := (replies send member).1
  rw [gone] at live
  exact absurd live Bool.false_ne_true

end NginxFastcgi.Service.Server
