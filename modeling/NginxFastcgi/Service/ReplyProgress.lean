import NginxFastcgi.Service.ReplyOrder

/-!
# Steps that are defined

A step without a result is one whose thread is elsewhere, or one that uses a
task after it was deleted, pops from a broken queue or does not return.  Where
the requests are accounted for, the second kind does not come up: every step
that its thread can take next has a result.
-/

namespace NginxFastcgi.Service.Server

open Foundation.PartialMap
open Foundation.Transition
open NginxFastcgi.Network

/-- The thread of a step is where the step begins, the connection that it is
about exists, and `new` returns an address that is free. -/
def Enabled (state : State) : Label → Prop
  | .accept _ => state.listener = .idle
  | .connectionInput connection _ =>
      state.listener = .idle ∧ (state.connections connection).isSome
  | .dispatch address _ _ =>
      (∃ connection packets, state.listener = .dispatching connection packets) ∧
        address ≠ 0 ∧ state.heap address = none
  | .connectionOutput connection _ =>
      state.listener = .idle ∧ (state.connections connection).isSome
  | .hangup connection => state.listener = .idle ∧ (state.connections connection).isSome
  | .incomingOutput _ => state.listener = .idle
  | .returnInput => state.listener = .idle
  | .returnTurn _ _ _ => ∃ taskNum, state.listener = .replying taskNum
  | .incomingInput => state.worker = .idle
  | .incomingTurn _ => ∃ taskNum, state.worker = .working taskNum
  | .work _ _ => ∃ taskNum data, state.worker = .holding taskNum data
  | .returnOutput _ => state.worker = .idle

/-- No step that may come next is undefined: no deleted task is used or deleted
again, no operation of a queue fails, and every callback returns. -/
def Proceeds (state : State) : Prop :=
  ∀ label, Enabled state label → Reliable state label → Unsaturated state label →
    (step state label).isSome

/-! ## Connections -/

/-- A connection that a pool polls, between two reads. -/
structure Serving (live : CConnection) : Prop where
  pending : CTcpConnection.Pending live.mRecvBuffers
  attached : live.mOwner.isSome

theorem serving_acceptedConnection (fd : Int) : Serving (acceptedConnection fd) :=
  ⟨CTcpConnection.pending_new, rfl⟩

namespace Serving

variable {live after : CConnection} (serving : Serving live)
include serving

theorem sendPacket (packet : CResponsePacket) : Serving (live.sendPacket packet).1 := by
  constructor
  · have same : (live.sendPacket packet).1.mRecvBuffers = live.mRecvBuffers := by
      unfold CConnection.sendPacket
      dsimp only
      split <;> rfl
    rw [same]
    exact serving.pending
  · rw [(CConnection.keeps_sendPacket live packet).owner]
    exact serving.attached

/-- A read that the buffer can take is decoded. -/
theorem inputNotify {read : ReadResult}
    (readable : ∀ chunk, read = .data chunk → CTcpConnection.Readable chunk) :
    live.inputNotify CTcpConnection.decode read = some .destroyed ∨
      ∃ after packets,
        live.inputNotify CTcpConnection.decode read = some (.alive after packets) ∧
          Serving after := by
  cases read with
  | data chunk =>
      rcases CTcpConnection.inputNotify_spec serving.pending (readable chunk rfl) with
        ⟨after, packets, notified, -, pending⟩ | ⟨destroyed, -⟩
      · refine Or.inr ⟨after, packets, notified, pending, ?_⟩
        rw [(CConnection.keeps_inputNotify notified).owner]
        exact serving.attached
      · exact Or.inl destroyed
  | eof => exact Or.inl rfl
  | retry => exact Or.inr ⟨live, [], rfl, serving⟩
  | error => exact Or.inl rfl

theorem finishOutput (connection : CConnection) (sameOwner : connection.mOwner = live.mOwner)
    (sameReceived : connection.mRecvBuffers = live.mRecvBuffers) (written : List UInt8) :
    ∃ after, connection.finishOutput written = some (.alive after written) ∧ Serving after := by
  have attached : connection.mOwner.isSome := by
    rw [sameOwner]
    exact serving.attached
  obtain ⟨after, finished, -, owner⟩ := connection.finishOutput_spec attached written
  refine ⟨after, finished, ?_, owner ▸ attached⟩
  have received : after.mRecvBuffers = connection.mRecvBuffers := by
    unfold CConnection.finishOutput at finished
    split at finished
    · obtain ⟨unit, -, outcome⟩ := Option.map_eq_some_iff.mp finished
      cases outcome
      rfl
    · cases finished
      rfl
  rw [received, sameReceived]
  exact serving.pending

theorem outputNotify (writev : WritevResult) :
    live.outputNotify writev = some .destroyed ∨
      ∃ after written, live.outputNotify writev = some (.alive after written) ∧
        Serving after := by
  unfold CConnection.outputNotify
  split
  · cases writev with
    | accepted count =>
        obtain ⟨after, finished, servingAfter⟩ := serving.finishOutput
          { live with mSendBuffers := (live.mSendBuffers.eraseFront count).1 } rfl rfl
          (live.offered.take count)
        exact Or.inr ⟨after, _, finished, servingAfter⟩
    | zero => exact Or.inr ⟨live, [], rfl, serving⟩
    | retry => exact Or.inr ⟨live, [], rfl, serving⟩
    | error => exact Or.inl rfl
  · obtain ⟨after, finished, servingAfter⟩ := serving.finishOutput live rfl rfl []
    exact Or.inr ⟨after, [], finished, servingAfter⟩

end Serving

/-- All connections are polled, and the loop over `OnPacket` has a packet. -/
structure Serviceable (state : State) : Prop where
  serving : ∀ connection live, state.connections connection = some live → Serving live
  dispatching : ∀ connection, state.listener ≠ .dispatching connection []

theorem serviceable_initial (memory : Memory) : Serviceable (initial memory) :=
  ⟨fun _ _ present => by contradiction, fun _ busy => by contradiction⟩

theorem dispatchRest_ne (connection other : ConnectionId) (packets : List CRequestPacket) :
    dispatchRest connection packets ≠ .dispatching other [] := by
  cases packets <;> simp [dispatchRest]

namespace Serviceable

variable {state after : State} (serviceable : Serviceable state)
include serviceable

/-- A step that leaves the connections alone. -/
theorem frame (sameConnections : after.connections = state.connections)
    (dispatching : ∀ connection, after.listener ≠ .dispatching connection []) :
    Serviceable after :=
  ⟨fun connection live present =>
    serviceable.serving connection live (sameConnections ▸ present), dispatching⟩

/-- One connection is replaced. -/
theorem serving_update {connection : ConnectionId} {next : CConnection} (serving : Serving next)
    (other : ConnectionId) (live : CConnection)
    (present : Function.update state.connections connection (some next) other = some live) :
    Serving live := by
  rcases of_insert present with ⟨-, rfl⟩ | ⟨-, unchanged⟩
  · exact serving
  · exact serviceable.serving other live unchanged

theorem serving_erase {connection : ConnectionId} (other : ConnectionId) (live : CConnection)
    (present : Function.update state.connections connection none other = some live) :
    Serving live :=
  serviceable.serving other live (of_erase present).2

theorem clientReplyNotify (data : Pointer) (job : Job) :
    Serviceable (clientReplyNotify state data job) := by
  unfold Server.clientReplyNotify
  refine ⟨?_, ?_⟩
  · intro other live present
    split at present
    · exact serviceable.serving other live present
    · rename_i connection _
      cases found : state.connections connection with
      | none =>
          simp only [found, Option.map_none] at present
          exact serviceable.serving_erase other live present
      | some target =>
          simp only [found, Option.map_some] at present
          exact serviceable.serving_update
            ((serviceable.serving connection target found).sendPacket _) other live present
  · intro connection busy
    split at busy <;> exact serviceable.dispatching connection busy

theorem replyNotify {data : Pointer} {realloc : Option Contents} {room : Nat}
    (replied : replyNotify state data realloc room = some after) : Serviceable after := by
  obtain ⟨job, -, outcome⟩ := Option.bind_eq_some_iff.mp replied
  dsimp only at outcome
  split at outcome
  · cases outcome
    exact serviceable.frame rfl serviceable.dispatching
  · cases outcome
    apply Serviceable.clientReplyNotify
    exact serviceable.frame rfl serviceable.dispatching
  · obtain ⟨pushed, -, rfl⟩ := Option.map_eq_some_iff.mp outcome
    exact serviceable.frame rfl serviceable.dispatching

theorem connectionInput {connection : ConnectionId} {read : ReadResult}
    (readable : ∀ chunk, read = .data chunk → CTcpConnection.Readable chunk)
    (stepEq : Server.connectionInput state connection read = some after) : Serviceable after := by
  obtain ⟨idle, live, present, outcome⟩ := connectionInput_eq_some stepEq
  have serving := serviceable.serving connection live present
  rcases outcome with ⟨-, rfl⟩ | ⟨next, packets, notified, rfl⟩
  · exact ⟨serviceable.serving_erase, serviceable.dispatching⟩
  · rcases serving.inputNotify readable with destroyed | ⟨other, others, otherEq, servingOther⟩
    · rw [destroyed] at notified
      cases notified
    · rw [otherEq] at notified
      cases notified
      exact ⟨serviceable.serving_update servingOther, fun _ => dispatchRest_ne _ _ _⟩

theorem connectionOutput {connection : ConnectionId} {writev : WritevResult}
    (stepEq : Server.connectionOutput state connection writev = some after) :
    Serviceable after := by
  obtain ⟨idle, live, present, outcome⟩ := connectionOutput_eq_some stepEq
  have serving := serviceable.serving connection live present
  rcases outcome with ⟨-, rfl⟩ | ⟨next, written, notified, rfl⟩
  · exact ⟨serviceable.serving_erase, serviceable.dispatching⟩
  · rcases serving.outputNotify writev with destroyed | ⟨other, others, otherEq, servingOther⟩
    · rw [destroyed] at notified
      cases notified
    · rw [otherEq] at notified
      cases notified
      exact ⟨serviceable.serving_update servingOther, serviceable.dispatching⟩

theorem step {label : Label} (reliable : Reliable state label)
    (stepEq : Server.step state label = some after) : Serviceable after := by
  have idleNext : ∀ connection, Listener.idle ≠ .dispatching connection [] :=
    fun _ same => by cases same
  have replyingNext : ∀ taskNum connection,
      Listener.replying taskNum ≠ .dispatching connection [] := fun _ _ same => by cases same
  cases label with
  | accept fd =>
      obtain ⟨-, rfl⟩ := accept_eq_some stepEq
      exact ⟨serviceable.serving_update (serving_acceptedConnection fd), serviceable.dispatching⟩
  | connectionInput connection read =>
      refine serviceable.connectionInput ?_ stepEq
      rintro chunk rfl
      exact reliable.2
  | dispatch address realloc room =>
      obtain ⟨connection, packet, packets, pushed, -, -, -, -, rfl⟩ := dispatch_eq_some stepEq
      exact serviceable.frame rfl fun _ => dispatchRest_ne _ _ _
  | connectionOutput connection writev => exact serviceable.connectionOutput stepEq
  | hangup connection =>
      obtain ⟨-, rfl⟩ := hangup_eq_some stepEq
      exact ⟨serviceable.serving_erase, serviceable.dispatching⟩
  | incomingOutput room =>
      obtain ⟨-, queue, -, rfl⟩ := incomingOutput_eq_some stepEq
      exact serviceable.frame rfl serviceable.dispatching
  | returnInput =>
      obtain ⟨-, rfl⟩ := returnInput_eq_some stepEq
      exact serviceable.frame rfl (replyingNext 0)
  | returnTurn available realloc room =>
      obtain ⟨taskNum, -, ⟨queue, -, rfl⟩ | ⟨queue, next, data, -, replied⟩⟩ :=
        returnTurn_eq_some stepEq
      · exact serviceable.frame rfl idleNext
      · apply Serviceable.replyNotify _ replied
        exact serviceable.frame rfl (replyingNext next)
  | incomingInput =>
      obtain ⟨-, rfl⟩ := incomingInput_eq_some stepEq
      exact serviceable.frame rfl serviceable.dispatching
  | incomingTurn available =>
      obtain ⟨taskNum, -, ⟨queue, -, rfl⟩ | ⟨queue, next, data, -, rfl⟩⟩ :=
        incomingTurn_eq_some stepEq
      · exact serviceable.frame rfl serviceable.dispatching
      · exact serviceable.frame rfl serviceable.dispatching
  | work realloc room =>
      obtain ⟨taskNum, data, job, -, -, replied⟩ := work_eq_some stepEq
      apply Serviceable.replyNotify _ replied
      exact serviceable.frame rfl serviceable.dispatching
  | returnOutput room =>
      obtain ⟨queue, -, rfl⟩ := returnOutput_eq_some stepEq
      exact serviceable.frame rfl serviceable.dispatching

end Serviceable

/-! ## Queues -/

namespace Flows

variable {queue : CPipeQueue} {tasks : List (Pointer × Origin)} (flows : Flows queue tasks)
include flows

theorem push_isSome {address : Pointer} (notNull : address ≠ 0)
    (counted : queue.mWriter.mDataSizeEnd + 8 < 2 ^ 31) (realloc : Option Contents)
    (room : Nat) : (queue.push address realloc room).isSome := by
  have safe := flows.whole.safePush flows.carries.writer_valid counted realloc room
  rcases flows.carries.push notNull safe with ⟨failed, -⟩ | ⟨after, written, pushed, -⟩
  · rw [failed]
    rfl
  · rw [pushed]
    rfl

theorem outputNotify_isSome (room : Nat) : (queue.outputNotify room).isSome := by
  obtain ⟨after, written, notified, -⟩ := flows.carries.outputNotify (flows.whole.safeWrite room)
  rw [notified]
  rfl

/-- A turn ends the loop or notifies the first task. -/
theorem turn_cases {available : Nat} (wholeRead : 8 ∣ available) (taskNum : Nat) :
    (∃ after, queue.turn taskNum available = some (.finished after)) ∨
      ∃ after data origin rest, tasks = (data, origin) :: rest ∧
        queue.turn taskNum available = some (.notified after (taskNum + 1) data) := by
  obtain ⟨after, -, ⟨finished, -⟩ | ⟨data, rest, transitEq, notified, -⟩⟩ :=
    flows.carries.turn (flows.whole.safeRead wholeRead) taskNum
  · exact Or.inl ⟨after, finished⟩
  · cases tasks with
    | nil => contradiction
    | cons entry tasks =>
        obtain ⟨rfl, -⟩ := List.cons.inj transitEq
        exact Or.inr ⟨after, entry.1, entry.2, tasks, rfl, notified⟩

end Flows

/-! ## Steps -/

namespace InOrder

variable {state : State} {flight : Flight} (inOrder : InOrder state flight)
include inOrder

/-- The task that comes out of the return pipe is allocated. -/
theorem returnTurn_isSome {taskNum available : Nat} (replying : state.listener = .replying taskNum)
    (wholeRead : 8 ∣ available) (realloc : Option Contents) (room : Nat) :
    (Server.returnTurn state available realloc room).isSome := by
  unfold Server.returnTurn
  rw [replying]
  rcases inOrder.returning.turn_cases wholeRead taskNum with
    ⟨after, finished⟩ | ⟨after, data, origin, rest, returnedEq, notified⟩
  · simp [finished]
  · have answered := inOrder.answered
    rw [returnedEq] at answered
    simp only [notified, Option.bind_some]
    exact Option.isSome_iff_exists.mpr ⟨_, replyNotify_answered answered.1⟩

/-- The task that the worker thread holds is allocated. -/
theorem work_isSome {taskNum : Nat} {data : Pointer} {realloc : Option Contents} {room : Nat}
    (holding : state.worker = .holding taskNum data)
    (counted : state.returnPipe.mWriter.mDataSizeEnd + 8 < 2 ^ 31) :
    (Server.work state realloc room).isSome := by
  have held := inOrder.busy
  rw [holding] at held
  obtain ⟨⟨address, origin⟩, busyEq, rfl⟩ := List.map_eq_singleton_iff.mp held
  have unanswered := inOrder.unanswered
  rw [busyEq] at unanswered
  have notNull : address ≠ 0 := by
    apply inOrder.not_null address
    rw [holding]
    exact List.mem_singleton_self address
  have pushed := inOrder.returning.push_isSome notNull counted realloc room
  unfold Server.work
  rw [holding]
  simp only [unanswered.1, Option.bind_some]
  rw [replyNotify_worked (Function.update_self _ _ _), Option.isSome_map]
  exact pushed

theorem proceeds (serviceable : Serviceable state) : Proceeds state := by
  intro label enabled reliable unsaturated
  cases label with
  | accept fd =>
      have idle : state.listener = .idle := enabled
      simp [Server.step, accept, idle]
  | connectionInput connection read =>
      obtain ⟨idle, live, present⟩ := And.imp_right Option.isSome_iff_exists.mp enabled
      have readable : ∀ chunk, read = .data chunk → CTcpConnection.Readable chunk := by
        rintro chunk rfl
        exact reliable.2
      rcases (serviceable.serving connection live present).inputNotify readable with
        notified | ⟨after, packets, notified, -⟩ <;>
        simp [Server.step, Server.connectionInput, idle, present, notified]
  | dispatch address realloc room =>
      obtain ⟨⟨connection, packets, busy⟩, notNull, free⟩ := enabled
      have pushed := inOrder.incoming.push_isSome notNull unsaturated realloc room
      cases packets with
      | nil => exact absurd busy (serviceable.dispatching connection)
      | cons packet packets =>
          simp [Server.step, Server.dispatch, busy, notNull, free, pushed]
  | connectionOutput connection writev =>
      obtain ⟨idle, live, present⟩ := And.imp_right Option.isSome_iff_exists.mp enabled
      rcases (serviceable.serving connection live present).outputNotify writev with
        notified | ⟨after, written, notified, -⟩ <;>
        simp [Server.step, Server.connectionOutput, idle, present, notified]
  | hangup connection =>
      obtain ⟨idle, live, present⟩ := And.imp_right Option.isSome_iff_exists.mp enabled
      simp [Server.step, hangup, idle, present]
  | incomingOutput room =>
      have idle : state.listener = .idle := enabled
      have notified := inOrder.incoming.outputNotify_isSome room
      simp [Server.step, incomingOutput, idle, notified]
  | returnInput =>
      have idle : state.listener = .idle := enabled
      simp [Server.step, returnInput, idle]
  | returnTurn available realloc room =>
      obtain ⟨taskNum, replying⟩ := enabled
      exact inOrder.returnTurn_isSome replying reliable.2 realloc room
  | incomingInput =>
      have idle : state.worker = .idle := enabled
      simp [Server.step, incomingInput, idle]
  | incomingTurn available =>
      obtain ⟨taskNum, working⟩ := enabled
      rcases inOrder.incoming.turn_cases reliable.2 taskNum with
        ⟨after, turnEq⟩ | ⟨after, data, origin, rest, -, turnEq⟩ <;>
        simp [Server.step, Server.incomingTurn, working, turnEq]
  | work realloc room =>
      obtain ⟨taskNum, data, holding⟩ := enabled
      exact inOrder.work_isSome holding unsaturated
  | returnOutput room =>
      have idle : state.worker = .idle := enabled
      have notified := inOrder.returning.outputNotify_isSome room
      simp [Server.step, returnOutput, idle, notified]

end InOrder

end NginxFastcgi.Service.Server
