import NginxFastcgi.Foundation.PartialMap
import NginxFastcgi.Foundation.Transition
import NginxFastcgi.Service.PipeQueue
import NginxFastcgi.Service.Task
import NginxFastcgi.Service.TcpConnection

/-!
# The server: two threads and two task pipes

The listener thread owns the connections.  For every decoded request it makes
a task and pushes it into the incoming pipe of the `CTaskPipe`.  The worker
thread takes tasks off that pipe, sets the response and pushes them into the
return pipe, from which the listener thread takes them to send the response
and delete the task.

A step is what one thread does between two points where the other may act: a
callback, or the part of one that touches a kernel pipe once.  Connection
objects have identities that are never used again, while the address of a
deleted task may be.  The undefined result of a step is the use of a task that
is not allocated, or an operation of a pipe queue that is undefined.

The state also keeps a history: the requests decoded, the tasks created, the
responses sent and the tasks deleted.
-/

namespace NginxFastcgi.Service.Server

open Foundation.Transition
open NginxFastcgi.Network

/-- A request with the connection it was decoded on. -/
structure Origin where
  connection : ConnectionId
  request : CRequestPacket
  deriving DecidableEq

/-- An allocated task.  `serial` counts the tasks created before it. -/
structure Job where
  task : CTask
  serial : Nat

/-- A call of `SendPacket`; `live` says whether the connection object existed. -/
structure Send where
  connection : ConnectionId
  live : Bool
  packet : CResponsePacket
  serial : Nat
  deriving DecidableEq

/-- What the listener thread is in the middle of. -/
inductive Listener
  | idle
  /-- The loop over `OnPacket`, with the packets it has still to visit. -/
  | dispatching (connection : ConnectionId) (packets : List CRequestPacket)
  /-- The loop of the reader of the return pipe. -/
  | replying (taskNum : Nat)

/-- What the worker thread is in the middle of. -/
inductive Worker
  | idle
  /-- The loop of the reader of the incoming pipe. -/
  | working (taskNum : Nat)
  /-- The same loop, inside `TaskNotify(data)`. -/
  | holding (taskNum : Nat) (data : Pointer)

structure State where
  /-- The live connection objects. -/
  connections : ConnectionId → Option CConnection
  nextConnection : ConnectionId
  heap : Pointer → Option Job
  incomingPipe : CPipeQueue
  returnPipe : CPipeQueue
  listener : Listener
  worker : Worker
  decoded : List Origin
  created : List Origin
  sends : List Send
  deleted : List Nat

def kListenPool : PoolId := 0

def kWorkPool : PoolId := 1

/-- The connection that `CListener::InputNotify` accepts and attaches. -/
def acceptedConnection (fd : Int) : CConnection :=
  { CConnection.new fd with
    toCPollUnit := (CConnection.new fd).attachedTo kListenPool
    mListener := some 0 }

/-- The memory contents that the two queues start with. -/
structure Memory where
  incomingReader : Contents
  incomingWriter : Contents
  returnReader : Contents
  returnWriter : Contents

/-- The server after `BindDispatcher`, with no connection yet. -/
def initial (memory : Memory) : State where
  connections := fun _ => none
  nextConnection := 0
  heap := fun _ => none
  incomingPipe :=
    CPipeQueue.attachPool memory.incomingReader memory.incomingWriter kListenPool kWorkPool 4 5
  returnPipe :=
    CPipeQueue.attachPool memory.returnReader memory.returnWriter kWorkPool kListenPool 6 7
  listener := .idle
  worker := .idle
  decoded := []
  created := []
  sends := []
  deleted := []

/-! ## Tasks -/

/-- The ten bytes of `{"code":1}`. -/
def kWorkResponse : List UInt8 :=
  [0x7B, 0x22, 0x63, 0x6F, 0x64, 0x65, 0x22, 0x3A, 0x31, 0x7D]

/-- The task that `OnPacket` makes and `CTaskPipe::TaskNotify` passes on. -/
def onPacketTask (origin : Origin) : CTask :=
  (((({} : CTask).setConnection origin.connection).pushReplyDispatcher
    .clientReply).setRequestPacket origin.request).pushReplyDispatcher .taskPipe

/-- `CClientReply::ReplyNotify`. -/
def clientReplyNotify (state : State) (data : Pointer) (job : Job) : State :=
  let state :=
    match job.task.getConnection with
    | none => state
    | some connection =>
        let packet := job.task.getResponsePacket
        { state with
          connections := Function.update state.connections connection
            ((state.connections connection).map fun (live : CConnection) =>
              (live.sendPacket packet).1)
          sends := state.sends ++
            [Send.mk connection (state.connections connection).isSome packet job.serial] }
  { state with
    heap := Function.update state.heap data none
    deleted := state.deleted ++ [job.serial] }

/-- `CTaskReplyList::ReplyNotify` on the task at `data`: the dispatcher at the
front replies, which is the client, or the task pipe with a `Push`. -/
def replyNotify (state : State) (data : Pointer) (realloc : Option Contents) (room : Nat) :
    Option State :=
  (state.heap data).bind fun job =>
    let popped := job.task.replyList.popFront
    let job := { job with task := { job.task with replyList := popped.2 } }
    let state := { state with heap := Function.update state.heap data (some job) }
    match popped.1 with
    | none => some state
    | some .clientReply => some (clientReplyNotify state data job)
    | some .taskPipe =>
        (state.returnPipe.push data realloc room).map fun pushed =>
          { state with returnPipe := pushed.1 }

/-! ## The listener thread -/

/-- The loop over `OnPacket` ends with the last packet. -/
def dispatchRest (connection : ConnectionId) : List CRequestPacket → Listener
  | [] => .idle
  | packets => .dispatching connection packets

/-- `CListener::InputNotify` with a new descriptor. -/
def accept (state : State) (fd : Int) : Option State :=
  match state.listener with
  | .idle =>
      some
        { state with
          connections :=
            Function.update state.connections state.nextConnection (some (acceptedConnection fd))
          nextConnection := state.nextConnection + 1 }
  | _ => none

/-- `CConnection::InputNotify` up to the loop over `OnPacket`. -/
def connectionInput (state : State) (connection : ConnectionId) (read : ReadResult) :
    Option State :=
  match state.listener, state.connections connection with
  | .idle, some live =>
      (live.inputNotify CTcpConnection.decode read).map fun
        | .destroyed =>
            { state with connections := Function.update state.connections connection none }
        | .alive after packets =>
            { state with
              connections := Function.update state.connections connection (some after)
              listener := dispatchRest connection packets
              decoded := state.decoded ++ packets.map (Origin.mk connection) }
  | _, _ => none

/-- `OnPacket` for the next packet; `new` returns the address. -/
def dispatch (state : State) (address : Pointer) (realloc : Option Contents) (room : Nat) :
    Option State :=
  match state.listener with
  | .dispatching connection (packet :: packets) =>
      if address = 0 ∨ (state.heap address).isSome then
        none
      else
        let origin := Origin.mk connection packet
        (state.incomingPipe.push address realloc room).map fun pushed =>
          { state with
            heap := Function.update state.heap address
              (some ⟨onPacketTask origin, state.created.length⟩)
            incomingPipe := pushed.1
            listener := dispatchRest connection packets
            created := state.created ++ [origin] }
  | _ => none

/-- `CConnection::OutputNotify`. -/
def connectionOutput (state : State) (connection : ConnectionId) (writev : WritevResult) :
    Option State :=
  match state.listener, state.connections connection with
  | .idle, some live =>
      (live.outputNotify writev).map fun
        | .destroyed =>
            { state with connections := Function.update state.connections connection none }
        | .alive after _ =>
            { state with connections := Function.update state.connections connection (some after) }
  | _, _ => none

/-- `HangupNotify` and `RDHupNotify` of a connection. -/
def hangup (state : State) (connection : ConnectionId) : Option State :=
  match state.listener, state.connections connection with
  | .idle, some _ =>
      some { state with connections := Function.update state.connections connection none }
  | _, _ => none

/-- `OutputNotify` of the incoming pipe. -/
def incomingOutput (state : State) (room : Nat) : Option State :=
  match state.listener with
  | .idle =>
      (state.incomingPipe.outputNotify room).map fun queue =>
        { state with incomingPipe := queue }
  | _ => none

/-- The start of `InputNotify` of the return pipe. -/
def returnInput (state : State) : Option State :=
  match state.listener with
  | .idle => some { state with listener := .replying 0 }
  | _ => none

/-- One turn of its loop. -/
def returnTurn (state : State) (available : Nat) (realloc : Option Contents) (room : Nat) :
    Option State :=
  match state.listener with
  | .replying taskNum =>
      (state.returnPipe.turn taskNum available).bind fun
        | .finished queue => some { state with returnPipe := queue, listener := .idle }
        | .notified queue taskNum data =>
            replyNotify { state with returnPipe := queue, listener := .replying taskNum } data
              realloc room
  | _ => none

/-! ## The worker thread -/

/-- The start of `InputNotify` of the incoming pipe. -/
def incomingInput (state : State) : Option State :=
  match state.worker with
  | .idle => some { state with worker := .working 0 }
  | _ => none

/-- One turn of its loop, up to `TaskNotify`. -/
def incomingTurn (state : State) (available : Nat) : Option State :=
  match state.worker with
  | .working taskNum =>
      (state.incomingPipe.turn taskNum available).map fun
        | .finished queue => { state with incomingPipe := queue, worker := .idle }
        | .notified queue taskNum data =>
            { state with incomingPipe := queue, worker := .holding taskNum data }
  | _ => none

/-- `CWorkProcess::TaskNotify`, which sets the response and replies. -/
def work (state : State) (realloc : Option Contents) (room : Nat) : Option State :=
  match state.worker with
  | .holding taskNum data =>
      (state.heap data).bind fun job =>
        let task := job.task.setResponseBody kWorkResponse (UInt32.ofNat kWorkResponse.length)
        replyNotify
          { state with
            heap := Function.update state.heap data (some { job with task := task })
            worker := .working taskNum }
          data realloc room
  | _ => none

/-- `OutputNotify` of the return pipe. -/
def returnOutput (state : State) (room : Nat) : Option State :=
  match state.worker with
  | .idle =>
      (state.returnPipe.outputNotify room).map fun queue => { state with returnPipe := queue }
  | _ => none

/-! ## Steps -/

inductive Label
  | accept (fd : Int)
  | connectionInput (connection : ConnectionId) (read : ReadResult)
  | dispatch (address : Pointer) (realloc : Option Contents) (room : Nat)
  | connectionOutput (connection : ConnectionId) (writev : WritevResult)
  | hangup (connection : ConnectionId)
  | incomingOutput (room : Nat)
  | returnInput
  | returnTurn (available : Nat) (realloc : Option Contents) (room : Nat)
  | incomingInput
  | incomingTurn (available : Nat)
  | work (realloc : Option Contents) (room : Nat)
  | returnOutput (room : Nat)

def step : Step State Label
  | state, .accept fd => accept state fd
  | state, .connectionInput connection read => connectionInput state connection read
  | state, .dispatch address realloc room => dispatch state address realloc room
  | state, .connectionOutput connection writev => connectionOutput state connection writev
  | state, .hangup connection => hangup state connection
  | state, .incomingOutput room => incomingOutput state room
  | state, .returnInput => returnInput state
  | state, .returnTurn available realloc room => returnTurn state available realloc room
  | state, .incomingInput => incomingInput state
  | state, .incomingTurn available => incomingTurn state available
  | state, .work realloc room => work state realloc room
  | state, .returnOutput room => returnOutput state room

/-! ## What a step can do -/

section Inversion

variable {state after : State}

theorem accept_eq_some {fd : Int} (stepEq : accept state fd = some after) :
    state.listener = .idle ∧
      after =
        { state with
          connections :=
            Function.update state.connections state.nextConnection (some (acceptedConnection fd))
          nextConnection := state.nextConnection + 1 } := by
  unfold accept at stepEq
  split at stepEq
  · rename_i idle
    cases stepEq
    exact ⟨idle, rfl⟩
  · contradiction

theorem connectionInput_eq_some {connection : ConnectionId} {read : ReadResult}
    (stepEq : connectionInput state connection read = some after) :
    state.listener = .idle ∧ ∃ live, state.connections connection = some live ∧
      (live.inputNotify CTcpConnection.decode read = some .destroyed ∧
          after =
            { state with connections := Function.update state.connections connection none } ∨
        ∃ next packets,
          live.inputNotify CTcpConnection.decode read = some (.alive next packets) ∧
            after =
              { state with
                connections := Function.update state.connections connection (some next)
                listener := dispatchRest connection packets
                decoded := state.decoded ++ packets.map (Origin.mk connection) }) := by
  unfold connectionInput at stepEq
  split at stepEq
  · rename_i live idle present
    refine ⟨idle, live, present, ?_⟩
    obtain ⟨outcome, notified, result⟩ := Option.map_eq_some_iff.mp stepEq
    cases outcome with
    | destroyed => exact Or.inl ⟨notified, result.symm⟩
    | alive next packets => exact Or.inr ⟨next, packets, notified, result.symm⟩
  · contradiction

theorem dispatch_eq_some {address : Pointer} {realloc : Option Contents} {room : Nat}
    (stepEq : dispatch state address realloc room = some after) :
    ∃ connection packet packets pushed,
      state.listener = .dispatching connection (packet :: packets) ∧ address ≠ 0 ∧
        state.heap address = none ∧
        state.incomingPipe.push address realloc room = some pushed ∧
        after =
          { state with
            heap := Function.update state.heap address
              (some ⟨onPacketTask ⟨connection, packet⟩, state.created.length⟩)
            incomingPipe := pushed.1
            listener := dispatchRest connection packets
            created := state.created ++ [⟨connection, packet⟩] } := by
  unfold dispatch at stepEq
  split at stepEq
  · rename_i connection packet packets busy
    split at stepEq
    · contradiction
    · rename_i fresh
      rw [not_or] at fresh
      obtain ⟨pushed, pushedEq, result⟩ := Option.map_eq_some_iff.mp stepEq
      exact ⟨connection, packet, packets, pushed, busy, fresh.1,
        Option.not_isSome_iff_eq_none.mp fresh.2, pushedEq, result.symm⟩
  · contradiction

theorem connectionOutput_eq_some {connection : ConnectionId} {writev : WritevResult}
    (stepEq : connectionOutput state connection writev = some after) :
    state.listener = .idle ∧ ∃ live, state.connections connection = some live ∧
      (live.outputNotify writev = some .destroyed ∧
          after =
            { state with connections := Function.update state.connections connection none } ∨
        ∃ next written, live.outputNotify writev = some (.alive next written) ∧
          after =
            { state with
              connections := Function.update state.connections connection (some next) }) := by
  unfold connectionOutput at stepEq
  split at stepEq
  · rename_i live idle present
    refine ⟨idle, live, present, ?_⟩
    obtain ⟨outcome, notified, result⟩ := Option.map_eq_some_iff.mp stepEq
    cases outcome with
    | destroyed => exact Or.inl ⟨notified, result.symm⟩
    | alive next written => exact Or.inr ⟨next, written, notified, result.symm⟩
  · contradiction

theorem hangup_eq_some {connection : ConnectionId}
    (stepEq : hangup state connection = some after) :
    state.listener = .idle ∧
      after = { state with connections := Function.update state.connections connection none } := by
  unfold hangup at stepEq
  split at stepEq
  · rename_i idle _
    cases stepEq
    exact ⟨idle, rfl⟩
  · contradiction

theorem incomingOutput_eq_some {room : Nat} (stepEq : incomingOutput state room = some after) :
    state.listener = .idle ∧ ∃ queue, state.incomingPipe.outputNotify room = some queue ∧
      after = { state with incomingPipe := queue } := by
  unfold incomingOutput at stepEq
  split at stepEq
  · rename_i idle
    obtain ⟨queue, notified, result⟩ := Option.map_eq_some_iff.mp stepEq
    exact ⟨idle, queue, notified, result.symm⟩
  · contradiction

theorem returnInput_eq_some (stepEq : returnInput state = some after) :
    state.listener = .idle ∧ after = { state with listener := .replying 0 } := by
  unfold returnInput at stepEq
  split at stepEq
  · rename_i idle
    cases stepEq
    exact ⟨idle, rfl⟩
  · contradiction

theorem returnTurn_eq_some {available : Nat} {realloc : Option Contents} {room : Nat}
    (stepEq : returnTurn state available realloc room = some after) :
    ∃ taskNum, state.listener = .replying taskNum ∧
      ((∃ queue, state.returnPipe.turn taskNum available = some (.finished queue) ∧
          after = { state with returnPipe := queue, listener := .idle }) ∨
        ∃ queue next data,
          state.returnPipe.turn taskNum available = some (.notified queue next data) ∧
            replyNotify { state with returnPipe := queue, listener := .replying next } data
              realloc room = some after) := by
  unfold returnTurn at stepEq
  split at stepEq
  · rename_i taskNum busy
    refine ⟨taskNum, busy, ?_⟩
    obtain ⟨turn, turnEq, result⟩ := Option.bind_eq_some_iff.mp stepEq
    cases turn with
    | finished queue => exact Or.inl ⟨queue, turnEq, (Option.some.inj result).symm⟩
    | notified queue next data => exact Or.inr ⟨queue, next, data, turnEq, result⟩
  · contradiction

theorem incomingInput_eq_some (stepEq : incomingInput state = some after) :
    state.worker = .idle ∧ after = { state with worker := .working 0 } := by
  unfold incomingInput at stepEq
  split at stepEq
  · rename_i idle
    cases stepEq
    exact ⟨idle, rfl⟩
  · contradiction

theorem incomingTurn_eq_some {available : Nat}
    (stepEq : incomingTurn state available = some after) :
    ∃ taskNum, state.worker = .working taskNum ∧
      ((∃ queue, state.incomingPipe.turn taskNum available = some (.finished queue) ∧
          after = { state with incomingPipe := queue, worker := .idle }) ∨
        ∃ queue next data,
          state.incomingPipe.turn taskNum available = some (.notified queue next data) ∧
            after = { state with incomingPipe := queue, worker := .holding next data }) := by
  unfold incomingTurn at stepEq
  split at stepEq
  · rename_i taskNum busy
    refine ⟨taskNum, busy, ?_⟩
    obtain ⟨turn, turnEq, result⟩ := Option.map_eq_some_iff.mp stepEq
    cases turn with
    | finished queue => exact Or.inl ⟨queue, turnEq, result.symm⟩
    | notified queue next data => exact Or.inr ⟨queue, next, data, turnEq, result.symm⟩
  · contradiction

theorem work_eq_some {realloc : Option Contents} {room : Nat}
    (stepEq : work state realloc room = some after) :
    ∃ taskNum data job, state.worker = .holding taskNum data ∧ state.heap data = some job ∧
      replyNotify
        { state with
          heap := Function.update state.heap data (some { job with
            task := job.task.setResponseBody kWorkResponse
              (UInt32.ofNat kWorkResponse.length) })
          worker := .working taskNum }
        data realloc room = some after := by
  unfold work at stepEq
  split at stepEq
  · rename_i taskNum data busy
    obtain ⟨job, allocated, result⟩ := Option.bind_eq_some_iff.mp stepEq
    exact ⟨taskNum, data, job, busy, allocated, result⟩
  · contradiction

theorem returnOutput_eq_some {room : Nat} (stepEq : returnOutput state room = some after) :
    ∃ queue, state.returnPipe.outputNotify room = some queue ∧
      after = { state with returnPipe := queue } := by
  unfold returnOutput at stepEq
  split at stepEq
  · obtain ⟨queue, notified, result⟩ := Option.map_eq_some_iff.mp stepEq
    exact ⟨queue, notified, result.symm⟩
  · contradiction

end Inversion

end NginxFastcgi.Service.Server
