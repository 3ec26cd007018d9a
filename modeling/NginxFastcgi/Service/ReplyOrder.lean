import Mathlib.Data.List.Nodup
import NginxFastcgi.Service.Delivery
import NginxFastcgi.Service.LiveReply
import NginxFastcgi.Service.PipeCoverage

/-!
# Responses in request order

The tasks on their way form one sequence: those in the return pipe, the one the
worker thread holds, and those in the incoming pipe.  Together with the
responses sent, in front, and the requests not dispatched yet, behind, the
sequence is the requests in the order in which they were decoded.
-/

namespace NginxFastcgi.Service.Server

open Foundation.PartialMap
open Foundation.Transition
open NginxFastcgi.Network

/-! ## Order in one state -/

/-- The requests decoded on a connection, by their place among all decoded
requests, with their commands. -/
def requestsOn (state : State) (connection : ConnectionId) : List (Nat × UInt16) :=
  (state.decoded.zipIdx.filter fun entry => entry.1.connection = connection).map
    fun entry => (entry.2, entry.1.request.mHeader.cmd)

/-- The responses sent on a connection, by the serials of their tasks, with
their commands. -/
def responsesOn (state : State) (connection : ConnectionId) : List (Nat × UInt16) :=
  (state.sends.filter fun send => send.connection = connection).map
    fun send => (send.serial, send.packet.mHeader.cmd)

/-- The tasks are made for the requests in order, the responses on each
connection answer its requests one by one from the first on, each on the
connection its request came from, and no task is deleted twice. -/
structure Matched (state : State) : Prop where
  created_in_order : state.created <+: state.decoded
  in_order : ∀ connection, responsesOn state connection <+: requestsOn state connection
  same_connection : ∀ send ∈ state.sends,
    ∃ request, state.created[send.serial]? = some ⟨send.connection, request⟩
  deleted_once : state.deleted.Nodup

/-- Connections stay open, allocation succeeds, a read of a connection brings
what its buffer can take, and the kernel pipes transfer whole pointers. -/
def Reliable (state : State) (label : Label) : Prop :=
  StaysOpen state label ∧
    match label with
    | .connectionInput _ (.data chunk) => CTcpConnection.Readable chunk
    | .dispatch _ realloc room => realloc.isSome ∧ CPipeQueue.WholeRoom room
    | .incomingOutput room => CPipeQueue.WholeRoom room
    | .returnTurn available _ _ => 8 ∣ available
    | .incomingTurn available => 8 ∣ available
    | .work realloc room => realloc.isSome ∧ CPipeQueue.WholeRoom room
    | .returnOutput room => CPipeQueue.WholeRoom room
    | _ => True

/-- No push finds so many pointers pending that the end of its buffer becomes
`2 ^ 31`. -/
def Unsaturated (state : State) : Label → Prop
  | .dispatch _ _ _ => state.incomingPipe.mWriter.mDataSizeEnd + 8 < 2 ^ 31
  | .work _ _ => state.returnPipe.mWriter.mDataSizeEnd + 8 < 2 ^ 31
  | _ => True

/-! ## Tasks on their way -/

/-- A task after the worker thread has answered it. -/
def answeredTask (origin : Origin) : CTask :=
  { (onPacketTask origin).setResponseBody kWorkResponse
      (UInt32.ofNat kWorkResponse.length) with
    replyList := [.clientReply] }

/-- The tasks at these addresses are at one stage and were created one after
the other, the first with the given serial. -/
def Queued (heap : Pointer → Option Job) (stage : Origin → CTask) :
    Nat → List (Pointer × Origin) → Prop
  | _, [] => True
  | serial, (data, origin) :: rest =>
      heap data = some ⟨stage origin, serial⟩ ∧ Queued heap stage (serial + 1) rest

theorem queued_append {heap : Pointer → Option Job} {stage : Origin → CTask} {serial : Nat}
    {first second : List (Pointer × Origin)} :
    Queued heap stage serial (first ++ second) ↔
      Queued heap stage serial first ∧ Queued heap stage (serial + first.length) second := by
  induction first generalizing serial with
  | nil => simp [Queued]
  | cons entry rest inductionHypothesis =>
      have shift : serial + 1 + rest.length = serial + (rest.length + 1) := by omega
      simp only [List.cons_append, Queued, inductionHypothesis, List.length_cons, shift, and_assoc]

/-- Tasks elsewhere do not matter. -/
theorem Queued.update {heap : Pointer → Option Job} {stage : Origin → CTask} {serial : Nat}
    {flight : List (Pointer × Origin)} (queued : Queued heap stage serial flight)
    {data : Pointer} (elsewhere : data ∉ flight.map Prod.fst) (job : Option Job) :
    Queued (Function.update heap data job) stage serial flight := by
  induction flight generalizing serial with
  | nil => trivial
  | cons entry rest inductionHypothesis =>
      obtain ⟨head, tail⟩ := queued
      rw [List.map_cons, List.mem_cons, not_or] at elsewhere
      refine ⟨?_, inductionHypothesis tail elsewhere.2⟩
      rw [Function.update_of_ne (Ne.symm elsewhere.1)]
      exact head

theorem Queued.allocated {heap : Pointer → Option Job} {stage : Origin → CTask} {serial : Nat}
    {flight : List (Pointer × Origin)} (queued : Queued heap stage serial flight)
    {data : Pointer} (member : data ∈ flight.map Prod.fst) : heap data ≠ none := by
  induction flight generalizing serial with
  | nil => contradiction
  | cons entry rest inductionHypothesis =>
      obtain ⟨head, tail⟩ := queued
      rcases List.mem_cons.mp member with rfl | member
      · rw [head]
        exact Option.some_ne_none _
      · exact inductionHypothesis tail member

/-- The requests answered, and the tasks in the return pipe, with the worker
thread and in the incoming pipe. -/
structure Flight where
  sent : List Origin
  returned : List (Pointer × Origin)
  busy : List (Pointer × Origin)
  waiting : List (Pointer × Origin)

namespace Flight

def all (flight : Flight) : List (Pointer × Origin) :=
  flight.returned ++ (flight.busy ++ flight.waiting)

end Flight

/-- The address the worker thread holds. -/
def Worker.held : Worker → List Pointer
  | .holding _ data => [data]
  | _ => []

/-- The decoded requests that have no task yet. -/
def Listener.undispatched : Listener → List Origin
  | .dispatching connection packets => packets.map (Origin.mk connection)
  | _ => []

@[simp]
theorem undispatched_dispatchRest (connection : ConnectionId) (packets : List CRequestPacket) :
    (dispatchRest connection packets).undispatched = packets.map (Origin.mk connection) := by
  cases packets <;> rfl

/-- A queue that carries these tasks and transfers whole pointers. -/
structure Flows (queue : CPipeQueue) (tasks : List (Pointer × Origin)) : Prop where
  carries : queue.Carries (tasks.map Prod.fst)
  whole : queue.Whole

namespace Flows

variable {queue after : CPipeQueue} {tasks : List (Pointer × Origin)} (flows : Flows queue tasks)
include flows

theorem push {address : Pointer} (notNull : address ≠ 0) (origin : Origin)
    (counted : queue.mWriter.mDataSizeEnd + 8 < 2 ^ 31) {realloc : Option Contents} {room : Nat}
    (memory : realloc.isSome) (wholeRoom : CPipeQueue.WholeRoom room) {result : Int}
    (pushed : queue.push address realloc room = some (after, result)) :
    Flows after (tasks ++ [(address, origin)]) := by
  have safe := flows.whole.safePush flows.carries.writer_valid counted realloc room
  have whole := flows.whole.push flows.carries.writer_valid counted wholeRoom pushed
  rcases flows.carries.push notNull safe with ⟨-, noMemory⟩ | ⟨other, written, otherEq, carries, -⟩
  · rw [noMemory] at memory
    contradiction
  · rw [otherEq] at pushed
    cases pushed
    refine ⟨?_, whole⟩
    rw [List.map_append]
    exact carries

theorem outputNotify {room : Nat} (wholeRoom : CPipeQueue.WholeRoom room)
    (notified : queue.outputNotify room = some after) : Flows after tasks := by
  have whole := flows.whole.outputNotify flows.carries.writer_valid wholeRoom notified
  obtain ⟨other, written, otherEq, carries, -⟩ :=
    flows.carries.outputNotify (flows.whole.safeWrite room)
  rw [otherEq] at notified
  cases notified
  exact ⟨carries, whole⟩

theorem turn_finished {taskNum available : Nat} (wholeRead : 8 ∣ available)
    (finished : queue.turn taskNum available = some (.finished after)) : Flows after tasks := by
  rcases flows.whole.turn flows.carries wholeRead finished with
    ⟨other, otherEq, whole, carries⟩ | ⟨other, data, rest, otherEq, -⟩
  · cases otherEq
    exact ⟨carries, whole⟩
  · cases otherEq

theorem turn_notified {taskNum available next : Nat} {data : Pointer} (wholeRead : 8 ∣ available)
    (notified : queue.turn taskNum available = some (.notified after next data)) :
    ∃ origin rest, tasks = (data, origin) :: rest ∧ Flows after rest := by
  rcases flows.whole.turn flows.carries wholeRead notified with
    ⟨other, otherEq, -⟩ | ⟨other, first, rest, otherEq, transitEq, whole, carries⟩
  · cases otherEq
  · cases otherEq
    cases tasks with
    | nil => contradiction
    | cons entry tasks =>
        obtain ⟨rfl, rfl⟩ := List.cons.inj transitEq
        exact ⟨entry.2, tasks, rfl, carries, whole⟩

end Flows

/-- The sequence of requests is accounted for. -/
structure InOrder (state : State) (flight : Flight) : Prop where
  decoded : state.decoded = state.created ++ state.listener.undispatched
  created : state.created = flight.sent ++ flight.all.map Prod.snd
  sends : state.sends.map (fun send => (send.connection, send.packet, send.serial)) =
    flight.sent.zipIdx.map fun entry =>
      (entry.1.connection, (answeredTask entry.1).getResponsePacket, entry.2)
  deleted : state.deleted = List.range flight.sent.length
  nodup : (flight.all.map Prod.fst).Nodup
  answered : Queued state.heap answeredTask flight.sent.length flight.returned
  unanswered : Queued state.heap onPacketTask (flight.sent.length + flight.returned.length)
    (flight.busy ++ flight.waiting)
  busy : flight.busy.map Prod.fst = state.worker.held
  not_null : ∀ data ∈ state.worker.held, data ≠ 0
  incoming : Flows state.incomingPipe flight.waiting
  returning : Flows state.returnPipe flight.returned

def Accounted (state : State) : Prop :=
  ∃ flight, InOrder state flight

theorem inOrder_initial (memory : Memory) : InOrder (initial memory) ⟨[], [], [], []⟩ where
  decoded := rfl
  created := rfl
  sends := rfl
  deleted := rfl
  nodup := List.nodup_nil
  answered := trivial
  unanswered := trivial
  busy := rfl
  not_null := fun _ member => absurd member List.not_mem_nil
  incoming := ⟨CPipeQueue.Carries.attachPool _ _ _ _ _ _,
    ⟨rfl, Nat.dvd_zero 8, Nat.dvd_zero 8, Nat.dvd_zero 8⟩⟩
  returning := ⟨CPipeQueue.Carries.attachPool _ _ _ _ _ _,
    ⟨rfl, Nat.dvd_zero 8, Nat.dvd_zero 8, Nat.dvd_zero 8⟩⟩

/-! ## The two replies -/

section Reply

variable {state : State} {data : Pointer} {origin : Origin} {serial : Nat}
  {realloc : Option Contents} {room : Nat}

/-- An answered task is sent and deleted. -/
theorem replyNotify_answered
    (allocated : state.heap data = some ⟨answeredTask origin, serial⟩) :
    replyNotify state data realloc room = some
      { state with
        connections := Function.update state.connections origin.connection
          ((state.connections origin.connection).map fun (live : CConnection) =>
            (live.sendPacket (answeredTask origin).getResponsePacket).1)
        heap := Function.update state.heap data none
        sends := state.sends ++
          [⟨origin.connection, (state.connections origin.connection).isSome,
            (answeredTask origin).getResponsePacket, serial⟩]
        deleted := state.deleted ++ [serial] } := by
  let popped : Option Job := some ⟨{ answeredTask origin with replyList := [] }, serial⟩
  have released : Function.update (Function.update state.heap data popped) data none =
      Function.update state.heap data none :=
    Function.update_idem _ _ _
  rw [replyNotify, allocated, Option.bind_some, ← released]
  rfl

/-- A task that the worker thread has just answered goes into the return
pipe. -/
theorem replyNotify_worked
    (allocated : state.heap data = some
      ⟨(onPacketTask origin).setResponseBody kWorkResponse
        (UInt32.ofNat kWorkResponse.length), serial⟩) :
    replyNotify state data realloc room =
      (state.returnPipe.push data realloc room).map fun pushed =>
        { state with
          heap := Function.update state.heap data (some ⟨answeredTask origin, serial⟩)
          returnPipe := pushed.1 } := by
  rw [replyNotify, allocated, Option.bind_some]
  rfl

end Reply

/-! ## What a step preserves -/

namespace InOrder

variable {state after : State} {flight : Flight} (inOrder : InOrder state flight)
include inOrder

/-- Connections play no part. -/
theorem withConnections (connections : ConnectionId → Option CConnection)
    (nextConnection : ConnectionId) :
    InOrder { state with connections := connections, nextConnection := nextConnection } flight :=
  ⟨inOrder.decoded, inOrder.created, inOrder.sends, inOrder.deleted, inOrder.nodup,
    inOrder.answered, inOrder.unanswered, inOrder.busy, inOrder.not_null, inOrder.incoming,
    inOrder.returning⟩

/-- The listener thread goes on with as many requests left to dispatch. -/
theorem withListener {listener : Listener}
    (same : listener.undispatched = state.listener.undispatched) :
    InOrder { state with listener := listener } flight := by
  refine ⟨?_, inOrder.created, inOrder.sends, inOrder.deleted, inOrder.nodup,
    inOrder.answered, inOrder.unanswered, inOrder.busy, inOrder.not_null, inOrder.incoming,
    inOrder.returning⟩
  change state.decoded = state.created ++ listener.undispatched
  rw [same]
  exact inOrder.decoded

theorem withWorker {worker : Worker} (same : worker.held = state.worker.held) :
    InOrder { state with worker := worker } flight :=
  ⟨inOrder.decoded, inOrder.created, inOrder.sends, inOrder.deleted, inOrder.nodup,
    inOrder.answered, inOrder.unanswered, inOrder.busy.trans same.symm,
    fun data member => inOrder.not_null data (same ▸ member), inOrder.incoming,
    inOrder.returning⟩

theorem withIncoming {queue : CPipeQueue} (flows : Flows queue flight.waiting) :
    InOrder { state with incomingPipe := queue } flight :=
  ⟨inOrder.decoded, inOrder.created, inOrder.sends, inOrder.deleted, inOrder.nodup,
    inOrder.answered, inOrder.unanswered, inOrder.busy, inOrder.not_null, flows,
    inOrder.returning⟩

theorem withReturning {queue : CPipeQueue} (flows : Flows queue flight.returned) :
    InOrder { state with returnPipe := queue } flight :=
  ⟨inOrder.decoded, inOrder.created, inOrder.sends, inOrder.deleted, inOrder.nodup,
    inOrder.answered, inOrder.unanswered, inOrder.busy, inOrder.not_null, inOrder.incoming,
    flows⟩

/-- The address of a new task is not on its way. -/
theorem not_mem_of_free {address : Pointer} (free : state.heap address = none) :
    address ∉ flight.all.map Prod.fst := by
  intro member
  rw [Flight.all, List.map_append, List.mem_append] at member
  rcases member with member | member
  · exact inOrder.answered.allocated member free
  · exact inOrder.unanswered.allocated member free

theorem connectionInput {connection : ConnectionId} {read : ReadResult}
    (stays : StaysOpen state (.connectionInput connection read))
    (stepEq : Server.connectionInput state connection read = some after) :
    InOrder after flight := by
  obtain ⟨idle, live, present, ⟨notified, -⟩ | ⟨next, packets, -, rfl⟩⟩ :=
    connectionInput_eq_some stepEq
  · rw [StaysOpen, destroyed, present, Option.bind_some, notified] at stays
    contradiction
  · refine ⟨?_, inOrder.created, inOrder.sends, inOrder.deleted, inOrder.nodup,
      inOrder.answered, inOrder.unanswered, inOrder.busy, inOrder.not_null, inOrder.incoming,
    inOrder.returning⟩
    have decoded : state.decoded = state.created ++ [] := by
      rw [inOrder.decoded, idle]
      rfl
    rw [List.append_nil] at decoded
    change state.decoded ++ packets.map (Origin.mk connection) =
      state.created ++ (dispatchRest connection packets).undispatched
    rw [undispatched_dispatchRest, decoded]

theorem connectionOutput {connection : ConnectionId} {writev : WritevResult}
    (stays : StaysOpen state (.connectionOutput connection writev))
    (stepEq : Server.connectionOutput state connection writev = some after) :
    InOrder after flight := by
  obtain ⟨-, live, present, ⟨notified, -⟩ | ⟨next, written, -, rfl⟩⟩ :=
    connectionOutput_eq_some stepEq
  · rw [StaysOpen, destroyed, present, Option.bind_some, notified] at stays
    contradiction
  · exact inOrder.withConnections _ _

/-- A new task joins the back of the sequence. -/
theorem dispatch {address : Pointer} {realloc : Option Contents} {room : Nat}
    (counted : state.incomingPipe.mWriter.mDataSizeEnd + 8 < 2 ^ 31) (memory : realloc.isSome)
    (wholeRoom : CPipeQueue.WholeRoom room)
    (stepEq : Server.dispatch state address realloc room = some after) :
    Accounted after := by
  obtain ⟨connection, packet, packets, ⟨queue, result⟩, busy, notNull, free, pushed, rfl⟩ :=
    dispatch_eq_some stepEq
  have fresh := inOrder.not_mem_of_free free
  have freshParts := fresh
  rw [Flight.all, List.map_append, List.mem_append, not_or] at freshParts
  have decoded := inOrder.decoded
  rw [busy] at decoded
  have lengthEq : state.created.length =
      flight.sent.length + flight.returned.length + (flight.busy ++ flight.waiting).length := by
    rw [inOrder.created, Flight.all, List.length_append, List.length_map, List.length_append,
      Nat.add_assoc]
  refine ⟨{ flight with waiting := flight.waiting ++ [(address, ⟨connection, packet⟩)] },
    ?_, ?_, inOrder.sends, inOrder.deleted, ?_, ?_, ?_, inOrder.busy, inOrder.not_null, ?_,
    inOrder.returning⟩
  · change state.decoded = (state.created ++ [⟨connection, packet⟩]) ++
      (dispatchRest connection packets).undispatched
    rw [decoded, undispatched_dispatchRest, List.append_assoc]
    rfl
  · change state.created ++ [⟨connection, packet⟩] = _
    simp only [inOrder.created, Flight.all, List.map_append, List.append_assoc, List.map_cons,
      List.map_nil]
  · have extended := List.Nodup.concat fresh inOrder.nodup
    rw [List.concat_eq_append] at extended
    simpa only [Flight.all, List.map_append, List.append_assoc, List.map_cons,
      List.map_nil] using extended
  · exact inOrder.answered.update freshParts.1 _
  · rw [← List.append_assoc]
    refine queued_append.mpr ⟨inOrder.unanswered.update freshParts.2 _, ?_, trivial⟩
    change Function.update state.heap address _ address = _
    rw [Function.update_self, lengthEq]
  · exact inOrder.incoming.push notNull _ counted memory wholeRoom pushed

/-- The task at the front of the sequence is answered on the connection. -/
theorem returnTurn {available : Nat} {realloc : Option Contents} {room : Nat}
    (wholeRead : 8 ∣ available)
    (stepEq : Server.returnTurn state available realloc room = some after) :
    Accounted after := by
  obtain ⟨taskNum, replying, ⟨queue, turnEq, rfl⟩ | ⟨queue, next, data, turnEq, replied⟩⟩ :=
    returnTurn_eq_some stepEq
  · have flows := inOrder.returning.turn_finished wholeRead turnEq
    refine ⟨flight, (inOrder.withReturning flows).withListener ?_⟩
    rw [replying]
    rfl
  · obtain ⟨origin, rest, returnedEq, flows⟩ := inOrder.returning.turn_notified wholeRead turnEq
    obtain ⟨sent, returned, busy, waiting⟩ := flight
    cases returnedEq
    obtain ⟨allocated, answered⟩ := inOrder.answered
    have nodup : (data :: (rest ++ (busy ++ waiting)).map Prod.fst).Nodup := inOrder.nodup
    obtain ⟨elsewhere, nodup⟩ := List.nodup_cons.mp nodup
    rw [List.map_append, List.mem_append, not_or] at elsewhere
    cases replied.symm.trans (replyNotify_answered allocated)
    have lengthEq : (sent ++ [origin]).length = sent.length + 1 := List.length_append
    refine ⟨⟨sent ++ [origin], rest, busy, waiting⟩, ?_, ?_, ?_, ?_, nodup, ?_, ?_,
      inOrder.busy, inOrder.not_null, inOrder.incoming, flows⟩
    · have decoded := inOrder.decoded
      rw [replying] at decoded
      exact decoded
    · change state.created = _
      rw [inOrder.created, List.append_assoc]
      rfl
    · simp only [List.map_append, inOrder.sends, List.zipIdx_append]
      simp
    · change state.deleted ++ [sent.length] = _
      rw [inOrder.deleted, lengthEq, List.range_succ]
    · rw [lengthEq]
      exact answered.update elsewhere.1 none
    · rw [lengthEq]
      have unanswered := inOrder.unanswered.update elsewhere.2 none
      rw [List.length_cons, ← Nat.add_assoc, Nat.add_right_comm] at unanswered
      exact unanswered

/-- The worker thread takes the first waiting task. -/
theorem incomingTurn {available : Nat} (wholeRead : 8 ∣ available)
    (stepEq : Server.incomingTurn state available = some after) :
    Accounted after := by
  obtain ⟨taskNum, working, ⟨queue, turnEq, rfl⟩ | ⟨queue, next, data, turnEq, rfl⟩⟩ :=
    incomingTurn_eq_some stepEq
  · have flows := inOrder.incoming.turn_finished wholeRead turnEq
    refine ⟨flight, (inOrder.withIncoming flows).withWorker ?_⟩
    rw [working]
    rfl
  · obtain ⟨origin, rest, waitingEq, flows⟩ := inOrder.incoming.turn_notified wholeRead turnEq
    obtain ⟨sent, returned, busy, waiting⟩ := flight
    cases waitingEq
    have idle := inOrder.busy
    rw [working] at idle
    cases List.map_eq_nil_iff.mp idle
    refine ⟨⟨sent, returned, [(data, origin)], rest⟩, inOrder.decoded, inOrder.created,
      inOrder.sends, inOrder.deleted, inOrder.nodup, inOrder.answered, inOrder.unanswered, rfl,
      ?_, flows, inOrder.returning⟩
    intro held member
    rw [List.mem_singleton.mp member]
    exact inOrder.incoming.carries.not_null data List.mem_cons_self

/-- The task that the worker thread holds joins the back of the answered
ones. -/
theorem work {realloc : Option Contents} {room : Nat}
    (counted : state.returnPipe.mWriter.mDataSizeEnd + 8 < 2 ^ 31) (memory : realloc.isSome)
    (wholeRoom : CPipeQueue.WholeRoom room)
    (stepEq : Server.work state realloc room = some after) : Accounted after := by
  obtain ⟨taskNum, data, job, holding, allocated, replied⟩ := work_eq_some stepEq
  obtain ⟨sent, returned, busy, waiting⟩ := flight
  have held := inOrder.busy
  rw [holding] at held
  obtain ⟨⟨address, origin⟩, rfl, rfl⟩ := List.map_eq_singleton_iff.mp held
  obtain ⟨unanswered, others⟩ := inOrder.unanswered
  cases allocated.symm.trans unanswered
  have notNull : address ≠ 0 := by
    refine inOrder.not_null address ?_
    rw [holding]
    exact List.mem_singleton_self address
  have distinct := inOrder.nodup
  simp only [Flight.all, List.map_append, List.map_cons, List.map_nil] at distinct
  obtain ⟨-, behind, apart⟩ := List.nodup_append.mp distinct
  have elsewhere : address ∉ returned.map Prod.fst := fun member =>
    apart address member address (List.mem_append_left _ (List.mem_singleton_self _)) rfl
  have notWaiting : address ∉ waiting.map Prod.fst := (List.nodup_cons.mp behind).1
  obtain ⟨⟨queue, result⟩, pushed, rfl⟩ := Option.map_eq_some_iff.mp
    ((replyNotify_worked (Function.update_self _ _ _)).symm.trans replied)
  have flows := inOrder.returning.push notNull origin counted memory wholeRoom pushed
  have lengthEq : (returned ++ [(address, origin)]).length = returned.length + 1 :=
    List.length_append
  have regrouped : (returned ++ [(address, origin)]) ++ ([] ++ waiting) =
      returned ++ ([(address, origin)] ++ waiting) := by
    rw [List.nil_append, List.append_assoc]
  refine ⟨⟨sent, returned ++ [(address, origin)], [], waiting⟩, inOrder.decoded, ?_,
    inOrder.sends, inOrder.deleted, ?_, ?_, ?_, rfl, ?_, inOrder.incoming, flows⟩
  · rw [Flight.all, regrouped]
    exact inOrder.created
  · rw [Flight.all, regrouped]
    exact inOrder.nodup
  · simp only [Function.update_idem]
    refine queued_append.mpr ⟨inOrder.answered.update elsewhere _, ?_, trivial⟩
    exact Function.update_self _ _ _
  · simp only [Function.update_idem, lengthEq, ← Nat.add_assoc]
    exact others.update notWaiting _
  · exact fun _ member => absurd member List.not_mem_nil

theorem step {label : Label} (reliable : Reliable state label)
    (unsaturated : Unsaturated state label)
    (stepEq : Server.step state label = some after) : Accounted after := by
  obtain ⟨stays, transfer⟩ := reliable
  cases label with
  | accept fd =>
      obtain ⟨-, rfl⟩ := accept_eq_some stepEq
      exact ⟨flight, inOrder.withConnections _ _⟩
  | connectionInput connection read => exact ⟨flight, inOrder.connectionInput stays stepEq⟩
  | dispatch address realloc room =>
      exact inOrder.dispatch unsaturated transfer.1 transfer.2 stepEq
  | connectionOutput connection writev => exact ⟨flight, inOrder.connectionOutput stays stepEq⟩
  | hangup connection => contradiction
  | incomingOutput room =>
      obtain ⟨-, queue, notified, rfl⟩ := incomingOutput_eq_some stepEq
      exact ⟨flight, inOrder.withIncoming (inOrder.incoming.outputNotify transfer notified)⟩
  | returnInput =>
      obtain ⟨idle, rfl⟩ := returnInput_eq_some stepEq
      exact ⟨flight, inOrder.withListener (by rw [idle]; rfl)⟩
  | returnTurn available realloc room => exact inOrder.returnTurn transfer stepEq
  | incomingInput =>
      obtain ⟨idle, rfl⟩ := incomingInput_eq_some stepEq
      exact ⟨flight, inOrder.withWorker (by rw [idle]; rfl)⟩
  | incomingTurn available => exact inOrder.incomingTurn transfer stepEq
  | work realloc room => exact inOrder.work unsaturated transfer.1 transfer.2 stepEq
  | returnOutput room =>
      obtain ⟨queue, notified, rfl⟩ := returnOutput_eq_some stepEq
      exact ⟨flight, inOrder.withReturning (inOrder.returning.outputNotify transfer notified)⟩

theorem matched (linked : Linked state) : Matched state := by
  refine ⟨⟨_, inOrder.decoded.symm⟩, fun connection => ?_,
    fun send member => (linked.replies send member).2, ?_⟩
  · have answers := congrArg
      (fun replies : List (ConnectionId × CResponsePacket × Nat) =>
        (replies.filter fun reply => reply.1 = connection).map
          fun reply => (reply.2.2, reply.2.1.mHeader.cmd))
      inOrder.sends
    simp only [List.filter_map, List.map_map] at answers
    have behind : state.decoded =
        flight.sent ++ (flight.all.map Prod.snd ++ state.listener.undispatched) := by
      rw [inOrder.decoded, inOrder.created, List.append_assoc]
    rw [requestsOn, behind, List.zipIdx_append, List.filter_append, List.map_append]
    exact ⟨_, congrArg (· ++ _) answers⟩
  · rw [inOrder.deleted]
    exact List.nodup_range

end InOrder

end NginxFastcgi.Service.Server
