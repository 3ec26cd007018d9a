import NginxFastcgi.Service.PipePassage
import NginxFastcgi.Service.ReplyProgress

/-!
# Runs of requests and replies

While the kernel refuses every write, one request after the other adds a task
to the writer of the incoming pipe.  The request whose push saturates it takes
all of them along, and the next one is answered first.
-/

namespace NginxFastcgi.Service.Server

open Foundation.Transition
open NginxFastcgi.Network

/-! ## Steps that are enabled -/

section Steps

variable {state : State}

theorem step_connectionInput {connection : ConnectionId} {read : ReadResult}
    {live next : CConnection} {packets : List CRequestPacket} (idle : state.listener = .idle)
    (present : state.connections connection = some live)
    (notified : live.inputNotify CTcpConnection.decode read = some (.alive next packets)) :
    step state (.connectionInput connection read) = some
      { state with
        connections := Function.update state.connections connection (some next)
        listener := dispatchRest connection packets
        decoded := state.decoded ++ packets.map (Origin.mk connection) } := by
  simp only [step, connectionInput, idle, present, notified, Option.map_some]

theorem step_dispatch {connection : ConnectionId} {packet : CRequestPacket}
    {packets : List CRequestPacket} {address : Pointer} {realloc : Option Contents} {room : Nat}
    {pushed : CPipeQueue × Int}
    (busy : state.listener = .dispatching connection (packet :: packets))
    (notNull : address ≠ 0) (free : state.heap address = none)
    (pushedEq : state.incomingPipe.push address realloc room = some pushed) :
    step state (.dispatch address realloc room) = some
      { state with
        heap := Function.update state.heap address
          (some ⟨onPacketTask ⟨connection, packet⟩, state.created.length⟩)
        incomingPipe := pushed.1
        listener := dispatchRest connection packets
        created := state.created ++ [⟨connection, packet⟩] } := by
  have fresh : ¬ (address = 0 ∨ (state.heap address).isSome) := by
    rw [free]
    simpa using notNull
  simp only [step, dispatch, busy, if_neg fresh, pushedEq, Option.map_some]

theorem step_incomingOutput {room : Nat} {queue : CPipeQueue} (idle : state.listener = .idle)
    (notified : state.incomingPipe.outputNotify room = some queue) :
    step state (.incomingOutput room) = some { state with incomingPipe := queue } := by
  simp only [step, incomingOutput, idle, notified, Option.map_some]

theorem step_incomingInput (idle : state.worker = .idle) :
    step state .incomingInput = some { state with worker := .working 0 } := by
  simp only [step, incomingInput, idle]

theorem step_incomingTurn_notified {taskNum next available : Nat} {queue : CPipeQueue}
    {data : Pointer} (working : state.worker = .working taskNum)
    (turnEq : state.incomingPipe.turn taskNum available = some (.notified queue next data)) :
    step state (.incomingTurn available) =
      some { state with incomingPipe := queue, worker := .holding next data } := by
  simp only [step, incomingTurn, working, turnEq, Option.map_some]

theorem step_incomingTurn_finished {taskNum available : Nat} {queue : CPipeQueue}
    (working : state.worker = .working taskNum)
    (turnEq : state.incomingPipe.turn taskNum available = some (.finished queue)) :
    step state (.incomingTurn available) =
      some { state with incomingPipe := queue, worker := .idle } := by
  simp only [step, incomingTurn, working, turnEq, Option.map_some]

/-- The worker thread answers the task that it holds. -/
theorem step_work {taskNum : Nat} {data : Pointer} {origin : Origin} {serial : Nat}
    {realloc : Option Contents} {room : Nat} {pushed : CPipeQueue × Int}
    (holding : state.worker = .holding taskNum data)
    (allocated : state.heap data = some ⟨onPacketTask origin, serial⟩)
    (pushedEq : state.returnPipe.push data realloc room = some pushed) :
    step state (.work realloc room) = some
      { state with
        heap := Function.update state.heap data (some ⟨answeredTask origin, serial⟩)
        returnPipe := pushed.1
        worker := .working taskNum } := by
  simp only [step, work, holding, allocated, Option.bind_some]
  rw [replyNotify_worked (Function.update_self _ _ _)]
  simp only [pushedEq, Option.map_some, Function.update_idem]

theorem step_returnOutput {room : Nat} {queue : CPipeQueue} (idle : state.worker = .idle)
    (notified : state.returnPipe.outputNotify room = some queue) :
    step state (.returnOutput room) = some { state with returnPipe := queue } := by
  simp only [step, returnOutput, idle, notified, Option.map_some]

theorem step_returnInput (idle : state.listener = .idle) :
    step state .returnInput = some { state with listener := .replying 0 } := by
  simp only [step, returnInput, idle]

/-- The listener thread sends the response of an answered task. -/
theorem step_returnTurn {taskNum next available : Nat} {queue : CPipeQueue} {data : Pointer}
    {origin : Origin} {serial : Nat} {realloc : Option Contents} {room : Nat}
    (replying : state.listener = .replying taskNum)
    (turnEq : state.returnPipe.turn taskNum available = some (.notified queue next data))
    (allocated : state.heap data = some ⟨answeredTask origin, serial⟩) :
    step state (.returnTurn available realloc room) = some
      { state with
        returnPipe := queue
        listener := .replying next
        connections := Function.update state.connections origin.connection
          ((state.connections origin.connection).map fun (live : CConnection) =>
            (live.sendPacket (answeredTask origin).getResponsePacket).1)
        heap := Function.update state.heap data none
        sends := state.sends ++
          [⟨origin.connection, (state.connections origin.connection).isSome,
            (answeredTask origin).getResponsePacket, serial⟩]
        deleted := state.deleted ++ [serial] } := by
  simp only [step, returnTurn, replying, turnEq, Option.bind_some]
  exact replyNotify_answered allocated

end Steps

/-! ## Runs that keep requests in order -/

/-- In every reliable run without a saturated push, the responses on each
connection answer its requests in order, and no step that may come next is
undefined. -/
theorem matched_of_unsaturated {memory : Memory} {state : State}
    (reachable : Reachable step
      (fun before label => Reliable before label ∧ Unsaturated before label)
      (initial memory) state) : Matched state ∧ Proceeds state := by
  have linked : Linked state := by
    refine reachable.invariant (linked_initial memory) ?_
    intro before label after beforeLinked permitted stepEq
    exact beforeLinked.step (quiet_of_staysOpen permitted.1.1) stepEq
  have accounted : Accounted state := by
    refine reachable.invariant ⟨_, inOrder_initial memory⟩ ?_
    rintro before label after ⟨flight, inOrder⟩ permitted stepEq
    exact inOrder.step permitted.1 permitted.2 stepEq
  have serviceable : Serviceable state := by
    refine reachable.invariant (serviceable_initial memory) ?_
    intro before label after beforeServiceable permitted stepEq
    exact beforeServiceable.step permitted.1 stepEq
  obtain ⟨flight, inOrder⟩ := accounted
  exact ⟨inOrder.matched linked, inOrder.proceeds serviceable⟩

instance (state : State) (label : Label) : Decidable (Reliable state label) := by
  unfold Reliable
  cases label with
  | connectionInput connection read => cases read <;> infer_instance
  | _ => infer_instance

instance (state : State) (label : Label) : Decidable (Unsaturated state label) := by
  unfold Unsaturated
  cases label <;> infer_instance

theorem matched_of_one :
    ∃ state : State, state.sends.length = 1 ∧ Matched state ∧ Proceeds state := by
  have executed : (execute
      (restrict step fun before label => Reliable before label ∧ Unsaturated before label)
      (requestLabels ++ replyLabels) (initial zeroMemory)).map
        (fun state => state.sends.length) = some 1 := by
    decide +kernel
  obtain ⟨state, runs, sent⟩ := Option.map_eq_some_iff.mp executed
  exact ⟨state, sent, matched_of_unsaturated (Reachable.of_execute runs)⟩

/-! ## A run that loses requests -/

/-- A request of this command with a body of one byte, as it is read. -/
def askBytes (cmd : UInt8) : List UInt8 :=
  [0xFD, 0xFC, 0, cmd, 0, 0, 0, 1, 0x61]

/-- The same request, decoded on the first connection. -/
def asked (cmd : UInt8) : Origin :=
  ⟨0, ⟨⟨kProtocolMagic, cmd.toUInt16, 1⟩, some [0x61]⟩⟩

/-- Reading one request leaves the connection as it was. -/
def Asks (cmd : UInt8) : Prop :=
  (acceptedConnection 8).inputNotify CTcpConnection.decode (.data (askBytes cmd)) =
    some (.alive (acceptedConnection 8) [(asked cmd).request])

theorem asks_first : Asks 1 := rfl

theorem asks_second : Asks 2 := rfl

theorem readable_askBytes (cmd : UInt8) : CTcpConnection.Readable (askBytes cmd) :=
  ⟨Nat.zero_lt_succ _, by simp [askBytes, kDefaultBufferLength]⟩

/-- Both threads are idle, the tasks on their way are all pending in the writer
of the incoming pipe, and no response was sent. -/
structure Loaded (state : State) (transit : List Pointer) : Prop where
  connection : state.connections 0 = some (acceptedConnection 8)
  listener : state.listener = .idle
  worker : state.worker = .idle
  carries : state.incomingPipe.Carries transit
  whole : state.incomingPipe.Whole
  pending : state.incomingPipe.mWriter.mDataSizeEnd = 8 * transit.length
  returning : Flows state.returnPipe []
  free : ∀ address : Pointer, state.created.length < address.toNat → state.heap address = none
  decoded : state.decoded = List.replicate state.created.length (asked 1)
  sends : state.sends = []

namespace Loaded

variable {state : State} {transit : List Pointer} (loaded : Loaded state transit)
include loaded

/-- The address of the next task. -/
theorem next_free (few : state.created.length < 2 ^ 32) :
    UInt64.ofNat (state.created.length + 1) ≠ 0 ∧
      state.heap (UInt64.ofNat (state.created.length + 1)) = none := by
  have toNat : (UInt64.ofNat (state.created.length + 1)).toNat = state.created.length + 1 :=
    UInt64.toNat_ofNat_of_lt' (show state.created.length + 1 < 2 ^ 64 by omega)
  refine ⟨?_, loaded.free _ (by omega)⟩
  intro null
  rw [null] at toNat
  contradiction

theorem staysOpen_ask {cmd : UInt8} (asks : Asks cmd) :
    StaysOpen state (.connectionInput 0 (.data (askBytes cmd))) := by
  rw [StaysOpen, destroyed, loaded.connection, Option.bind_some, asks]

/-- One more request of the first command, with what its push leaves. -/
theorem ask (few : state.created.length < 2 ^ 32) {queue : CPipeQueue} {kept : List Pointer}
    (pushed : state.incomingPipe.push (UInt64.ofNat (state.created.length + 1))
      (some fun _ => 0) 0 = some (queue, 0))
    (carries : queue.Carries kept) (whole : queue.Whole)
    (pending : queue.mWriter.mDataSizeEnd = 8 * kept.length) :
    ∃ after, Reachable step Reliable state after ∧ Loaded after kept ∧
      after.created.length = state.created.length + 1 := by
  obtain ⟨notNull, free⟩ := loaded.next_free few
  have read : Reachable step Reliable state _ :=
    Reachable.refl.tail (.connectionInput 0 (.data (askBytes 1)))
      ⟨loaded.staysOpen_ask asks_first, readable_askBytes 1⟩
      (step_connectionInput loaded.listener loaded.connection asks_first)
  have dispatched := read.tail
    (.dispatch (UInt64.ofNat (state.created.length + 1)) (some fun _ => 0) 0)
    ⟨rfl, rfl, Or.inl rfl⟩ (step_dispatch rfl notNull free pushed)
  have lengthEq : (state.created ++ [asked 1]).length = state.created.length + 1 :=
    List.length_append
  have present : Function.update state.connections 0 (some (acceptedConnection 8)) 0 =
      some (acceptedConnection 8) := Function.update_self _ _ _
  refine ⟨_, dispatched, ⟨present, rfl, loaded.worker, carries, whole, pending,
    loaded.returning, ?_, ?_, loaded.sends⟩, lengthEq⟩
  · intro address beyond
    change (state.created ++ [asked 1]).length < address.toNat at beyond
    rw [lengthEq] at beyond
    have other : address ≠ UInt64.ofNat (state.created.length + 1) := by
      rintro rfl
      rw [UInt64.toNat_ofNat_of_lt' (show state.created.length + 1 < 2 ^ 64 by omega)] at beyond
      omega
    change Function.update state.heap _ _ address = none
    rw [Function.update_of_ne other]
    exact loaded.free address (by omega)
  · change state.decoded ++ [asked 1] = List.replicate (state.created ++ [asked 1]).length _
    rw [lengthEq, loaded.decoded, List.replicate_succ']

/-- A refused push keeps the new task pending. -/
theorem load (few : state.created.length < 2 ^ 32) (fits : transit.length + 1 < 2 ^ 28) :
    ∃ after address, Reachable step Reliable state after ∧
      Loaded after (transit ++ [address]) ∧
      after.created.length = state.created.length + 1 := by
  have pending := loaded.pending
  obtain ⟨queue, pushed, whole, carries, -, endEq⟩ :=
    loaded.whole.push_kept loaded.carries (by omega) (loaded.next_free few).1
      (show (some fun _ => 0 : Option Contents).isSome from rfl)
  have lengthEq : (transit ++ [UInt64.ofNat (state.created.length + 1)]).length =
      transit.length + 1 := List.length_append
  obtain ⟨after, reachable, afterLoaded, counted⟩ :=
    loaded.ask few pushed carries whole (by rw [endEq, lengthEq]; omega)
  exact ⟨after, _, reachable, afterLoaded, counted⟩

/-- The push that saturates the writer loses every task. -/
theorem saturate (few : state.created.length < 2 ^ 32) (full : transit.length + 1 = 2 ^ 28) :
    ∃ after, Reachable step Reliable state after ∧ Loaded after [] ∧
      after.created.length = state.created.length + 1 := by
  have pending := loaded.pending
  obtain ⟨queue, kept, lost, pushed, whole, carries, transitEq, lostLength, endEq⟩ :=
    loaded.whole.push_saturated loaded.carries (by omega)
      (UInt64.ofNat (state.created.length + 1)) (some fun _ => 0) 0
  have nothing : kept = [] := by
    have lengthEq := congrArg List.length transitEq
    rw [List.length_append] at lengthEq
    exact List.eq_nil_of_length_eq_zero (by omega)
  rw [nothing] at carries
  exact loaded.ask few pushed carries whole endEq

omit loaded in
/-- A request of the second command passes both pipes. -/
theorem answer (loaded : Loaded state []) (few : state.created.length < 2 ^ 32) :
    ∃ after, Reachable step Reliable state after ∧ after.decoded = state.decoded ++ [asked 2] ∧
      after.sends.map (fun send => (send.connection, send.packet.mHeader.cmd)) = [(0, 2)] := by
  obtain ⟨notNull, free⟩ := loaded.next_free few
  have memory : (some fun _ => 0 : Option Contents).isSome := rfl
  have wholeRead : 8 ∣ 256 := by decide
  obtain ⟨incoming, incomingWritten, incomingPopped, incomingDrained, incomingPushed,
    incomingNotified, incomingTurn, incomingFinished⟩ :=
      loaded.whole.passes loaded.carries notNull memory
  obtain ⟨returned, returnedWritten, returnedPopped, -, returnedPushed, returnedNotified,
    returnedTurn, -⟩ := loaded.returning.whole.passes loaded.returning.carries notNull memory
  have read : Reachable step Reliable state _ :=
    Reachable.refl.tail (.connectionInput 0 (.data (askBytes 2)))
      ⟨loaded.staysOpen_ask asks_second, readable_askBytes 2⟩
      (step_connectionInput loaded.listener loaded.connection asks_second)
  have dispatched := read.tail
    (.dispatch (UInt64.ofNat (state.created.length + 1)) (some fun _ => 0) 0)
    ⟨rfl, rfl, Or.inl rfl⟩ (step_dispatch rfl notNull free incomingPushed)
  have allOrNothing : CPipeQueue.WholeRoom (2 ^ 31) := Or.inr (Nat.le_refl _)
  have written := dispatched.tail (.incomingOutput (2 ^ 31)) ⟨rfl, allOrNothing⟩
    (step_incomingOutput rfl incomingNotified)
  have woken := written.tail .incomingInput ⟨rfl, trivial⟩ (step_incomingInput loaded.worker)
  have held := woken.tail (.incomingTurn 256) ⟨rfl, wholeRead⟩
    (step_incomingTurn_notified rfl incomingTurn)
  have worked := held.tail (.work (some fun _ => 0) 0) ⟨rfl, rfl, Or.inl rfl⟩
    (step_work rfl (Function.update_self _ _ _) returnedPushed)
  have rested := worked.tail (.incomingTurn 256) ⟨rfl, wholeRead⟩
    (step_incomingTurn_finished rfl incomingFinished)
  have replied := rested.tail (.returnOutput (2 ^ 31)) ⟨rfl, allOrNothing⟩
    (step_returnOutput rfl returnedNotified)
  have looked := replied.tail .returnInput ⟨rfl, trivial⟩ (step_returnInput rfl)
  have sent := looked.tail (.returnTurn 256 none 0) ⟨rfl, wholeRead⟩
    (step_returnTurn rfl returnedTurn (Function.update_self _ _ _))
  refine ⟨_, sent, rfl, ?_⟩
  simp only [loaded.sends, List.nil_append]
  rfl

end Loaded

theorem loaded_accept : ∃ state, Reachable step Reliable (initial zeroMemory) state ∧
    Loaded state [] ∧ state.created.length = 0 := by
  have accepted : Reachable step Reliable (initial zeroMemory) _ :=
    Reachable.refl.tail (.accept 8) ⟨rfl, trivial⟩ rfl
  have start := inOrder_initial zeroMemory
  exact ⟨_, accepted, ⟨rfl, rfl, rfl, start.incoming.carries, start.incoming.whole, rfl,
    start.returning, fun _ _ => rfl, rfl, rfl⟩, rfl⟩

/-- Any number of requests up to `2 ^ 28 - 1` can be waiting. -/
theorem loaded_of_lt {count : Nat} (fits : count < 2 ^ 28) :
    ∃ state transit, Reachable step Reliable (initial zeroMemory) state ∧
      Loaded state transit ∧ transit.length = count ∧ state.created.length = count := by
  induction count with
  | zero =>
      obtain ⟨state, reachable, loaded, created⟩ := loaded_accept
      exact ⟨state, [], reachable, loaded, rfl, created⟩
  | succ count inductionHypothesis =>
      obtain ⟨state, transit, reachable, loaded, length, created⟩ :=
        inductionHypothesis (by omega)
      obtain ⟨after, address, further, afterLoaded, counted⟩ :=
        loaded.load (by omega) (by omega)
      refine ⟨after, transit ++ [address], reachable.trans further, afterLoaded, ?_, ?_⟩
      · rw [List.length_append, length]
        rfl
      · rw [counted, created]

/-- After `2 ^ 28` requests of the first command whose tasks are lost, the first
response answers a request of the second one. -/
theorem saturated_not_matched :
    ∃ state, Reachable step Reliable (initial zeroMemory) state ∧ ¬ Matched state := by
  obtain ⟨loadedState, transit, reachable, loaded, length, created⟩ :=
    loaded_of_lt (show 2 ^ 28 - 1 < 2 ^ 28 by omega)
  obtain ⟨lostState, losing, lost, lostCreated⟩ := loaded.saturate (by omega) (by omega)
  obtain ⟨state, answering, decoded, sends⟩ := lost.answer (by omega)
  refine ⟨state, (reachable.trans losing).trans answering, fun matched => ?_⟩
  have ordered := matched.in_order 0
  have first : state.decoded =
      asked 1 :: (List.replicate loadedState.created.length (asked 1) ++ [asked 2]) := by
    rw [decoded, lost.decoded, lostCreated, List.replicate_succ, List.cons_append]
  obtain ⟨send, only, sendEq⟩ := List.map_eq_singleton_iff.mp sends
  obtain ⟨onFirst, cmdEq⟩ := Prod.mk.inj sendEq
  have mine : (asked 1).connection = 0 := rfl
  simp only [responsesOn, requestsOn, only, first, List.zipIdx_cons, List.filter_cons, onFirst,
    mine, decide_true, if_true, List.map_cons, cmdEq, List.cons_prefix_cons,
    Prod.mk.injEq] at ordered
  exact absurd ordered.1.2 (by decide)

end NginxFastcgi.Service.Server
