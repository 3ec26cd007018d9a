import NginxFastcgi.Network.Handlers
import NginxFastcgi.Service.TcpConnection

/-!
# Notifications and the life of units

`EpollProcess` looks a unit up once for each event and may call two handlers on
it.  The first of them, `OutputNotify`, destroys its connection when `writev`
fails for good; the second is then called on a destroyed unit.
-/

namespace NginxFastcgi.Service.LiveNotify

open Foundation.Transition
open NginxFastcgi.Network
open NginxFastcgi.Network.EventLoop

universe u v

/-- The unit is a connection with something to write, and `writev` fails for
good. -/
def OutputFails (object : Option Object) (writev : WritevResult) : Prop :=
  match object with
  | some (.connection connection) => 0 < connection.iovLength ∧ writev = .error
  | _ => False

instance (object : Option Object) (writev : WritevResult) :
    Decidable (OutputFails object writev) := by
  unfold OutputFails
  split <;> infer_instance

/-- The event asks for output and then for input on a unit whose output
fails. -/
def OutputFailsBeforeInput (state : State) (event : EpollEvent) (answers : Answers) : Prop :=
  ¬ (event.epollhup ∨ event.epollerr) ∧ ¬ event.epollrdhup ∧ event.epollout ∧ event.epollin ∧
    OutputFails ((state.pool.mPollUnits.lookup event.fd).bind state.objects) answers.writev

instance (state : State) (event : EpollEvent) (answers : Answers) :
    Decidable (OutputFailsBeforeInput state event answers) :=
  inferInstanceAs (Decidable (_ ∧ _))

/-- The next turn of the loop does not notify a unit after its output failed. -/
def Allowed {Q : Type v} (state : State) (label : Label Q) : Prop :=
  match label, state.events with
  | .event answers, event :: _ => ¬ OutputFailsBeforeInput state event answers
  | _, _ => True

instance {Q : Type v} (state : State) (label : Label Q) : Decidable (Allowed state label) := by
  unfold Allowed
  split <;> infer_instance

section Notifications

variable {P : Type u} {decode : CBuffers → Option (Int × List P)} {state after : State}
  {id : UnitId} {object : Object} {answers : Answers}

theorem notify_of_present (present : state.objects id = some object)
    (notification : Notification) (handler : State → Object → Option State) :
    state.notify notification id handler =
      handler { state with calls := state.calls ++ [⟨notification, id, true⟩] } object := by
  rw [State.notify, present]
  rfl

theorem hangup_spec (consistent : Consistent state) (present : state.objects id = some object)
    {notification : Notification}
    (notified : state.notify notification id (fun called _ => called.deleteThis id) =
      some after) :
    Consistent after ∧ after.calls = state.calls ++ [⟨notification, id, true⟩] := by
  rw [notify_of_present present] at notified
  obtain ⟨deleted, deletedEq, deletedConsistent, sameCalls, -⟩ :=
    (consistent.withCalls (state.calls ++ [⟨notification, id, true⟩])).deleteThis present
  cases deletedEq.symm.trans notified
  exact ⟨deletedConsistent, sameCalls⟩

theorem outputNotify_spec (consistent : Consistent state)
    (present : state.objects id = some object)
    (notified : state.outputNotify id answers = some after) :
    Consistent after ∧ after.calls = state.calls ++ [⟨.output, id, true⟩] ∧
      ((after.objects id).isSome ↔ ¬ OutputFails (some object) answers.writev) := by
  have called := consistent.withCalls (state.calls ++ [⟨.output, id, true⟩])
  rw [State.outputNotify, notify_of_present present] at notified
  cases object with
  | listener listener =>
      cases notified
      refine ⟨called, rfl, ?_⟩
      change (state.objects id).isSome ↔ ¬ False
      rw [present]
      exact ⟨fun _ => not_false, fun _ => rfl⟩
  | connection connection =>
      obtain ⟨kept, sameCalls, survives, -⟩ := called.connectionOutput present notified
      exact ⟨kept, sameCalls, survives⟩

theorem inputNotify_spec (consistent : Consistent state)
    (present : state.objects id = some object)
    (notified : state.inputNotify decode id answers = some after) :
    Consistent after ∧ after.calls = state.calls ++ [⟨.input, id, true⟩] := by
  have called := consistent.withCalls (state.calls ++ [⟨.input, id, true⟩])
  rw [State.inputNotify, notify_of_present present] at notified
  cases object with
  | listener listener =>
      obtain ⟨kept, sameCalls, -⟩ := called.listenerInput present notified
      exact ⟨kept, sameCalls⟩
  | connection connection =>
      obtain ⟨kept, sameCalls, -⟩ := called.connectionInput present notified
      exact ⟨kept, sameCalls⟩

theorem inputNotify_of_gone (gone : state.objects id = none)
    (notified : state.inputNotify decode id answers = some after) :
    after.calls = state.calls ++ [⟨.input, id, false⟩] := by
  rw [State.inputNotify, State.notify, gone] at notified
  cases notified
  rfl

end Notifications

section Steps

variable {P : Type u} {decode : CBuffers → Option (Int × List P)} {state after : State}

theorem notifiesLive_append (live : NotifiesLive state) {call : Call}
    (callsEq : after.calls = state.calls ++ [call]) : NotifiesLive after ↔ call.live := by
  unfold NotifiesLive
  rw [callsEq, List.forall_mem_append, List.forall_mem_singleton]
  exact and_iff_right live

/-- The output part of a turn leaves its unit alive exactly when it does not
fail. -/
theorem outputPart_spec (consistent : Consistent state) (live : NotifiesLive state) {id : UnitId}
    {object : Object} (present : state.objects id = some object) {answers : Answers}
    {asked : Bool}
    (outputEq : (if asked then state.outputNotify id answers else some state) = some after) :
    Consistent after ∧ NotifiesLive after ∧
      ((after.objects id).isSome ↔ ¬ (asked ∧ OutputFails (some object) answers.writev)) := by
  cases asked with
  | true =>
      obtain ⟨afterConsistent, callsEq, survives⟩ := outputNotify_spec consistent present outputEq
      refine ⟨afterConsistent, (notifiesLive_append live callsEq).mpr rfl, ?_⟩
      rw [survives, and_iff_right rfl]
  | false =>
      cases outputEq
      rw [present]
      exact ⟨consistent, live, iff_of_true rfl fun fails => Bool.false_ne_true fails.1⟩

/-- The input part of a turn notifies a destroyed unit exactly when it is asked
for and the unit is gone. -/
theorem inputPart_spec (consistent : Consistent state) (live : NotifiesLive state) {id : UnitId}
    {answers : Answers} {asked : Bool}
    (inputEq : (if asked then state.inputNotify decode id answers else some state) =
      some after) :
    (NotifiesLive after ↔ ¬ (asked ∧ ¬ (state.objects id).isSome)) ∧
      (NotifiesLive after → Consistent after) := by
  cases asked with
  | false =>
      cases inputEq
      exact ⟨iff_of_true live fun gone => Bool.false_ne_true gone.1, fun _ => consistent⟩
  | true =>
      cases still : state.objects id with
      | none =>
          have dead := notifiesLive_append live (inputNotify_of_gone still inputEq)
          have notLive : ¬ NotifiesLive after := fun afterLive =>
            Bool.false_ne_true (dead.mp afterLive)
          exact ⟨iff_of_false notLive (not_not_intro ⟨rfl, Bool.false_ne_true⟩),
            fun afterLive => absurd afterLive notLive⟩
      | some object =>
          obtain ⟨afterConsistent, callsEq⟩ := inputNotify_spec consistent still inputEq
          exact ⟨iff_of_true ((notifiesLive_append live callsEq).mpr rfl) fun gone => gone.2 rfl,
            fun _ => afterConsistent⟩

/-- A turn of the loop notifies a destroyed unit exactly when it asks for input
after a failed output; otherwise the registries stay consistent. -/
theorem processEvent_spec (consistent : Consistent state) (live : NotifiesLive state)
    {event : EpollEvent} {answers : Answers}
    (processed : state.processEvent decode event answers = some after) :
    (NotifiesLive after ↔ ¬ OutputFailsBeforeInput state event answers) ∧
      (NotifiesLive after → Consistent after) := by
  unfold State.processEvent at processed
  cases found : state.pool.mPollUnits.lookup event.fd with
  | none =>
      simp only [found] at processed
      cases processed
      have fine : ¬ OutputFailsBeforeInput state event answers := by
        rintro ⟨-, -, -, -, fails⟩
        rw [found] at fails
        exact fails
      exact ⟨iff_of_true live fine, fun _ => consistent.closeUnpolled found⟩
  | some id =>
      obtain ⟨object, present, -⟩ := consistent.entry_live event.fd id found
      have outputFails : OutputFails ((state.pool.mPollUnits.lookup event.fd).bind state.objects)
          answers.writev = OutputFails (some object) answers.writev := by
        rw [found, Option.bind_some, present]
      simp only [found] at processed
      unfold OutputFailsBeforeInput
      rw [outputFails]
      split at processed
      · rename_i hangup
        obtain ⟨afterConsistent, callsEq⟩ := hangup_spec consistent present processed
        exact ⟨iff_of_true ((notifiesLive_append live callsEq).mpr rfl)
          (fun fails => fails.1 hangup), fun _ => afterConsistent⟩
      rename_i noHangup
      split at processed
      · rename_i rdHup
        obtain ⟨afterConsistent, callsEq⟩ := hangup_spec consistent present processed
        exact ⟨iff_of_true ((notifiesLive_append live callsEq).mpr rfl)
          (fun fails => fails.2.1 rdHup), fun _ => afterConsistent⟩
      rename_i noRdHup
      obtain ⟨next, outputEq, inputEq⟩ := Option.bind_eq_some_iff.mp processed
      obtain ⟨nextConsistent, nextLive, survives⟩ :=
        outputPart_spec consistent live present outputEq
      obtain ⟨liveIff, consistentAfter⟩ := inputPart_spec nextConsistent nextLive inputEq
      refine ⟨liveIff.trans (not_congr ?_), consistentAfter⟩
      rw [survives, Classical.not_not]
      exact ⟨fun ⟨input, output, fails⟩ => ⟨noHangup, noRdHup, output, input, fails⟩,
        fun ⟨_, _, output, input, fails⟩ => ⟨input, output, fails⟩⟩

variable {Q : Type v} [CPacket Q]

/-- From a consistent state a step notifies only live units exactly when it is
allowed. -/
theorem step_spec (consistent : Consistent state) {label : Label Q}
    (stepEq : step decode state label = some after) :
    (NotifiesLive after ↔ Allowed state label) ∧ (NotifiesLive after → Consistent after) := by
  obtain ⟨live, stepEq⟩ := restrict_eq_some stepEq
  have quiet (kept : Consistent after ∧ after.calls = state.calls) : NotifiesLive after ∧
      Consistent after := by
    refine ⟨?_, kept.1⟩
    unfold NotifiesLive
    rw [kept.2]
    exact live
  cases label with
  | listen fd deferAccept =>
      obtain ⟨listening, sameCalls, -⟩ := consistent.listen stepEq
      obtain ⟨afterLive, kept⟩ := quiet ⟨listening, sameCalls⟩
      exact ⟨iff_of_true afterLive trivial, fun _ => kept⟩
  | wait events =>
      obtain ⟨afterLive, kept⟩ := quiet (consistent.wait stepEq)
      exact ⟨iff_of_true afterLive trivial, fun _ => kept⟩
  | event answers =>
      change event decode state answers = some after at stepEq
      cases eventsEq : state.events with
      | nil =>
          rw [event, eventsEq] at stepEq
          contradiction
      | cons event rest =>
          rw [EventLoop.event, eventsEq] at stepEq
          have allowed : Allowed state (.event answers : Label Q) ↔
              ¬ OutputFailsBeforeInput state event answers := by
            simp only [Allowed, eventsEq]
          rw [allowed]
          exact processEvent_spec (consistent.withEvents rest) live stepEq
  | send id packet =>
      obtain ⟨sent, sameCalls, -⟩ := consistent.send stepEq
      obtain ⟨afterLive, kept⟩ := quiet ⟨sent, sameCalls⟩
      exact ⟨iff_of_true afterLive trivial, fun _ => kept⟩

/-- The states that runs reach without notifying a destroyed unit are those
reached when no input follows a failed output. -/
theorem notifiesLive_iff_allowed {self : PoolId} {epollSize : Nat}
    (reachable : Reachable (step (Q := Q) decode) (fun _ _ => True) (initial self epollSize)
      state) :
    NotifiesLive state ↔
      Reachable (step (Q := Q) decode) Allowed (initial self epollSize) state := by
  have fromAllowed {state : State} (permitted : Reachable (step (Q := Q) decode) Allowed
      (initial self epollSize) state) : NotifiesLive state ∧ Consistent state := by
    induction permitted with
    | refl =>
        exact ⟨fun _ member => absurd member List.not_mem_nil, consistent_initial self epollSize⟩
    | tail _ label permitted stepEq before =>
        obtain ⟨exactly, kept⟩ := step_spec before.2 stepEq
        exact ⟨exactly.mpr permitted, kept (exactly.mpr permitted)⟩
  refine ⟨fun live => ?_, fun permitted => (fromAllowed permitted).1⟩
  induction reachable with
  | refl => exact .refl
  | tail _ label _ stepEq inductionHypothesis =>
      have before := inductionHypothesis (restrict_eq_some stepEq).1
      obtain ⟨exactly, -⟩ := step_spec (fromAllowed before).2 stepEq
      exact before.tail label (exactly.mp live) stepEq

end Steps

/-- A connection is accepted, gets a response to send and then an event for
both directions. -/
def bothDirections (writev : WritevResult) : List (Label CResponsePacket) :=
  [.listen 3 0, .wait [{ fd := 3, epollin := true }], .event { accepted := some { fd := 4 } },
    .send 1 {}, .wait [{ fd := 4, epollin := true, epollout := true }],
    .event { writev := writev }]

/-- The response is written and the connection is read. -/
theorem notifiesLive_of_written :
    ∃ state : State, state.calls.length = 3 ∧ NotifiesLive state := by
  have executed : (execute (restrict (step CTcpConnection.decode) Allowed)
      (bothDirections (.accepted 8)) (initial 0 4096)).map (fun state => state.calls.length) =
        some 3 := by
    decide +kernel
  obtain ⟨state, runs, counted⟩ := Option.map_eq_some_iff.mp executed
  have permitted := Reachable.of_execute runs
  have reachable : Reachable (step CTcpConnection.decode) (fun _ _ => True) (initial 0 4096)
      state := permitted.mono fun _ _ _ => trivial
  exact ⟨state, counted, (notifiesLive_iff_allowed reachable).mpr permitted⟩

/-- `OutputNotify` destroys the connection and `InputNotify` is called on it. -/
theorem input_after_failed_output :
    ∃ state : State,
      Reachable (step (Q := CResponsePacket) CTcpConnection.decode) (fun _ _ => True)
        (initial 0 4096) state ∧
      ¬ NotifiesLive state := by
  have executed : (execute (restrict (step CTcpConnection.decode) fun _ _ => True)
      (bothDirections .error) (initial 0 4096)).map
        (fun state => state.calls.map fun call => (call.unit, call.live)) =
      some [(0, true), (1, true), (1, false)] := by
    decide +kernel
  obtain ⟨state, runs, observed⟩ := Option.map_eq_some_iff.mp executed
  refine ⟨state, Reachable.of_execute runs, fun live => ?_⟩
  have dead : (1, false) ∈ state.calls.map fun call => (call.unit, call.live) := by
    rw [observed]
    decide
  obtain ⟨call, member, callEq⟩ := List.mem_map.mp dead
  have alive := live call member
  rw [(Prod.mk.inj callEq).2] at alive
  exact absurd alive Bool.false_ne_true

end NginxFastcgi.Service.LiveNotify
