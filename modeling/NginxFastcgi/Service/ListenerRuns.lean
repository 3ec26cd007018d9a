import NginxFastcgi.Network.Handlers
import NginxFastcgi.Network.Provenance
import NginxFastcgi.Service.TcpConnection

/-!
# Runs of a listener and its connections

The handlers of listeners and connections run in any order, with any answers
of the system calls, and listeners are destroyed at any time.  A run records
the descriptors that `accept` and `Listen` returned; the kernel records the
calls of `close`.

The decoder is chosen anew at every read, since `Decode` is virtual.
-/

namespace NginxFastcgi.Service.ListenerRuns

open Foundation.Transition
open NginxFastcgi.Network
open NginxFastcgi.Network.EventLoop

universe u v

/-! ## Steps -/

/-- A run up to now, with the descriptors that it obtained. -/
structure Run where
  state : State
  accepted : List Int := []
  listened : List Int := []

/-- `Decode` during one read. -/
abbrev Decoder (P : Type u) := CBuffers → Option (Int × List P)

inductive Label (P : Type u) (Q : Type v)
  /-- A listener is constructed on a new descriptor and attached. -/
  | listen (fd deferAccept : Int)
  /-- `CListener::InputNotify`. -/
  | accept (id : UnitId) (answer : Option Accepted) (decode : Decoder P)
  /-- `CConnection::InputNotify`. -/
  | input (id : UnitId) (read : ReadResult) (decode : Decoder P)
  /-- `CConnection::OutputNotify`. -/
  | output (id : UnitId) (writev : WritevResult)
  /-- `CConnection::HangupNotify`. -/
  | hangup (id : UnitId)
  /-- A packet is sent on a connection. -/
  | send (id : UnitId) (packet : Q)
  /-- The listener is deleted. -/
  | destroy (id : UnitId)

namespace Label

variable {P : Type u} {Q : Type v}

/-- The descriptor that `accept` returns. -/
def accepted : Label P Q → List Int
  | .accept _ answer _ => (answer.map Accepted.fd).toList
  | _ => []

/-- The descriptor of a new listener. -/
def listened : Label P Q → List Int
  | .listen fd _ => [fd]
  | _ => []

end Label

/-- The step on a listener that exists. -/
def onListener (state : State) (id : UnitId) (handler : CListener → Option State) :
    Option State :=
  match state.objects id with
  | some (.listener listener) => handler listener
  | _ => none

/-- The step on a connection that exists. -/
def onConnection (state : State) (id : UnitId) (handler : CConnection → Option State) :
    Option State :=
  match state.objects id with
  | some (.connection connection) => handler connection
  | _ => none

section Steps

variable {P : Type u} {Q : Type v} [CPacket Q]

def transition (state : State) : Label P Q → Option State
  | .listen fd deferAccept => EventLoop.listen state fd deferAccept
  | .accept id answer decode =>
      onListener state id fun listener => state.listenerInput decode id listener answer
  | .input id read decode =>
      onConnection state id fun connection => state.connectionInput decode id connection read
  | .output id writev =>
      onConnection state id fun connection => state.connectionOutput id connection writev
  | .hangup id => onConnection state id fun _ => state.deleteThis id
  | .send id packet => EventLoop.send state id packet
  | .destroy id => onListener state id fun _ => state.deleteThis id

def step : Step Run (Label P Q)
  | run, label => (transition run.state label).map fun after =>
      ⟨after, run.accepted ++ label.accepted, run.listened ++ label.listened⟩

end Steps

/-- The pool after `Init`, in a process where some descriptors are open. -/
def start (opened : Int → Bool) (self : PoolId) (epollSize : Nat) : Run where
  state := { initial self epollSize with kernel := { opened := opened } }

/-! ## The registries -/

/-- The connection is alive, on this descriptor. -/
def Alive (state : State) (id : UnitId) (fd : Int) : Prop :=
  ∃ connection, state.objects id = some (.connection connection) ∧ connection.mFd = fd

/-- A listener maps the descriptor to the connection. -/
def Listed (state : State) (id : UnitId) (fd : Int) : Prop :=
  ∃ listenerId listener, state.objects listenerId = some (.listener listener) ∧
    listener.mConnections.lookup fd = some id

def IsListener (state : State) (id : UnitId) : Prop :=
  ∃ listener, state.objects id = some (.listener listener)

/-- The live connections are the ones in `m_connections`, and in
`m_poll_units`. -/
structure RegistriesExact (state : State) : Prop where
  listed : ∀ id fd, Alive state id fd ↔ Listed state id fd
  polled : ∀ id fd, ¬ IsListener state id →
    (Alive state id fd ↔ state.pool.mPollUnits.lookup fd = some id)

/-- Each descriptor was closed as often as it was obtained, up to the one time
that it is still polled. -/
def ClosedOnce (run : Run) : Prop :=
  ∀ fd, 0 < fd →
    run.state.kernel.closed.count fd + (run.state.pool.mPollUnits.lookup fd).isSome.toNat =
      run.accepted.count fd + run.listened.count fd

/-- A step closes the descriptor of every connection that it drops, once, and of
no other connection. -/
def ClosesDropped (before after : State) : Prop :=
  ∀ id fd, 0 < fd → Alive before id fd →
    Alive after id fd ∧ after.kernel.closed.count fd = before.kernel.closed.count fd ∨
      ¬ Alive after id fd ∧ after.kernel.closed.count fd = before.kernel.closed.count fd + 1

/-- The loop of `~CListener` returns, and is one `delete` of each connection of
the listener. -/
def DestroysEach (state : State) (id : UnitId) (listener : CListener) : Prop :=
  ∃ (after : State) (order : List UnitId),
    State.deleteConnections id (listener.mConnections.size + 1) state = some after ∧
    order.Nodup ∧
    (∀ other, other ∈ order ↔
      ∃ connection, state.objects other = some (.connection connection) ∧
        connection.mListener = some id) ∧
    order.foldlM State.deleteConnection state = some after ∧
    (∀ other ∈ order, after.objects other = none) ∧
    (state.deleteListener id).isSome

section Invariant

variable {P : Type u} {Q : Type v} [CPacket Q] {state after : State}

theorem registriesExact (consistent : Consistent state) : RegistriesExact state where
  listed := by
    intro id fd
    constructor
    · rintro ⟨connection, present, rfl⟩
      obtain ⟨listenerId, listener, -, listens, entry⟩ :=
        consistent.connection_listed id connection (Option.some_ne_none id).symm present
      exact ⟨listenerId, listener, listens, entry⟩
    · rintro ⟨listenerId, listener, listens, entry⟩
      obtain ⟨connection, present, fdEq, -⟩ :=
        consistent.listed_connection listenerId listener fd id listens entry
      exact ⟨connection, present, fdEq⟩
  polled := by
    intro id fd notListener
    constructor
    · rintro ⟨connection, present, rfl⟩
      exact consistent.live_entry id (.connection connection) present
    · intro entry
      obtain ⟨object, present, fdEq⟩ := consistent.entry_live fd id entry
      cases object with
      | listener listener => exact absurd ⟨listener, present⟩ notListener
      | connection connection => exact ⟨connection, present, fdEq⟩

/-- A step on a listener is enabled where the listener exists. -/
theorem of_onListener {id : UnitId} {handler : CListener → Option State}
    (stepEq : onListener state id handler = some after) :
    ∃ listener, state.objects id = some (.listener listener) ∧ handler listener = some after := by
  unfold onListener at stepEq
  split at stepEq
  · rename_i listener listens
    exact ⟨listener, listens, stepEq⟩
  · contradiction

theorem of_onConnection {id : UnitId} {handler : CConnection → Option State}
    (stepEq : onConnection state id handler = some after) :
    ∃ connection, state.objects id = some (.connection connection) ∧
      handler connection = some after := by
  unfold onConnection at stepEq
  split at stepEq
  · rename_i connection present
    exact ⟨connection, present, stepEq⟩
  · contradiction

/-- A step keeps the registries and closes what it drops. -/
theorem transition_spec (consistent : Consistent state) {label : Label P Q}
    (stepEq : transition state label = some after) :
    Consistent after ∧
      state.kernel.Accounts after.kernel (label.accepted ++ label.listened) := by
  cases label with
  | listen fd deferAccept =>
      obtain ⟨kept, -, accounts⟩ := consistent.listen stepEq
      exact ⟨kept, accounts⟩
  | accept id answer decode =>
      obtain ⟨listener, listens, handled⟩ := of_onListener stepEq
      obtain ⟨kept, -, accounts⟩ := consistent.listenerInput listens handled
      refine ⟨kept, ?_⟩
      change state.kernel.Accounts after.kernel ((answer.map Accepted.fd).toList ++ [])
      rw [List.append_nil]
      exact accounts
  | input id read decode =>
      obtain ⟨connection, present, handled⟩ := of_onConnection stepEq
      obtain ⟨kept, -, accounts⟩ := consistent.connectionInput present handled
      exact ⟨kept, accounts⟩
  | output id writev =>
      obtain ⟨connection, present, handled⟩ := of_onConnection stepEq
      obtain ⟨kept, -, -, accounts⟩ := consistent.connectionOutput present handled
      exact ⟨kept, accounts⟩
  | hangup id =>
      obtain ⟨connection, present, handled⟩ := of_onConnection stepEq
      obtain ⟨deleted, deletedEq, kept, -, -, accounts⟩ := consistent.deleteThis present
      cases deletedEq.symm.trans handled
      exact ⟨kept, accounts⟩
  | send id packet =>
      obtain ⟨kept, -, accounts⟩ := consistent.send stepEq
      exact ⟨kept, accounts⟩
  | destroy id =>
      obtain ⟨listener, listens, handled⟩ := of_onListener stepEq
      obtain ⟨deleted, deletedEq, kept, -, -, accounts⟩ := consistent.deleteThis listens
      cases deletedEq.symm.trans handled
      exact ⟨kept, accounts⟩

/-- The descriptors of a step are new ones. -/
theorem closed_of_transition {label : Label P Q} (stepEq : transition state label = some after)
    {fd : Int} (created : fd ∈ label.accepted ++ label.listened) :
    state.kernel.opened fd = false := by
  cases label with
  | listen newFd deferAccept =>
      rw [List.mem_singleton.mp created]
      change EventLoop.listen state newFd deferAccept = some after at stepEq
      unfold EventLoop.listen at stepEq
      split at stepEq
      · rename_i possible
        exact Bool.eq_false_iff.mpr possible.2.2
      · contradiction
  | accept id answer decode =>
      obtain ⟨listener, listens, handled⟩ := of_onListener stepEq
      cases answer with
      | none => exact absurd created List.not_mem_nil
      | some accepted =>
          rw [List.mem_singleton.mp created]
          simp only [State.listenerInput] at handled
          split at handled
          · contradiction
          · rename_i valid
            exact Bool.eq_false_iff.mpr (not_or.mp valid).2
  | input id read decode => exact absurd created List.not_mem_nil
  | output id writev => exact absurd created List.not_mem_nil
  | hangup id => exact absurd created List.not_mem_nil
  | send id packet => exact absurd created List.not_mem_nil
  | destroy id => exact absurd created List.not_mem_nil

theorem descends_transition (consistent : Consistent state) {label : Label P Q}
    (stepEq : transition state label = some after) :
    Descends state after (label.accepted ++ label.listened) := by
  cases label with
  | listen fd deferAccept => exact Descends.listen stepEq
  | accept id answer decode =>
      obtain ⟨listener, listens, handled⟩ := of_onListener stepEq
      have accepts := Descends.listenerInput (consistent.fresh _ (Nat.le_refl _)) listens handled
      exact accepts.trans (.refl _)
  | input id read decode =>
      obtain ⟨connection, present, handled⟩ := of_onConnection stepEq
      exact Descends.connectionInput present handled
  | output id writev =>
      obtain ⟨connection, present, handled⟩ := of_onConnection stepEq
      exact Descends.connectionOutput present handled
  | hangup id =>
      obtain ⟨connection, present, handled⟩ := of_onConnection stepEq
      exact Descends.deleteThis handled
  | send id packet => exact Descends.send stepEq
  | destroy id =>
      obtain ⟨listener, listens, handled⟩ := of_onListener stepEq
      exact Descends.deleteThis handled

theorem closesDropped (consistent : Consistent state) {label : Label P Q}
    (stepEq : transition state label = some after) : ClosesDropped state after := by
  obtain ⟨afterConsistent, accounts⟩ := transition_spec consistent stepEq
  rintro id fd positive ⟨connection, present, fdEq⟩
  have entry : state.pool.mPollUnits.lookup fd = some id :=
    fdEq ▸ consistent.live_entry id (.connection connection) present
  have interested : state.kernel.interest fd = true := by
    rw [consistent.interest, entry]
    rfl
  have old : fd ∉ label.accepted ++ label.listened := by
    intro created
    have closed := closed_of_transition stepEq created
    rw [consistent.opened fd interested] at closed
    contradiction
  have balance := accounts fd positive
  rw [List.count_eq_zero.mpr old, afterConsistent.interest, interested] at balance
  cases found : after.pool.mPollUnits.lookup fd with
  | none =>
      rw [found] at balance
      refine Or.inr ⟨?_, balance⟩
      rintro ⟨other, there, otherFd⟩
      have afterEntry : after.pool.mPollUnits.lookup fd = some id :=
        otherFd ▸ afterConsistent.live_entry id (.connection other) there
      rw [found] at afterEntry
      contradiction
  | some other =>
      rw [found] at balance
      refine Or.inl ⟨?_, Nat.succ.inj balance⟩
      obtain ⟨object, there, objectFd⟩ := afterConsistent.entry_live fd other found
      rcases descends_transition consistent stepEq other object there with
        ⟨before, was, sameFd, sameKind⟩ | made
      · -- The unit that is polled now was polled before: it is the connection.
        have same : id = other := by
          apply consistent.toPolled.eq_of_fd present was
          exact fdEq.trans (sameFd.trans objectFd).symm
        subst same
        cases present.symm.trans was
        cases object with
        | listener listener => contradiction
        | connection kept => exact ⟨kept, there, objectFd⟩
      · exact absurd (objectFd ▸ made) old

/-- What holds of a run between two steps. -/
structure Kept (run : Run) : Prop where
  consistent : Consistent run.state
  closed : ClosedOnce run

theorem kept_start (opened : Int → Bool) (self : PoolId) (epollSize : Nat) :
    Kept (start opened self epollSize) where
  consistent := by
    let kernel : Kernel := { opened := opened }
    have uninterested : ∀ fd, kernel.interest fd = false := fun _ => rfl
    apply (consistent_initial self epollSize).withKernel uninterested _ (Nat.le_refl _)
    intro fd interested
    contradiction
  closed := fun _ _ => rfl

theorem Kept.step {run next : Run} (kept : Kept run) {label : Label P Q}
    (stepEq : step run label = some next) : Kept next := by
  obtain ⟨after, transitionEq, rfl⟩ := Option.map_eq_some_iff.mp stepEq
  obtain ⟨consistent, accounts⟩ := transition_spec kept.consistent transitionEq
  refine ⟨consistent, ?_⟩
  intro fd positive
  have before := kept.closed fd positive
  have added := accounts fd positive
  rw [kept.consistent.interest, consistent.interest] at added
  simp only [List.count_append] at added ⊢
  omega

/-! ## The destruction of a listener -/

theorem none_of_deleteConnection {id : UnitId} (deleted : state.deleteConnection id = some after) :
    after.objects id = none := by
  unfold State.deleteConnection at deleted
  split at deleted
  · obtain ⟨detached, -, rfl⟩ := Option.map_eq_some_iff.mp deleted
    rw [objects_destroyUnit, Function.update_self]
  · contradiction

theorem none_of_deleteAll {order : List UnitId} {other : UnitId}
    (deleted : order.foldlM State.deleteConnection state = some after)
    (gone : other ∈ order ∨ state.objects other = none) : after.objects other = none := by
  induction order generalizing state with
  | nil =>
      cases deleted
      exact gone.resolve_left List.not_mem_nil
  | cons id rest inductionHypothesis =>
      rw [List.foldlM_cons] at deleted
      obtain ⟨between, first, others⟩ := Option.bind_eq_some_iff.mp deleted
      apply inductionHypothesis others
      rcases gone with member | unused
      · rcases List.mem_cons.mp member with same | later
        · rw [same]
          exact Or.inr (none_of_deleteConnection first)
        · exact Or.inl later
      · exact Or.inr ((Descends.deleteConnection first).none_of_none unused)

theorem destroysEach (consistent : Consistent state) {id : UnitId} {listener : CListener}
    (listens : state.objects id = some (.listener listener)) :
    DestroysEach state id listener := by
  obtain ⟨after, order, looped, -, -, -, distinct, members, inOrder, -⟩ :=
    consistent.deleteConnections listens (Nat.lt_succ_self _)
  refine ⟨after, order, looped, distinct, ?_, inOrder, ?_, ?_⟩
  · intro other
    rw [members other]
    constructor
    · rintro ⟨fd, entry⟩
      obtain ⟨connection, present, -, refers⟩ :=
        consistent.listed_connection id listener fd other listens entry
      exact ⟨connection, present, refers⟩
    · rintro ⟨connection, present, refers⟩
      obtain ⟨listenerId, sameListener, refersThere, listensThere, entry⟩ :=
        consistent.connection_listed other connection (Option.some_ne_none other).symm present
      cases refers.symm.trans refersThere
      cases listens.symm.trans listensThere
      exact ⟨connection.mFd, entry⟩
  · exact fun other member => none_of_deleteAll inOrder (Or.inl member)
  · simp only [State.deleteListener, listens, looped, Option.map_some, Option.isSome_some]

/-! ## Steps that are enabled -/

/-- The unit exists, `Decode` returns, and `accept` and `socket` return new
descriptors, for a listener while the pool has room. -/
def Enabled (state : State) : Label P Q → Prop
  | .listen fd _ => state.events.isEmpty ∧ 0 ≤ fd ∧ ¬ state.kernel.opened fd ∧
      state.pool.mPollUnits.size < state.pool.mEpollSize
  | .accept id answer decode => IsListener state id ∧
      (∀ accepted, answer = some accepted →
        0 ≤ accepted.fd ∧ ¬ state.kernel.opened accepted.fd) ∧
      ∀ received, (decode received).isSome
  | .input id _ decode => (∃ fd, Alive state id fd) ∧ ∀ received, (decode received).isSome
  | .output id _ => ∃ fd, Alive state id fd
  | .hangup id => ∃ fd, Alive state id fd
  | .send id _ => ∃ fd, Alive state id fd
  | .destroy id => IsListener state id

theorem isSome_deleteConnection (consistent : Consistent state) {id : UnitId}
    {connection : CConnection} (present : state.objects id = some (.connection connection)) :
    (state.deleteConnection id).isSome := by
  obtain ⟨after, -, -, deleted, -⟩ := consistent.deleteConnection present
  exact Option.isSome_of_eq_some deleted

theorem isSome_connectionInput (consistent : Consistent state) {id : UnitId}
    {connection : CConnection} (present : state.objects id = some (.connection connection))
    {decode : Decoder P} (returns : ∀ received, (decode received).isSome) (read : ReadResult) :
    (state.connectionInput decode id connection read).isSome := by
  have handled : ∃ outcome, connection.inputNotify decode read = some outcome := by
    apply Option.isSome_iff_exists.mp
    cases read with
    | data bytes =>
        rw [CConnection.inputNotify, Option.isSome_map]
        exact returns _
    | eof => rfl
    | retry => rfl
    | error => rfl
  obtain ⟨outcome, handled⟩ := handled
  rw [State.connectionInput, handled, Option.bind_some]
  cases outcome with
  | alive changed packets => rfl
  | destroyed => exact isSome_deleteConnection consistent present

theorem isSome_connectionOutput (consistent : Consistent state) {id : UnitId}
    {connection : CConnection} (present : state.objects id = some (.connection connection))
    (writev : WritevResult) : (state.connectionOutput id connection writev).isSome := by
  have attached := consistent.attached id _ present
  have handled : ∃ outcome, connection.outputNotify writev = some outcome := by
    unfold CConnection.outputNotify
    split
    · cases writev with
      | accepted count =>
          obtain ⟨after, finished, -⟩ := CConnection.finishOutput_spec
            { connection with mSendBuffers := (connection.mSendBuffers.eraseFront count).1 }
            attached (connection.offered.take count)
          exact ⟨_, finished⟩
      | zero => exact ⟨_, rfl⟩
      | retry => exact ⟨_, rfl⟩
      | error => exact ⟨_, rfl⟩
    · obtain ⟨after, finished, -⟩ := connection.finishOutput_spec attached []
      exact ⟨_, finished⟩
  obtain ⟨outcome, handled⟩ := handled
  rw [State.connectionOutput, handled, Option.bind_some]
  cases outcome with
  | alive changed written => rfl
  | destroyed => exact isSome_deleteConnection consistent present

theorem isSome_listenerInput (consistent : Consistent state) {id : UnitId}
    {listener : CListener} (listens : state.objects id = some (.listener listener))
    {answer : Option Accepted}
    (valid : ∀ accepted, answer = some accepted →
      0 ≤ accepted.fd ∧ ¬ state.kernel.opened accepted.fd)
    {decode : Decoder P} (returns : ∀ received, (decode received).isSome) :
    (state.listenerInput decode id listener answer).isSome := by
  cases answer with
  | none => rfl
  | some accepted =>
      obtain ⟨nonnegative, closed⟩ := valid accepted rfl
      have notNew : state.nextUnit ≠ id := by
        rintro rfl
        cases (consistent.fresh _ (Nat.le_refl _)).symm.trans listens
      have owned : listener.mOwner.isSome := consistent.attached id _ listens
      have refused : ¬ (accepted.fd < 0 ∨ state.kernel.opened accepted.fd) :=
        not_or.mpr ⟨Int.not_lt.mpr nonnegative, closed⟩
      simp only [State.listenerInput, if_neg refused]
      split
      · split
        · unfold State.listenerAttach
          rw [if_pos owned]
          rcases attachUnit_spec
            { state with
              kernel := state.kernel.create accepted.fd
              objects := Function.update state.objects state.nextUnit
                (some (.connection (CConnection.new accepted.fd)))
              nextUnit := state.nextUnit + 1 }
            state.nextUnit (CConnection.new accepted.fd).toCPollUnit accepted.granted with
            failed | succeeded
          · simp only [failed, if_true, State.deleteConnection, Function.update_self]
            rfl
          · simp only [succeeded, (by decide : ¬ (0 : Int) = -1), if_false]
            let connection : CConnection := { CConnection.new accepted.fd with
              toCPollUnit := (CConnection.new accepted.fd).attachedTo state.pool.self
              mListener := some id }
            have connectionClosed : state.kernel.opened connection.mFd = false :=
              Bool.eq_false_iff.mpr closed
            have added := consistent.accept listens connectionClosed rfl rfl
            simp only [State.setObject, Function.update_idem]
            split
            · exact isSome_connectionInput added
                ((Function.update_of_ne notNew _ _).trans (Function.update_self _ _ _)) returns _
            · rfl
        · simp only [State.deleteConnection, Function.update_self]
          rfl
      · rfl

theorem isSome_transition (consistent : Consistent state) {label : Label P Q}
    (enabled : Enabled state label) : (transition state label).isSome := by
  cases label with
  | listen fd deferAccept =>
      obtain ⟨idle, nonnegative, closed, room⟩ := enabled
      have uninterested := consistent.uninterested (Bool.eq_false_iff.mpr closed)
      have attaches : (State.attachUnit
          { state with kernel := state.kernel.create fd, nextUnit := state.nextUnit + 1 }
          state.nextUnit (CListener.new fd deferAccept).toCPollUnit true).2.2 = 0 := by
        have adds : (state.kernel.create fd).add fd true =
            ({ state.kernel.create fd with
              interest := Function.update state.kernel.interest fd true }, true) := by
          apply if_pos
          refine ⟨Function.update_self _ _ _, ?_, rfl⟩
          exact Bool.eq_false_iff.mp uninterested
        have sameFd : (CListener.new fd deferAccept).mFd = fd := rfl
        simp only [State.attachUnit, CPollPool.attachUnit, sameFd, adds,
          if_neg (Nat.not_le.mpr room), if_true]
      have possible : state.events.isEmpty ∧ 0 ≤ fd ∧ ¬ state.kernel.opened fd :=
        ⟨idle, nonnegative, closed⟩
      simp only [transition, EventLoop.listen, if_pos possible, attaches, if_true,
        Option.isSome_some]
  | accept id answer decode =>
      obtain ⟨⟨listener, listens⟩, valid, returns⟩ := enabled
      simp only [transition, onListener, listens]
      exact isSome_listenerInput consistent listens valid returns
  | input id read decode =>
      obtain ⟨⟨fd, connection, present, -⟩, returns⟩ := enabled
      simp only [transition, onConnection, present]
      exact isSome_connectionInput consistent present returns read
  | output id writev =>
      obtain ⟨fd, connection, present, -⟩ := enabled
      simp only [transition, onConnection, present]
      exact isSome_connectionOutput consistent present writev
  | hangup id =>
      obtain ⟨fd, connection, present, -⟩ := enabled
      obtain ⟨after, deleted, -⟩ := consistent.deleteThis present
      simp only [transition, onConnection, present, deleted, Option.isSome_some]
  | send id packet =>
      obtain ⟨fd, connection, present, -⟩ := enabled
      simp only [transition, EventLoop.send, present, Option.isSome_some]
  | destroy id =>
      obtain ⟨listener, listens⟩ := enabled
      obtain ⟨after, deleted, -⟩ := consistent.deleteThis listens
      simp only [transition, onListener, listens, deleted, Option.isSome_some]

/-- No step of a run goes wrong. -/
theorem isSome_step {opened : Int → Bool} {self : PoolId} {epollSize : Nat} {run : Run}
    (reachable : Reachable (step (P := P) (Q := Q)) (fun _ _ => True)
      (start opened self epollSize) run)
    {label : Label P Q} (enabled : Enabled run.state label) : (step run label).isSome := by
  have kept : Kept run := reachable.invariant (kept_start opened self epollSize)
    fun _ _ _ before _ stepEq => before.step stepEq
  rw [step, Option.isSome_map]
  exact isSome_transition kept.consistent enabled

/-- In every run the registries are exact, every descriptor is closed once, by
the step that drops its connection, and the destruction of a listener ends after
each of its connections. -/
theorem registries_exact_and_closed_once {opened : Int → Bool} {self : PoolId} {epollSize : Nat}
    {run : Run}
    (reachable : Reachable (step (P := P) (Q := Q)) (fun _ _ => True)
      (start opened self epollSize) run) :
    RegistriesExact run.state ∧ ClosedOnce run ∧
      (∀ label next, step (P := P) (Q := Q) run label = some next →
        ClosesDropped run.state next.state) ∧
      ∀ id listener, run.state.objects id = some (.listener listener) →
        DestroysEach run.state id listener := by
  have kept : Kept run := reachable.invariant (kept_start opened self epollSize)
    fun _ _ _ before _ stepEq => before.step stepEq
  refine ⟨registriesExact kept.consistent, kept.closed, ?_,
    fun _ _ listens => destroysEach kept.consistent listens⟩
  intro label next stepEq
  obtain ⟨after, transitionEq, rfl⟩ := Option.map_eq_some_iff.mp stepEq
  exact closesDropped kept.consistent transitionEq

end Invariant

/-- Two connections are accepted on one descriptor, one after the other, and
the listener is destroyed with the second one. -/
def acceptedTwice : List (Label CRequestPacket CResponsePacket) :=
  [.listen 3 1, .accept 0 (some { fd := 4 }) CTcpConnection.decode, .hangup 1,
    .accept 0 (some { fd := 4, flagged := false }) CTcpConnection.decode,
    .accept 0 (some { fd := 4 }) CTcpConnection.decode, .destroy 0]

/-- The three connections and the listener are closed. -/
theorem registries_exact_of_acceptedTwice :
    ∃ run : Run, run.state.kernel.closed = [4, 4, 4, 3] ∧ ClosedOnce run := by
  have executed : (execute (restrict step fun _ _ => True) acceptedTwice
      (start (fun fd => fd = 0) 0 4096)).map (fun run => run.state.kernel.closed) =
        some [4, 4, 4, 3] := by
    decide +kernel
  obtain ⟨run, runs, closed⟩ := Option.map_eq_some_iff.mp executed
  exact ⟨run, closed, (registries_exact_and_closed_once (Reachable.of_execute runs)).2.1⟩

end NginxFastcgi.Service.ListenerRuns
