import NginxFastcgi.Network.Registry

/-!
# Handlers and the registries

Whatever the system calls answer, the handlers of listeners and connections
and the steps between two events keep the registries consistent.
-/

namespace NginxFastcgi.Network

open Foundation.PartialMap

universe u

namespace EventLoop

namespace Consistent

variable {state after : State} (consistent : Consistent state)
include consistent

/-! ## Handlers -/

/-- Calls and nothing else may have been recorded. -/
theorem withCalls (calls : List Call) : Consistent { state with calls := calls } :=
  ⟨⟨consistent.entry_live, consistent.live_entry, consistent.attached, consistent.interest,
    consistent.opened, consistent.fresh⟩, consistent.connection_listed,
    consistent.listed_connection⟩

/-- Descriptors that are not polled may be created and closed, and identities
used up. -/
theorem withKernel {kernel : Kernel} {nextUnit : UnitId}
    (sameInterest : ∀ fd, kernel.interest fd = state.kernel.interest fd)
    (opened : ∀ fd, state.kernel.interest fd → kernel.opened fd)
    (later : state.nextUnit ≤ nextUnit) :
    Consistent { state with kernel := kernel, nextUnit := nextUnit } := by
  refine ⟨⟨consistent.entry_live, consistent.live_entry, consistent.attached, ?_, ?_, ?_⟩,
    consistent.connection_listed, consistent.listed_connection⟩
  · exact fun fd => (sameInterest fd).trans (consistent.interest fd)
  · intro fd interested
    rw [sameInterest] at interested
    exact opened fd interested
  · exact fun id beyond => consistent.fresh id (Nat.le_trans later beyond)

theorem connectionInput {P : Type u} {decode : CBuffers → Option (Int × List P)} {id : UnitId}
    {connection : CConnection} {read : ReadResult}
    (present : state.objects id = some (.connection connection))
    (notified : state.connectionInput decode id connection read = some after) :
    Consistent after ∧ after.calls = state.calls ∧ state.kernel.Accounts after.kernel [] := by
  obtain ⟨outcome, handled, result⟩ := Option.bind_eq_some_iff.mp notified
  cases outcome with
  | alive changed packets =>
      cases result
      exact ⟨consistent.setConnection present (CConnection.keeps_inputNotify handled), rfl,
        state.kernel.accounts_refl⟩
  | destroyed =>
      obtain ⟨deleted, -, -, deletedEq, deletedConsistent, sameCalls, -, -, -, -, -, accounts⟩ :=
        consistent.deleteConnection present
      cases deletedEq.symm.trans result
      exact ⟨deletedConsistent, sameCalls, accounts⟩

theorem connectionOutput {id : UnitId} {connection : CConnection} {writev : WritevResult}
    (present : state.objects id = some (.connection connection))
    (notified : state.connectionOutput id connection writev = some after) :
    Consistent after ∧ after.calls = state.calls ∧
      ((after.objects id).isSome ↔ ¬ (0 < connection.iovLength ∧ writev = .error)) ∧
      state.kernel.Accounts after.kernel [] := by
  have attached := consistent.attached id _ present
  have destroys := CConnection.outputNotify_destroyed_iff attached writev
  obtain ⟨outcome, handled, result⟩ := Option.bind_eq_some_iff.mp notified
  cases outcome with
  | alive changed written =>
      cases result
      refine ⟨consistent.setConnection present (CConnection.keeps_outputNotify handled), rfl, ?_,
        state.kernel.accounts_refl⟩
      rw [← destroys, handled]
      exact ⟨fun _ dead => (by cases dead), fun _ => isSome_insert_self _ _ _⟩
  | destroyed =>
      obtain ⟨deleted, -, -, deletedEq, deletedConsistent, sameCalls, gone, -, -, -, -, accounts⟩ :=
        consistent.deleteConnection present
      cases deletedEq.symm.trans result
      refine ⟨deletedConsistent, sameCalls, ?_, accounts⟩
      rw [gone, ← destroys, handled]
      exact ⟨fun alive => absurd alive Bool.false_ne_true, fun alive => absurd rfl alive⟩

/-- A new connection in the pool, which no listener has in its map yet. -/
theorem addConnection {connection : CConnection}
    (closed : state.kernel.opened connection.mFd = false) (attached : connection.mOwner.isSome) :
    ConsistentBut
      { state with
        kernel := { state.kernel.create connection.mFd with
          interest := Function.update state.kernel.interest connection.mFd true }
        pool := { state.pool with
          mPollUnits := state.pool.mPollUnits.insert connection.mFd state.nextUnit }
        objects := Function.update state.objects state.nextUnit (some (.connection connection))
        nextUnit := state.nextUnit + 1 } (some state.nextUnit) := by
  have unused : state.objects state.nextUnit = none := consistent.fresh _ (Nat.le_refl _)
  have kept : ∀ {other : UnitId} {object : Object}, state.objects other = some object →
      Function.update state.objects state.nextUnit (some (.connection connection)) other =
        some object := by
    intro other object present
    have notNew : other ≠ state.nextUnit := by
      rintro rfl
      cases unused.symm.trans present
    exact (Function.update_of_ne notNew _ _).trans present
  have polled := consistent.toPolled.add
    (show state.kernel.opened (Object.connection connection).unit.mFd = false from closed) attached
  refine ⟨polled, ?_, ?_⟩
  · intro other otherConnection notLoose present
    rcases of_insert present with ⟨rfl, -⟩ | ⟨-, unchanged⟩
    · exact absurd rfl notLoose
    · obtain ⟨listenerId, listener, refers, listens, entry⟩ :=
        consistent.connection_listed other otherConnection (Option.some_ne_none other).symm
          unchanged
      exact ⟨listenerId, listener, refers, kept listens, entry⟩
  · intro listenerId listener fd other listens entry
    rcases of_insert listens with ⟨-, same⟩ | ⟨-, unchanged⟩
    · cases same
    · obtain ⟨otherConnection, present, fdEq, refers⟩ :=
        consistent.listed_connection listenerId listener fd other unchanged entry
      exact ⟨otherConnection, kept present, fdEq, refers⟩

/-- A new connection in the map of its listener and in the pool. -/
theorem accept {id : UnitId} {listener : CListener} {connection : CConnection}
    (listens : state.objects id = some (.listener listener))
    (closed : state.kernel.opened connection.mFd = false)
    (attached : connection.mOwner.isSome) (refers : connection.mListener = some id) :
    Consistent
      { state with
        kernel := { state.kernel.create connection.mFd with
          interest := Function.update state.kernel.interest connection.mFd true }
        pool := { state.pool with
          mPollUnits := state.pool.mPollUnits.insert connection.mFd state.nextUnit }
        objects := Function.update
          (Function.update state.objects state.nextUnit (some (.connection connection))) id
          (some (.listener (listener.attachConnection connection.mFd state.nextUnit)))
        nextUnit := state.nextUnit + 1 } := by
  have notNew : id ≠ state.nextUnit := by
    rintro rfl
    cases (consistent.fresh _ (Nat.le_refl _)).symm.trans listens
  have added := consistent.addConnection closed attached
  exact added.attach (Function.update_self _ _ _)
    ((Function.update_of_ne notNew _ _).trans listens) refers

/-- A descriptor that was returned and at most closed again. -/
theorem withNewFd {fd : Int} (closed : state.kernel.opened fd = false) {kernel : Kernel}
    (outcome : kernel = state.kernel.create fd ∨ kernel = (state.kernel.create fd).close fd)
    {nextUnit : UnitId} (later : state.nextUnit ≤ nextUnit) :
    Consistent { state with kernel := kernel, nextUnit := nextUnit } := by
  have uninterested : state.kernel.interest fd = false := by
    rw [consistent.interest, consistent.toPolled.lookup_of_closed closed]
    rfl
  refine consistent.withKernel ?_ ?_ later
  · intro other
    rcases outcome with rfl | rfl
    · rfl
    · change Function.update state.kernel.interest fd false other = _
      rw [← uninterested, Function.update_eq_self]
  · intro other interested
    have different : other ≠ fd := by
      rintro rfl
      rw [uninterested] at interested
      contradiction
    have opened := consistent.opened other interested
    rcases outcome with rfl | rfl
    · exact (Function.update_of_ne different _ _).trans opened
    · exact (Function.update_of_ne different _ _).trans
        ((Function.update_of_ne different _ _).trans opened)

/-- A descriptor that is not open is not registered. -/
theorem uninterested {fd : Int} (closed : state.kernel.opened fd = false) :
    state.kernel.interest fd = false := by
  rw [consistent.interest, consistent.toPolled.lookup_of_closed closed]
  rfl

/-- A new connection that is in no registry is deleted again. -/
theorem deleteNew {fd : Int} (closed : state.kernel.opened fd = false)
    (deleted : State.deleteConnection
      { state with
        kernel := state.kernel.create fd
        objects := Function.update state.objects state.nextUnit
          (some (.connection (CConnection.new fd)))
        nextUnit := state.nextUnit + 1 } state.nextUnit = some after) :
    Consistent after ∧ after.calls = state.calls ∧ state.kernel.Accounts after.kernel [fd] := by
  have unused : state.objects state.nextUnit = none := consistent.fresh _ (Nat.le_refl _)
  have restored : Function.update (Function.update state.objects state.nextUnit
      (some (.connection (CConnection.new fd)))) state.nextUnit none = state.objects := by
    rw [Function.update_idem, ← unused, Function.update_eq_self]
  simp only [State.deleteConnection, Function.update_self] at deleted
  cases deleted
  refine ⟨?_, rfl, Kernel.accounts_destroyNew (consistent.uninterested closed)⟩
  have kept := consistent.withNewFd closed
    (show (if fd > 0 then (state.kernel.create fd).close fd else state.kernel.create fd) = _ ∨ _
      from (ite_eq_or_eq _ _ _).symm) (Nat.le_succ state.nextUnit)
  rw [← restored] at kept
  exact kept

/-- A new connection is attached, or deleted again. -/
theorem listenerAttach {P : Type u} {decode : CBuffers → Option (Int × List P)} {id : UnitId}
    {listener : CListener} {accepted : Accepted}
    (listens : state.objects id = some (.listener listener))
    (closed : state.kernel.opened accepted.fd = false)
    (notified : State.listenerAttach decode
      { state with
        kernel := state.kernel.create accepted.fd
        objects := Function.update state.objects state.nextUnit
          (some (.connection (CConnection.new accepted.fd)))
        nextUnit := state.nextUnit + 1 }
      id listener state.nextUnit (CConnection.new accepted.fd) accepted = some after) :
    Consistent after ∧ after.calls = state.calls ∧
      state.kernel.Accounts after.kernel [accepted.fd] := by
  have notNew : state.nextUnit ≠ id := by
    rintro rfl
    cases (consistent.fresh _ (Nat.le_refl _)).symm.trans listens
  generalize constructedEq : ({ state with
      kernel := state.kernel.create accepted.fd
      objects := Function.update state.objects state.nextUnit
        (some (.connection (CConnection.new accepted.fd)))
      nextUnit := state.nextUnit + 1 } : State) = constructed at notified
  unfold State.listenerAttach at notified
  split at notified
  · rcases attachUnit_spec constructed state.nextUnit (CConnection.new accepted.fd).toCPollUnit
      accepted.granted with failed | succeeded
    · simp only [failed, if_true] at notified
      rw [← constructedEq] at notified
      exact consistent.deleteNew closed notified
    · simp only [succeeded, (by decide : ¬ (0 : Int) = -1), if_false] at notified
      subst constructedEq
      let connection : CConnection := { CConnection.new accepted.fd with
        toCPollUnit := (CConnection.new accepted.fd).attachedTo state.pool.self
        mListener := some id }
      have attached := consistent.accept listens
        (show state.kernel.opened connection.mFd = false from closed) rfl rfl
      have registers := Kernel.accounts_register (consistent.uninterested closed)
      simp only [State.setObject, Function.update_idem] at notified
      split at notified
      · obtain ⟨afterConsistent, sameCalls, accounts⟩ := attached.connectionInput
          ((Function.update_of_ne notNew _ _).trans (Function.update_self _ _ _)) notified
        exact ⟨afterConsistent, sameCalls, registers.trans accounts⟩
      · cases notified
        exact ⟨attached, rfl, registers⟩
  · contradiction

theorem listenerInput {P : Type u} {decode : CBuffers → Option (Int × List P)} {id : UnitId}
    {listener : CListener} {answer : Option Accepted}
    (listens : state.objects id = some (.listener listener))
    (notified : state.listenerInput decode id listener answer = some after) :
    Consistent after ∧ after.calls = state.calls ∧
      state.kernel.Accounts after.kernel (answer.map Accepted.fd).toList := by
  cases answer with
  | none =>
      cases notified
      exact ⟨consistent, rfl, state.kernel.accounts_refl⟩
  | some accepted =>
      simp only [State.listenerInput] at notified
      split at notified
      · contradiction
      · rename_i valid
        have closed : state.kernel.opened accepted.fd = false :=
          Bool.eq_false_iff.mpr (not_or.mp valid).2
        split at notified
        · split at notified
          · exact consistent.listenerAttach listens closed notified
          · exact consistent.deleteNew closed notified
        · cases notified
          exact ⟨consistent.withNewFd closed (Or.inr rfl) (Nat.le_refl _), rfl,
            Kernel.accounts_closeNew (consistent.uninterested closed)⟩

/-- The descriptor of an event without a unit is closed. -/
theorem closeUnpolled {fd : Int} (unpolled : state.pool.mPollUnits.lookup fd = none) :
    Consistent { state with kernel := (state.kernel.delete fd).1.close fd } := by
  have uninterested : state.kernel.interest fd = false := by
    rw [consistent.interest, unpolled]
    rfl
  have kept : (state.kernel.delete fd).1 = state.kernel := by
    rw [Kernel.delete, if_neg (Bool.eq_false_iff.mp uninterested)]
  have released := Kernel.released_close state.kernel fd
  rw [kept]
  refine consistent.withKernel ?_ ?_ (Nat.le_refl _)
  · intro other
    by_cases same : other = fd
    · rw [same, released.uninterested, uninterested]
    · exact released.interest other same
  · intro other interested
    have different : other ≠ fd := by
      rintro rfl
      rw [uninterested] at interested
      contradiction
    exact (released.opened other different).trans (consistent.opened other interested)

/-! ## Steps between events -/

theorem listen {fd deferAccept : Int} (stepEq : listen state fd deferAccept = some after) :
    Consistent after ∧ after.calls = state.calls ∧ state.kernel.Accounts after.kernel [fd] := by
  unfold EventLoop.listen at stepEq
  split at stepEq
  · rename_i enabled
    have closed : state.kernel.opened fd = false := Bool.eq_false_iff.mpr enabled.2.2
    have unused : state.objects state.nextUnit = none := consistent.fresh _ (Nat.le_refl _)
    rcases attachUnit_spec
      { state with kernel := state.kernel.create fd, nextUnit := state.nextUnit + 1 }
      state.nextUnit (CListener.new fd deferAccept).toCPollUnit true with failed | succeeded
    · simp only [failed, (by decide : ¬ (-1 : Int) = 0), if_false] at stepEq
      contradiction
    · simp only [succeeded, if_true] at stepEq
      cases stepEq
      let listener : CListener := { CListener.new fd deferAccept with
        toCPollUnit := (CListener.new fd deferAccept).attachedTo state.pool.self }
      have polled := consistent.toPolled.add
        (show state.kernel.opened (Object.listener listener).unit.mFd = false from closed) rfl
      refine ⟨⟨polled, ?_, ?_⟩, rfl, Kernel.accounts_register (consistent.uninterested closed)⟩
      · intro other connection notLoose present
        rcases of_insert present with ⟨-, same⟩ | ⟨-, unchanged⟩
        · cases same
        · obtain ⟨listenerId, otherListener, refers, listens, entry⟩ :=
            consistent.connection_listed other connection notLoose unchanged
          have notNew : listenerId ≠ state.nextUnit := by
            rintro rfl
            cases unused.symm.trans listens
          exact ⟨listenerId, otherListener, refers,
            (Function.update_of_ne notNew _ _).trans listens, entry⟩
      · intro listenerId otherListener otherFd other listens entry
        rcases of_insert listens with ⟨-, same⟩ | ⟨-, unchanged⟩
        · cases same
          contradiction
        · obtain ⟨connection, present, fdEq, refers⟩ :=
            consistent.listed_connection listenerId otherListener otherFd other unchanged entry
          have notNew : other ≠ state.nextUnit := by
            rintro rfl
            cases unused.symm.trans present
          exact ⟨connection, (Function.update_of_ne notNew _ _).trans present, fdEq, refers⟩
  · contradiction

/-- The events still to visit play no part. -/
theorem withEvents (events : List EpollEvent) : Consistent { state with events := events } :=
  ⟨⟨consistent.entry_live, consistent.live_entry, consistent.attached, consistent.interest,
    consistent.opened, consistent.fresh⟩, consistent.connection_listed,
    consistent.listed_connection⟩

theorem wait {events : List EpollEvent} (stepEq : wait state events = some after) :
    Consistent after ∧ after.calls = state.calls := by
  unfold EventLoop.wait at stepEq
  split at stepEq
  · cases stepEq
    exact ⟨consistent.withEvents events, rfl⟩
  · contradiction

theorem send {Q : Type u} [CPacket Q] {id : UnitId} {packet : Q}
    (stepEq : send state id packet = some after) :
    Consistent after ∧ after.calls = state.calls ∧ state.kernel.Accounts after.kernel [] := by
  unfold EventLoop.send at stepEq
  split at stepEq
  · rename_i connection present
    cases stepEq
    exact ⟨consistent.setConnection present (connection.keeps_sendPacket packet), rfl,
      state.kernel.accounts_refl⟩
  · contradiction

end Consistent

end EventLoop

end NginxFastcgi.Network
