import NginxFastcgi.Foundation.ObjectIndex
import NginxFastcgi.Foundation.PartialMap
import NginxFastcgi.Network.EventLoop
import NginxFastcgi.Network.Kernel

/-!
# The registries of the event loop

Between two turns of the loop the objects, the map of the pool, the interest
list of the kernel and the maps of the listeners agree.  Destructors take an
object out of all of them at once.
-/

namespace NginxFastcgi.Network

open Foundation.ObjectIndex
open Foundation.PartialMap

namespace EventLoop

/-- The objects, the map of the pool and the interest list agree. -/
structure Polled (state : State) : Prop where
  entry_live : ∀ fd id, state.pool.mPollUnits.lookup fd = some id →
    ∃ object, state.objects id = some object ∧ object.unit.mFd = fd
  live_entry : ∀ id object, state.objects id = some object →
    state.pool.mPollUnits.lookup object.unit.mFd = some id
  attached : ∀ id object, state.objects id = some object → object.unit.mOwner.isSome
  interest : ∀ fd, state.kernel.interest fd = (state.pool.mPollUnits.lookup fd).isSome
  opened : ∀ fd, state.kernel.interest fd → state.kernel.opened fd
  fresh : ∀ id, state.nextUnit ≤ id → state.objects id = none

/-- The maps of the listeners agree with them too, except that one connection
may be missing. -/
structure ConsistentBut (state : State) (loose : Option UnitId) : Prop extends Polled state where
  connection_listed : ∀ id connection, loose ≠ some id →
    state.objects id = some (.connection connection) →
    ∃ listenerId listener, connection.mListener = some listenerId ∧
      state.objects listenerId = some (.listener listener) ∧
      listener.mConnections.lookup connection.mFd = some id
  listed_connection : ∀ listenerId listener fd id,
    state.objects listenerId = some (.listener listener) →
    listener.mConnections.lookup fd = some id →
    ∃ connection, state.objects id = some (.connection connection) ∧ connection.mFd = fd ∧
      connection.mListener = some listenerId

/-- The registries agree. -/
abbrev Consistent (state : State) : Prop :=
  ConsistentBut state none

theorem consistent_initial (self : PoolId) (epollSize : Nat) :
    Consistent (initial self epollSize) where
  entry_live := fun _ _ found => by simp [initial] at found
  live_entry := fun _ _ present => by simp [initial] at present
  attached := fun _ _ present => by simp [initial] at present
  interest := fun _ => rfl
  opened := fun _ interested => by simp [initial] at interested
  fresh := fun _ _ => rfl
  connection_listed := fun _ _ _ present => by simp [initial] at present
  listed_connection := fun _ _ _ _ present => by simp [initial] at present

namespace Polled

variable {state : State}

/-- The pool indexes all objects by their descriptors. -/
theorem of_indexes
    (indexes : Indexes (fun fd => state.pool.mPollUnits.lookup fd) state.objects
      (fun object => object.unit.mFd) fun _ => True)
    (attached : ∀ id object, state.objects id = some object → object.unit.mOwner.isSome)
    (interest : ∀ fd, state.kernel.interest fd = (state.pool.mPollUnits.lookup fd).isSome)
    (opened : ∀ fd, state.kernel.interest fd → state.kernel.opened fd)
    (fresh : ∀ id, state.nextUnit ≤ id → state.objects id = none) : Polled state where
  entry_live := by
    intro fd id found
    obtain ⟨object, present, fdEq, -⟩ := (indexes fd id).mp found
    exact ⟨object, present, fdEq⟩
  live_entry := fun _ _ present => indexes.entry present trivial
  attached := attached
  interest := interest
  opened := opened
  fresh := fresh

variable (polled : Polled state)
include polled

theorem indexes : Indexes (fun fd => state.pool.mPollUnits.lookup fd) state.objects
    (fun object => object.unit.mFd) fun _ => True := by
  intro fd id
  constructor
  · intro found
    obtain ⟨object, present, fdEq⟩ := polled.entry_live fd id found
    exact ⟨object, present, fdEq, trivial⟩
  · rintro ⟨object, present, rfl, -⟩
    exact polled.live_entry id object present

theorem distinct : DistinctKeys state.objects fun object => object.unit.mFd :=
  polled.indexes.distinct fun _ => trivial

theorem interest_of_live {id : UnitId} {object : Object}
    (present : state.objects id = some object) : state.kernel.interest object.unit.mFd := by
  rw [polled.interest, polled.live_entry id object present]
  rfl

/-- Two objects with one descriptor are one object. -/
theorem eq_of_fd {first second : UnitId} {firstObject secondObject : Object}
    (firstPresent : state.objects first = some firstObject)
    (secondPresent : state.objects second = some secondObject)
    (sameFd : firstObject.unit.mFd = secondObject.unit.mFd) : first = second :=
  polled.distinct first second firstObject secondObject firstPresent secondPresent sameFd

/-- An object changes but keeps its descriptor and its pool. -/
theorem setObject {id : UnitId} {object changed : Object}
    (present : state.objects id = some object)
    (sameFd : changed.unit.mFd = object.unit.mFd) (attached : changed.unit.mOwner.isSome) :
    Polled (state.setObject id changed) := by
  refine of_indexes ?_ ?_ polled.interest polled.opened ?_
  · exact polled.indexes.replace_listed polled.distinct present trivial sameFd trivial
  · intro other otherObject otherPresent
    rcases of_insert otherPresent with ⟨rfl, rfl⟩ | ⟨-, unchanged⟩
    · exact attached
    · exact polled.attached other otherObject unchanged
  · intro other later
    have different : other ≠ id := by
      rintro rfl
      rw [polled.fresh other later] at present
      contradiction
    exact (Function.update_of_ne different _ _).trans (polled.fresh other later)

/-- A descriptor that is not open is not polled. -/
theorem lookup_of_closed {fd : Int} (closed : state.kernel.opened fd = false) :
    state.pool.mPollUnits.lookup fd = none := by
  have uninterested : state.kernel.interest fd = false := by
    by_contra interested
    rw [polled.opened fd (Bool.not_eq_false _ ▸ interested)] at closed
    contradiction
  rw [polled.interest] at uninterested
  exact Option.not_isSome_iff_eq_none.mp (Bool.eq_false_iff.mp uninterested)

/-- A new object on a new descriptor is added. -/
theorem add {object : Object} (closed : state.kernel.opened object.unit.mFd = false)
    (attached : object.unit.mOwner.isSome) :
    Polled
      { state with
        kernel := { state.kernel.create object.unit.mFd with
          interest := Function.update state.kernel.interest object.unit.mFd true }
        pool := { state.pool with
          mPollUnits := state.pool.mPollUnits.insert object.unit.mFd state.nextUnit }
        objects := Function.update state.objects state.nextUnit (some object)
        nextUnit := state.nextUnit + 1 } := by
  have unused : state.objects state.nextUnit = none := polled.fresh _ (Nat.le_refl _)
  refine of_indexes ?_ ?_ ?_ ?_ ?_
  · simp only [lookup_insert_eq_update]
    exact polled.indexes.insert_new unused (polled.lookup_of_closed closed) trivial
  · intro id other present
    rcases of_insert present with ⟨-, rfl⟩ | ⟨-, unchanged⟩
    · exact attached
    · exact polled.attached id other unchanged
  · intro fd
    change Function.update state.kernel.interest object.unit.mFd true fd = _
    by_cases same : fd = object.unit.mFd
    · rw [same, Function.update_self, AList.lookup_insert]
      rfl
    · rw [Function.update_of_ne same, AList.lookup_insert_ne same]
      exact polled.interest fd
  · intro fd interested
    change Function.update state.kernel.interest object.unit.mFd true fd = true at interested
    change Function.update state.kernel.opened object.unit.mFd true fd = true
    by_cases same : fd = object.unit.mFd
    · rw [same, Function.update_self]
    · rw [Function.update_of_ne same] at interested ⊢
      exact polled.opened fd interested
  · intro id later
    have different : id ≠ state.nextUnit := Nat.ne_of_gt later
    exact (Function.update_of_ne different _ _).trans
      (polled.fresh id (Nat.le_of_succ_le later))

/-- An object goes, with its entry and the interest in its descriptor. -/
theorem remove {id : UnitId} {object : Object} (present : state.objects id = some object)
    {kernel : Kernel} (released : state.kernel.Released kernel object.unit.mFd) :
    Polled
      { state with
        kernel := kernel
        pool := { state.pool with
          mPollUnits := state.pool.mPollUnits.erase object.unit.mFd }
        objects := Function.update state.objects id none } := by
  refine of_indexes ?_ ?_ ?_ ?_ ?_
  · simp only [lookup_erase_eq_update]
    exact polled.indexes.withdraw polled.distinct present nofun
  · intro other otherObject otherPresent
    exact polled.attached other otherObject (of_erase otherPresent).2
  · intro fd
    by_cases same : fd = object.unit.mFd
    · rw [same, released.uninterested, AList.lookup_erase]
      rfl
    · rw [released.interest fd same, AList.lookup_erase_ne same]
      exact polled.interest fd
  · intro fd interested
    have different : fd ≠ object.unit.mFd := by
      rintro rfl
      rw [released.uninterested] at interested
      contradiction
    rw [released.interest fd different] at interested
    exact (released.opened fd different).trans (polled.opened fd interested)
  · intro other later
    by_cases gone : other = id
    · rw [gone]
      exact Function.update_self _ _ _
    · exact (Function.update_of_ne gone _ _).trans (polled.fresh other later)

end Polled

/-! ## Attaching -/

/-- `AttachUnit` fails and changes nothing, or puts the unit into the pool. -/
theorem attachUnit_spec (state : State) (id : UnitId) (unit : CPollUnit) (granted : Bool) :
    state.attachUnit id unit granted = (state, unit, -1) ∨
      state.attachUnit id unit granted =
        ({ state with
            kernel := { state.kernel with
              interest := Function.update state.kernel.interest unit.mFd true }
            pool := { state.pool with
              mPollUnits := state.pool.mPollUnits.insert unit.mFd id } },
          unit.attachedTo state.pool.self, 0) := by
  have attachEq : state.attachUnit id unit granted =
      ({ state with
          kernel := (state.pool.attach state.kernel id unit granted).2.1
          pool := (state.pool.attach state.kernel id unit granted).1 },
        (state.pool.attach state.kernel id unit granted).2.2) := rfl
  rw [attachEq]
  rcases state.pool.attach_cases state.kernel id unit granted with ⟨-, attached⟩ | refused
  · right
    rw [attached]
  · left
    rw [refused]

/-- `AttachConnection` puts the missing connection into the map of its listener. -/
theorem ConsistentBut.attach {state : State} {id listenerId : UnitId}
    {connection : CConnection} {listener : CListener} (unlisted : ConsistentBut state (some id))
    (present : state.objects id = some (.connection connection))
    (listens : state.objects listenerId = some (.listener listener))
    (refers : connection.mListener = some listenerId) :
    Consistent
      (state.setObject listenerId (.listener (listener.attachConnection connection.mFd id))) := by
  have attached : (listener.attachConnection connection.mFd id).mOwner.isSome :=
    unlisted.attached listenerId _ listens
  have kept : ∀ {other : UnitId} {otherConnection : CConnection},
      state.objects other = some (.connection otherConnection) →
      Function.update state.objects listenerId
        (some (.listener (listener.attachConnection connection.mFd id))) other =
          some (.connection otherConnection) := by
    intro other otherConnection otherPresent
    have notListener : other ≠ listenerId := by
      rintro rfl
      cases listens.symm.trans otherPresent
    exact (Function.update_of_ne notListener _ _).trans otherPresent
  refine ⟨unlisted.toPolled.setObject listens rfl attached, ?_, ?_⟩
  · intro other otherConnection _ otherPresent
    rcases of_insert otherPresent with ⟨-, same⟩ | ⟨-, unchanged⟩
    · cases same
    by_cases isLoose : other = id
    · subst isLoose
      cases present.symm.trans unchanged
      exact ⟨listenerId, _, refers, Function.update_self _ _ _, AList.lookup_insert _⟩
    · obtain ⟨otherListenerId, otherListener, otherRefers, otherListens, entry⟩ :=
        unlisted.connection_listed other otherConnection
          (fun same => isLoose (Option.some.inj same).symm) unchanged
      by_cases same : otherListenerId = listenerId
      · subst same
        cases listens.symm.trans otherListens
        have otherFd : otherConnection.mFd ≠ connection.mFd := fun sameFd =>
          isLoose (unlisted.toPolled.eq_of_fd unchanged present sameFd)
        exact ⟨otherListenerId, _, otherRefers, Function.update_self _ _ _,
          (AList.lookup_insert_ne otherFd).trans entry⟩
      · exact ⟨otherListenerId, otherListener, otherRefers,
          (Function.update_of_ne same _ _).trans otherListens, entry⟩
  · intro otherListenerId otherListener fd other otherListens entry
    rcases of_insert otherListens with ⟨rfl, same⟩ | ⟨-, unchanged⟩
    · cases same
      by_cases sameFd : fd = connection.mFd
      · subst sameFd
        rw [CListener.attachConnection, AList.lookup_insert] at entry
        cases entry
        exact ⟨connection, kept present, rfl, refers⟩
      · rw [CListener.attachConnection, AList.lookup_insert_ne sameFd] at entry
        obtain ⟨otherConnection, otherPresent, fdEq, otherRefers⟩ :=
          unlisted.listed_connection otherListenerId listener fd other listens entry
        exact ⟨otherConnection, kept otherPresent, fdEq, otherRefers⟩
    · obtain ⟨otherConnection, otherPresent, fdEq, otherRefers⟩ :=
        unlisted.listed_connection otherListenerId otherListener fd other unchanged entry
      exact ⟨otherConnection, kept otherPresent, fdEq, otherRefers⟩

/-! ## Destruction -/

/-- Destroying an attached unit takes it out of the pool. -/
theorem destroyUnit_spec {state : State} {id : UnitId} {unit : CPollUnit}
    (attached : unit.mOwner.isSome) (found : state.pool.mPollUnits.lookup unit.mFd = some id)
    (interested : state.kernel.interest unit.mFd) :
    ∃ kernel, state.kernel.Released kernel unit.mFd ∧ state.kernel.Accounts kernel [] ∧
      state.destroyUnit id unit =
        { state with
          kernel := kernel
          pool := { state.pool with mPollUnits := state.pool.mPollUnits.erase unit.mFd }
          objects := Function.update state.objects id none } := by
  have deleted := Kernel.released_delete interested
  have succeeded : (state.kernel.delete unit.mFd).2 = true := by
    rw [Kernel.delete, if_pos interested]
  have detached : (state.detachUnit unit).1 =
      { state with
        kernel := (state.kernel.delete unit.mFd).1
        pool := { state.pool with mPollUnits := state.pool.mPollUnits.erase unit.mFd } } := by
    simp only [State.detachUnit, CPollPool.detachUnit, found, succeeded, Option.isSome_some,
      if_true]
  refine ⟨if unit.mFd > 0 then (state.kernel.delete unit.mFd).1.close unit.mFd
    else (state.kernel.delete unit.mFd).1, ?_, Kernel.accounts_release interested, ?_⟩
  · split
    · exact deleted.trans (Kernel.released_close _ _)
    · exact deleted
  · rw [State.destroyUnit, if_pos attached, detached]

namespace ConsistentBut

variable {state : State} {loose : Option UnitId} (consistent : ConsistentBut state loose)
include consistent

/-- An object that no other one refers to may go. -/
theorem remove {id : UnitId} {object : Object} (present : state.objects id = some object)
    (onlyLoose : ∀ other, loose = some other → other = id)
    {kernel : Kernel} (released : state.kernel.Released kernel object.unit.mFd)
    (unlisted : ∀ listenerId listener fd, state.objects listenerId = some (.listener listener) →
      listener.mConnections.lookup fd ≠ some id)
    (unused : ∀ other connection, other ≠ id →
      state.objects other = some (.connection connection) → connection.mListener ≠ some id) :
    Consistent
      { state with
        kernel := kernel
        pool := { state.pool with
          mPollUnits := state.pool.mPollUnits.erase object.unit.mFd }
        objects := Function.update state.objects id none } := by
  refine ⟨consistent.toPolled.remove present released, ?_, ?_⟩
  · intro other connection _ otherPresent
    obtain ⟨notGone, unchanged⟩ := of_erase otherPresent
    obtain ⟨listenerId, listener, refers, listens, listed⟩ :=
      consistent.connection_listed other connection (fun isLoose =>
        notGone (onlyLoose other isLoose)) unchanged
    have stays : listenerId ≠ id := by
      rintro rfl
      exact unused other connection notGone unchanged refers
    exact ⟨listenerId, listener, refers, (Function.update_of_ne stays _ _).trans listens, listed⟩
  · intro listenerId listener fd other listens listed
    obtain ⟨-, unchanged⟩ := of_erase listens
    obtain ⟨connection, otherPresent, fdEq, refers⟩ :=
      consistent.listed_connection listenerId listener fd other unchanged listed
    have notGone : other ≠ id := by
      rintro rfl
      exact unlisted listenerId listener fd unchanged listed
    exact ⟨connection, (Function.update_of_ne notGone _ _).trans otherPresent, fdEq, refers⟩

/-- No connection refers to a connection. -/
theorem unused_of_connection {id : UnitId} {connection : CConnection}
    (present : state.objects id = some (.connection connection))
    (onlyLoose : ∀ other, loose = some other → other = id) (other : UnitId)
    (otherConnection : CConnection) (different : other ≠ id)
    (otherPresent : state.objects other = some (.connection otherConnection)) :
    otherConnection.mListener ≠ some id := by
  intro otherRefers
  obtain ⟨listenerId, listener, refersThere, listens, -⟩ :=
    consistent.connection_listed other otherConnection
      (fun same => different (onlyLoose other same)) otherPresent
  cases otherRefers.symm.trans refersThere
  cases present.symm.trans listens

/-- No listener lists a listener. -/
theorem unlisted_of_listener {id : UnitId} {listener : CListener}
    (present : state.objects id = some (.listener listener)) (otherId : UnitId)
    (other : CListener) (fd : Int) (otherListens : state.objects otherId = some (.listener other)) :
    other.mConnections.lookup fd ≠ some id := by
  intro entry
  obtain ⟨connection, listed, -⟩ :=
    consistent.listed_connection otherId other fd id otherListens entry
  cases present.symm.trans listed

/-- The unit of an object that no other one refers to may be destroyed. -/
theorem destroyUnit {id : UnitId} {object : Object} (present : state.objects id = some object)
    (onlyLoose : ∀ other, loose = some other → other = id)
    (unlisted : ∀ listenerId listener fd, state.objects listenerId = some (.listener listener) →
      listener.mConnections.lookup fd ≠ some id)
    (unused : ∀ other connection, other ≠ id →
      state.objects other = some (.connection connection) → connection.mListener ≠ some id) :
    Consistent (state.destroyUnit id object.unit) ∧
      (state.destroyUnit id object.unit).calls = state.calls ∧
      (state.destroyUnit id object.unit).objects = Function.update state.objects id none ∧
      state.kernel.Accounts (state.destroyUnit id object.unit).kernel [] := by
  obtain ⟨kernel, released, accounts, destroyed⟩ := destroyUnit_spec
    (consistent.attached id object present) (consistent.live_entry id object present)
    (consistent.toPolled.interest_of_live present)
  rw [destroyed]
  exact ⟨consistent.remove present onlyLoose released unlisted unused, rfl, rfl, accounts⟩

end ConsistentBut

namespace Consistent

variable {state after : State} (consistent : Consistent state)
include consistent

/-- A connection changes but keeps its descriptor, its pool and its listener. -/
theorem setConnection {id : UnitId} {connection changed : CConnection}
    (present : state.objects id = some (.connection connection))
    (kept : connection.Keeps changed) :
    Consistent (state.setObject id (.connection changed)) := by
  have attached : changed.mOwner.isSome := by
    rw [kept.owner]
    exact consistent.attached id _ present
  refine ⟨consistent.toPolled.setObject present kept.fd attached, ?_, ?_⟩
  · intro other otherConnection notLoose otherPresent
    have listed : ∃ listenerId listener, otherConnection.mListener = some listenerId ∧
        state.objects listenerId = some (.listener listener) ∧
        listener.mConnections.lookup otherConnection.mFd = some other := by
      rcases of_insert otherPresent with ⟨rfl, same⟩ | ⟨-, unchanged⟩
      · cases same
        rw [kept.fd, kept.listener]
        exact consistent.connection_listed other connection notLoose present
      · exact consistent.connection_listed other otherConnection notLoose unchanged
    obtain ⟨listenerId, listener, refers, listens, entry⟩ := listed
    have notChanged : listenerId ≠ id := by
      rintro rfl
      cases listens.symm.trans present
    exact ⟨listenerId, listener, refers, (Function.update_of_ne notChanged _ _).trans listens,
      entry⟩
  · intro listenerId listener fd other listens entry
    rcases of_insert listens with ⟨-, same⟩ | ⟨-, unchanged⟩
    · cases same
    · obtain ⟨otherConnection, otherPresent, fdEq, refers⟩ :=
        consistent.listed_connection listenerId listener fd other unchanged entry
      by_cases same : other = id
      · subst same
        cases present.symm.trans otherPresent
        exact ⟨changed, Function.update_self _ _ _, kept.fd.trans fdEq,
          kept.listener.trans refers⟩
      · exact ⟨otherConnection, (Function.update_of_ne same _ _).trans otherPresent, fdEq, refers⟩

/-- `~CConnection` takes the connection out of the map of its listener. -/
theorem detach {id listenerId : UnitId} {connection : CConnection} {listener : CListener}
    (present : state.objects id = some (.connection connection))
    (listens : state.objects listenerId = some (.listener listener)) :
    ConsistentBut
      (state.setObject listenerId (.listener (listener.detachConnection connection.mFd)))
      (some id) := by
  have attached : (listener.detachConnection connection.mFd).mOwner.isSome :=
    consistent.attached listenerId _ listens
  refine ⟨consistent.toPolled.setObject listens rfl attached, ?_, ?_⟩
  · intro other otherConnection notLoose otherPresent
    have different : other ≠ id := fun same => notLoose (congrArg some same.symm)
    rcases of_insert otherPresent with ⟨-, same⟩ | ⟨-, unchanged⟩
    · cases same
    · obtain ⟨otherListenerId, otherListener, refers, otherListens, entry⟩ :=
        consistent.connection_listed other otherConnection (Option.some_ne_none other).symm
          unchanged
      by_cases same : otherListenerId = listenerId
      · subst same
        cases listens.symm.trans otherListens
        have otherFd : otherConnection.mFd ≠ connection.mFd := fun sameFd =>
          different (consistent.toPolled.eq_of_fd unchanged present sameFd)
        exact ⟨otherListenerId, _, refers, Function.update_self _ _ _,
          (AList.lookup_erase_ne otherFd).trans entry⟩
      · exact ⟨otherListenerId, otherListener, refers,
          (Function.update_of_ne same _ _).trans otherListens, entry⟩
  · intro otherListenerId otherListener fd other otherListens entry
    have listed : ∃ otherConnection, state.objects other = some (.connection otherConnection) ∧
        otherConnection.mFd = fd ∧ otherConnection.mListener = some otherListenerId := by
      rcases of_insert otherListens with ⟨rfl, same⟩ | ⟨-, unchanged⟩
      · cases same
        exact consistent.listed_connection otherListenerId listener fd other listens
          (FdMap.lookup_erase_iff.mp entry).2
      · exact consistent.listed_connection otherListenerId otherListener fd other unchanged entry
    obtain ⟨otherConnection, otherPresent, fdEq, refers⟩ := listed
    have notListener : other ≠ listenerId := by
      rintro rfl
      cases listens.symm.trans otherPresent
    exact ⟨otherConnection, (Function.update_of_ne notListener _ _).trans otherPresent, fdEq,
      refers⟩

/-- A connection is listed under its descriptor only. -/
theorem fd_of_listed {id listenerId : UnitId} {connection : CConnection} {listener : CListener}
    {fd : Int} (present : state.objects id = some (.connection connection))
    (listens : state.objects listenerId = some (.listener listener))
    (entry : listener.mConnections.lookup fd = some id) : connection.mFd = fd := by
  obtain ⟨listed, listedPresent, fdEq, -⟩ :=
    consistent.listed_connection listenerId listener fd id listens entry
  cases present.symm.trans listedPresent
  exact fdEq

/-- Deleting a connection takes it out of all registries. -/
theorem deleteConnection {id : UnitId} {connection : CConnection}
    (present : state.objects id = some (.connection connection)) :
    ∃ after listenerId listener, state.deleteConnection id = some after ∧ Consistent after ∧
      after.calls = state.calls ∧ after.objects id = none ∧
      connection.mListener = some listenerId ∧
      state.objects listenerId = some (.listener listener) ∧
      listener.mConnections.lookup connection.mFd = some id ∧
      after.objects listenerId =
        some (.listener (listener.detachConnection connection.mFd)) ∧
      state.kernel.Accounts after.kernel [] := by
  obtain ⟨listenerId, listener, refers, listens, entry⟩ :=
    consistent.connection_listed id connection (Option.some_ne_none id).symm present
  have detached := consistent.detach present listens
  have notListener : id ≠ listenerId := by
    rintro rfl
    cases listens.symm.trans present
  generalize detachedEq : state.setObject listenerId
    (.listener (listener.detachConnection connection.mFd)) = between at detached
  have stillPresent : between.objects id = some (.connection connection) := by
    rw [← detachedEq]
    exact (Function.update_of_ne notListener _ _).trans present
  have nowListens : between.objects listenerId =
      some (.listener (listener.detachConnection connection.mFd)) := by
    rw [← detachedEq]
    exact Function.update_self _ _ _
  have sameKernel : between.kernel = state.kernel := by
    rw [← detachedEq]
    rfl
  have detachEq : state.detachConnection connection = some between := by
    rw [State.detachConnection, refers]
    simp only [listens]
    exact congrArg some detachedEq
  have unlisted : ∀ otherListenerId otherListener fd,
      between.objects otherListenerId = some (.listener otherListener) →
      otherListener.mConnections.lookup fd ≠ some id := by
    intro otherListenerId otherListener fd otherListens otherEntry
    obtain ⟨otherConnection, otherPresent, fdEq, otherRefers⟩ :=
      detached.listed_connection otherListenerId otherListener fd id otherListens otherEntry
    cases stillPresent.symm.trans otherPresent
    cases refers.symm.trans otherRefers
    cases nowListens.symm.trans otherListens
    rw [CListener.detachConnection, fdEq, AList.lookup_erase] at otherEntry
    contradiction
  have onlyLoose : ∀ other, some id = some other → other = id := fun other same =>
    (Option.some.inj same).symm
  obtain ⟨afterConsistent, sameCalls, objects, accounts⟩ := detached.destroyUnit stillPresent
    onlyLoose unlisted (detached.unused_of_connection stillPresent onlyLoose)
  refine ⟨_, listenerId, listener, ?_, afterConsistent, ?_, ?_, refers, listens, entry, ?_,
    sameKernel ▸ accounts⟩
  · rw [State.deleteConnection, present]
    simp only [detachEq, Option.map_some]
    rfl
  · rw [sameCalls, ← detachedEq]
    rfl
  · rw [objects]
    exact Function.update_self _ _ _
  · rw [objects, Function.update_of_ne notListener.symm]
    exact nowListens

/-- The loop of `~CListener` deletes every connection of the listener, each
once. -/
theorem deleteConnections {id : UnitId} {listener : CListener} {tests : Nat}
    (listens : state.objects id = some (.listener listener))
    (enough : listener.mConnections.size < tests) :
    ∃ (after : State) (order : List UnitId),
      State.deleteConnections id tests state = some after ∧ Consistent after ∧
      after.calls = state.calls ∧
      after.objects id = some (.listener { listener with mConnections := ∅ }) ∧
      order.Nodup ∧
      (∀ connectionId, connectionId ∈ order ↔
        ∃ fd, listener.mConnections.lookup fd = some connectionId) ∧
      order.foldlM State.deleteConnection state = some after ∧
      state.kernel.Accounts after.kernel [] := by
  induction tests generalizing state listener with
  | zero => contradiction
  | succ tests inductionHypothesis =>
      cases found : listener.mConnections.first with
      | none =>
          have empty := FdMap.eq_empty_of_first_eq_none found
          refine ⟨state, [], ?_, consistent, rfl, ?_, List.nodup_nil, ?_, rfl,
            state.kernel.accounts_refl⟩
          · simp only [State.deleteConnections, listens, found]
          · rw [listens, ← empty]
          · intro connectionId
            rw [empty]
            simp
      | some connectionId =>
          obtain ⟨fd, entry⟩ := FdMap.lookup_of_first_eq_some found
          obtain ⟨connection, present, fdEq, refers⟩ :=
            consistent.listed_connection id listener fd connectionId listens entry
          obtain ⟨between, listenerId, sameListener, deleted, betweenConsistent, sameCalls, -,
            refersThere, listensThere, -, nowListens, accounts⟩ :=
            consistent.deleteConnection present
          cases refers.symm.trans refersThere
          cases listens.symm.trans listensThere
          have smaller : (listener.detachConnection connection.mFd).mConnections.size < tests := by
            have sizes := FdMap.size_erase entry
            rw [fdEq]
            change (AList.erase fd listener.mConnections).keys.length < tests
            omega
          obtain ⟨after, order, rest, afterConsistent, afterCalls, emptied, distinct, members,
            inOrder, restAccounts⟩ := inductionHypothesis betweenConsistent nowListens smaller
          have otherEntries : ∀ other, other ∈ order ↔ ∃ otherFd, otherFd ≠ fd ∧
              listener.mConnections.lookup otherFd = some other := by
            intro other
            rw [members other, fdEq]
            exact exists_congr fun otherFd => FdMap.lookup_erase_iff
          refine ⟨after, connectionId :: order, ?_, afterConsistent, afterCalls.trans sameCalls,
            emptied, List.nodup_cons.mpr ⟨?_, distinct⟩, ?_, ?_, accounts.trans restAccounts⟩
          · simp only [State.deleteConnections, listens, found, deleted, Option.bind_some]
            exact rest
          · intro again
            obtain ⟨otherFd, different, otherEntry⟩ := (otherEntries connectionId).mp again
            exact different ((consistent.fd_of_listed present listens otherEntry).symm.trans fdEq)
          · intro other
            rw [List.mem_cons, otherEntries other]
            exact (FdMap.exists_lookup_iff entry other).symm
          · rw [List.foldlM_cons, deleted]
            exact inOrder

/-- `delete this` takes the unit out of all registries. -/
theorem deleteThis {id : UnitId} {object : Object} (present : state.objects id = some object) :
    ∃ after, state.deleteThis id = some after ∧ Consistent after ∧ after.calls = state.calls ∧
      after.objects id = none ∧ state.kernel.Accounts after.kernel [] := by
  cases object with
  | connection connection =>
      obtain ⟨after, -, -, deleted, afterConsistent, sameCalls, gone, -, -, -, -, accounts⟩ :=
        consistent.deleteConnection present
      refine ⟨after, ?_, afterConsistent, sameCalls, gone, accounts⟩
      rw [State.deleteThis, present]
      exact deleted
  | listener listener =>
      obtain ⟨emptied, -, looped, emptiedConsistent, sameCalls, listens, -, -, -, accounts⟩ :=
        consistent.deleteConnections present (Nat.lt_succ_self _)
      have unused : ∀ other connection, other ≠ id →
          emptied.objects other = some (.connection connection) →
          connection.mListener ≠ some id := by
        intro other connection _ otherPresent refers
        obtain ⟨listenerId, sameListener, refersThere, listensThere, entry⟩ :=
          emptiedConsistent.connection_listed other connection (Option.some_ne_none other).symm
            otherPresent
        cases refers.symm.trans refersThere
        cases listens.symm.trans listensThere
        contradiction
      obtain ⟨afterConsistent, destroyCalls, objects, destroyAccounts⟩ :=
        emptiedConsistent.destroyUnit listens
          (fun other same => absurd same.symm (Option.some_ne_none other))
          (emptiedConsistent.unlisted_of_listener listens) unused
      refine ⟨_, ?_, afterConsistent, destroyCalls.trans sameCalls, ?_,
        accounts.trans destroyAccounts⟩
      · rw [State.deleteThis, present]
        simp only [State.deleteListener, present, looped, Option.map_some]
        rfl
      · rw [objects]
        exact Function.update_self _ _ _

end Consistent

end EventLoop

end NginxFastcgi.Network
