import NginxFastcgi.Network.Registry

/-!
# Where the objects of the event loop come from

Whatever a handler does, each object it leaves was there before, with its
descriptor, or is on a descriptor that the handler was given.
-/

namespace NginxFastcgi.Network.EventLoop

open Foundation.PartialMap

universe u v

def Object.isConnection : Object → Bool
  | .listener _ => false
  | .connection _ => true

/-- Every object was one of the same kind on the same descriptor, or is on one of
the created descriptors. -/
def Descends (before after : State) (created : List Int) : Prop :=
  ∀ id object, after.objects id = some object →
    (∃ old, before.objects id = some old ∧ old.unit.mFd = object.unit.mFd ∧
      old.isConnection = object.isConnection) ∨
    object.unit.mFd ∈ created

theorem objects_destroyUnit (state : State) (id : UnitId) (unit : CPollUnit) :
    (state.destroyUnit id unit).objects = Function.update state.objects id none := by
  unfold State.destroyUnit
  split <;> rfl

namespace Descends

variable {before between after state : State} {created more : List Int} {id : UnitId}

theorem of_objects (same : after.objects = before.objects) : Descends before after created :=
  fun _ object present => Or.inl ⟨object, same ▸ present, rfl, rfl⟩

theorem refl (state : State) : Descends state state [] :=
  of_objects rfl

theorem trans (first : Descends before between created) (second : Descends between after more) :
    Descends before after (created ++ more) := by
  intro id object present
  rcases second id object present with ⟨middle, there, fdEq, kindEq⟩ | new
  · rcases first id middle there with ⟨old, was, oldFd, oldKind⟩ | made
    · exact Or.inl ⟨old, was, oldFd.trans fdEq, oldKind.trans kindEq⟩
    · exact Or.inr (List.mem_append_left _ (fdEq ▸ made))
  · exact Or.inr (List.mem_append_right _ new)

/-- Nothing comes from nothing. -/
theorem none_of_none (descends : Descends before after []) (absent : before.objects id = none) :
    after.objects id = none := by
  by_contra present
  obtain ⟨object, there⟩ := Option.ne_none_iff_exists'.mp present
  rcases descends id object there with ⟨old, was, -⟩ | made
  · rw [absent] at was
    contradiction
  · exact absurd made List.not_mem_nil

/-- An object changes but keeps its descriptor. -/
theorem setObject {old changed : Object} (present : state.objects id = some old)
    (sameFd : old.unit.mFd = changed.unit.mFd)
    (sameKind : old.isConnection = changed.isConnection) :
    Descends state (state.setObject id changed) [] := by
  intro other object there
  rcases of_insert there with ⟨rfl, rfl⟩ | ⟨-, unchanged⟩
  · exact Or.inl ⟨old, present, sameFd, sameKind⟩
  · exact Or.inl ⟨object, unchanged, rfl, rfl⟩

/-- An object is constructed on a new descriptor. -/
theorem construct {object : Object} {fd : Int}
    (objects : after.objects = Function.update before.objects id (some object))
    (sameFd : object.unit.mFd = fd) : Descends before after [fd] := by
  intro other there present
  rw [objects] at present
  rcases of_insert present with ⟨-, rfl⟩ | ⟨-, unchanged⟩
  · exact Or.inr (List.mem_singleton.mpr sameFd)
  · exact Or.inl ⟨there, unchanged, rfl, rfl⟩

/-! ## Destruction -/

theorem destroyUnit (state : State) (id : UnitId) (unit : CPollUnit) :
    Descends state (state.destroyUnit id unit) [] := by
  intro other object present
  rw [objects_destroyUnit] at present
  exact Or.inl ⟨object, (of_erase present).2, rfl, rfl⟩

theorem detachConnection {connection : CConnection}
    (detached : state.detachConnection connection = some after) : Descends state after [] := by
  unfold State.detachConnection at detached
  split at detached
  · cases detached
    exact refl _
  · rename_i listenerId refers
    split at detached
    · rename_i listener listens
      cases detached
      exact setObject listens rfl rfl
    · contradiction

theorem deleteConnection (deleted : state.deleteConnection id = some after) :
    Descends state after [] := by
  unfold State.deleteConnection at deleted
  split at deleted
  · obtain ⟨detached, detachedEq, rfl⟩ := Option.map_eq_some_iff.mp deleted
    exact (detachConnection detachedEq).trans (destroyUnit _ _ _)
  · contradiction

theorem deleteConnections {tests : Nat}
    (deleted : State.deleteConnections id tests state = some after) :
    Descends state after [] := by
  induction tests generalizing state with
  | zero => contradiction
  | succ tests inductionHypothesis =>
      unfold State.deleteConnections at deleted
      split at deleted
      · split at deleted
        · cases deleted
          exact refl _
        · obtain ⟨between, first, rest⟩ := Option.bind_eq_some_iff.mp deleted
          exact (deleteConnection first).trans (inductionHypothesis rest)
      · contradiction

theorem deleteThis (deleted : state.deleteThis id = some after) : Descends state after [] := by
  unfold State.deleteThis at deleted
  split at deleted
  · unfold State.deleteListener at deleted
    split at deleted
    · obtain ⟨emptied, looped, rfl⟩ := Option.map_eq_some_iff.mp deleted
      exact (deleteConnections looped).trans (destroyUnit _ _ _)
    · contradiction
  · exact deleteConnection deleted
  · contradiction

/-! ## Handlers -/

section Handlers

variable {P : Type u} {decode : CBuffers → Option (Int × List P)} {connection : CConnection}
  {listener : CListener}

theorem connectionInput (present : state.objects id = some (.connection connection))
    {read : ReadResult}
    (notified : state.connectionInput decode id connection read = some after) :
    Descends state after [] := by
  obtain ⟨outcome, handled, result⟩ := Option.bind_eq_some_iff.mp notified
  cases outcome with
  | alive changed packets =>
      cases result
      exact setObject present (CConnection.keeps_inputNotify handled).fd.symm rfl
  | destroyed => exact deleteConnection result

theorem connectionOutput (present : state.objects id = some (.connection connection))
    {writev : WritevResult}
    (notified : state.connectionOutput id connection writev = some after) :
    Descends state after [] := by
  obtain ⟨outcome, handled, result⟩ := Option.bind_eq_some_iff.mp notified
  cases outcome with
  | alive changed written =>
      cases result
      exact setObject present (CConnection.keeps_outputNotify handled).fd.symm rfl
  | destroyed => exact deleteConnection result

theorem send {Q : Type v} [CPacket Q] {packet : Q}
    (stepEq : send state id packet = some after) : Descends state after [] := by
  unfold EventLoop.send at stepEq
  split at stepEq
  · rename_i connection present
    cases stepEq
    exact setObject present (connection.keeps_sendPacket packet).fd.symm rfl
  · contradiction

theorem mFd_attachUnit (state : State) (id : UnitId) (unit : CPollUnit) (granted : Bool) :
    (state.attachUnit id unit granted).2.1.mFd = unit.mFd := by
  rcases attachUnit_spec state id unit granted with failed | succeeded
  · rw [failed]
  · rw [succeeded]
    rfl

theorem listen {fd deferAccept : Int}
    (stepEq : EventLoop.listen state fd deferAccept = some after) : Descends state after [fd] := by
  unfold EventLoop.listen at stepEq
  split at stepEq
  · simp only at stepEq
    split at stepEq
    · cases stepEq
      exact construct rfl (mFd_attachUnit _ _ _ _)
    · contradiction
  · contradiction

/-- A new connection is attached and listed, or deleted again. -/
theorem listenerAttach {newId : UnitId} {accepted : Accepted}
    (listens : state.objects id = some (.listener listener)) (notNew : id ≠ newId)
    (present : state.objects newId = some (.connection connection))
    (notified : state.listenerAttach decode id listener newId connection accepted = some after) :
    Descends state after [] := by
  unfold State.listenerAttach at notified
  split at notified
  · have sameFd := mFd_attachUnit state newId connection.toCPollUnit accepted.granted
    have attaches : Descends state
        (state.attachUnit newId connection.toCPollUnit accepted.granted).1 [] := of_objects rfl
    have attachedPresent : (state.attachUnit newId connection.toCPollUnit
        accepted.granted).1.objects newId = some (.connection connection) := present
    have attachedListens : (state.attachUnit newId connection.toCPollUnit
        accepted.granted).1.objects id = some (.listener listener) := listens
    generalize state.attachUnit newId connection.toCPollUnit accepted.granted = attached at *
    simp only at notified
    split at notified
    · exact attaches.trans (deleteConnection notified)
    · let changed : CConnection := { connection with
        toCPollUnit := attached.2.1, mListener := some id }
      let linked := attached.1.setObject newId (.connection changed)
      have links : Descends attached.1 linked [] := setObject attachedPresent sameFd.symm rfl
      have stillListens : linked.objects id = some (.listener listener) :=
        (Function.update_of_ne notNew _ _).trans attachedListens
      have lists : Descends linked (linked.setObject id
          (.listener (listener.attachConnection changed.mFd newId))) [] :=
        setObject stillListens rfl rfl
      have listed := (attaches.trans links).trans lists
      split at notified
      · have stillPresent : (linked.setObject id (.listener
            (listener.attachConnection changed.mFd newId))).objects newId =
            some (.connection changed) :=
          (Function.update_of_ne notNew.symm _ _).trans (Function.update_self _ _ _)
        exact listed.trans (connectionInput stillPresent notified)
      · cases notified
        exact listed
  · contradiction

theorem listenerInput (fresh : state.objects state.nextUnit = none)
    (listens : state.objects id = some (.listener listener)) {answer : Option Accepted}
    (notified : state.listenerInput decode id listener answer = some after) :
    Descends state after (answer.map Accepted.fd).toList := by
  cases answer with
  | none =>
      cases notified
      exact refl _
  | some accepted =>
      have notNew : id ≠ state.nextUnit := by
        rintro rfl
        rw [fresh] at listens
        contradiction
      simp only [State.listenerInput] at notified
      split at notified
      · contradiction
      · let constructed : State := { state with
          kernel := state.kernel.create accepted.fd
          objects := Function.update state.objects state.nextUnit
            (some (.connection (CConnection.new accepted.fd)))
          nextUnit := state.nextUnit + 1 }
        have constructs : Descends state constructed [accepted.fd] := construct rfl rfl
        split at notified
        · split at notified
          · have stillListens : constructed.objects id = some (.listener listener) :=
              (Function.update_of_ne notNew _ _).trans listens
            exact constructs.trans
              (listenerAttach stillListens notNew (Function.update_self _ _ _) notified)
          · exact constructs.trans (deleteConnection notified)
        · cases notified
          exact of_objects rfl

end Handlers

end Descends

end NginxFastcgi.Network.EventLoop
