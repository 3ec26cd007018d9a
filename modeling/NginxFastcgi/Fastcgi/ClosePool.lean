import Mathlib.Data.List.AList
import NginxFastcgi.Fastcgi.ClientUnitPool
import NginxFastcgi.Network.PollShutdown
import NginxFastcgi.Thread.ThreadBase

/-!
# Closing a pool of backend units

`CloseAllClientUnit` closes and deletes the first unit until the pool is empty.
`Close` takes the unit out of the pool, interrupts its thread, and deletes its
client and its thread; it runs again in the destructor of the unit.  It forgets
the thread that it deleted and keeps the pointer to the client.

The thread of a unit is started and never let through its start gate.

An object is used or deleted through a pointer.  The result `none` of an
operation means that the object was deleted before, or that the operation does
not return: `Interrupt` joins the thread, and `UnInit` may loop for ever.  The
fuel is for the loop of `UnInit`.
-/

namespace NginxFastcgi.Fastcgi.ClosePool

open Foundation.Loop
open NginxFastcgi.Network
open NginxFastcgi.Network.PollShutdown (Results)
open NginxFastcgi.Thread

/-- The address of a `CPollThread`. -/
abbrev PollThreadId := Nat

/-- The address of a `CTcpClient`. -/
abbrev TcpClientId := Nat

inductive Object
  | clientUnit (id : ClientUnitId)
  | tcpClient (id : TcpClientId)
  | pollThread (id : PollThreadId)
  deriving DecidableEq

/-- The pointers of a unit; `none` is `NULL`. -/
structure CTcpClientUnit where
  mPollthread : Option PollThreadId := none
  mTcpclient : Option TcpClientId := none
  /-- Whether `m_owner` is the pool. -/
  mOwner : Bool := false
  deriving DecidableEq

/-- What the system answers to a unit, from `Init` to `Close`. -/
structure Answers where
  /-- The identifier of the thread, unless a call in `Start` fails. -/
  threadid : Option Nat
  /-- The thread has set its state when `Interrupt` looks at it. -/
  idle : Bool
  /-- The result of `Connect`, and the descriptor of the client. -/
  connect : Bool := true
  fd : Int := 3
  /-- `epoll_ctl` adds the client. -/
  added : Bool := true
  /-- What `epoll_ctl` returns to `UnInit`. -/
  results : Results := fun _ => true

structure CPollThread where
  base : CThreadBase := {}
  polled : PollOwners.State
  results : Results

namespace CPollThread

def new (self : PollThreadId) (answers : Answers) : CPollThread where
  polled := .new self 4096
  results := answers.results

/-- `Start` with its result.  It locks the start gate; the thread sets its state
and waits there. -/
def start (thread : CPollThread) (answers : Answers) : CPollThread × Bool :=
  let gated := { thread.base with mThreadMutex := { locked := true } }
  match answers.threadid with
  | none => ({ thread with base := gated }, false)
  | some threadid =>
      ({ thread with
          base :=
            { gated with
              mThreadid := threadid
              mThreadstate := if answers.idle then .threadIdle else .threadExit } },
        true)

/-- `AttachUnit` of a client. -/
def attachUnit (thread : CPollThread) (id : TcpClientId) (client : CPollUnit) (added : Bool) :
    CPollThread × Int :=
  let attached := thread.polled.pool.attachUnit id client added
  ({ thread with
      polled :=
        { pool := attached.1, units := thread.polled.units.insert id attached.2.1 } },
    attached.2.2)

/-- `Join`.  A thread behind the start gate ends when it gets through. -/
def join (thread : CPollThread) : Option CPollThread :=
  if thread.base.mThreadid = 0 then
    some thread
  else
    thread.base.mThreadMutex.lock.map fun _ =>
      { thread with base := { thread.base with mThreadid := 0 } }

/-- `Interrupt` with signals in use; nobody waits for the signal. -/
def interrupt (thread : CPollThread) : Option CPollThread :=
  if thread.base.nothingToStop then
    some thread
  else
    join { thread with base := thread.base.setStopFlag 1 }

/-- `UnInit`, with fuel for the turns behind the first. -/
def unInit (fuel : Nat) (thread : CPollThread) : Option CPollThread :=
  (run PollShutdown.unInit (fuel + 1) (thread.polled, thread.results)).map fun polled =>
    { thread with polled := polled }

end CPollThread

/-- The pool, the threads, and the objects in the order in which they were
deleted. -/
structure World where
  pool : CTcpClientUnitPool := {}
  threads : AList fun _ : PollThreadId => CPollThread := ∅
  deleted : List Object := []

namespace World

/-- A call through a pointer that is not null. -/
def call (world : World) : Option Object → Option World
  | none => some world
  | some object => if object ∈ world.deleted then none else some world

/-- `delete` of a pointer that is not null. -/
def delete (world : World) : Option Object → Option World
  | none => some world
  | some object =>
      if object ∈ world.deleted then
        none
      else
        some { world with deleted := world.deleted ++ [object] }

/-- `Interrupt` and `UnInit` of the thread a unit points to. -/
def stop (fuel : Nat) (world : World) : Option PollThreadId → Option World
  | none => some world
  | some id =>
      (world.call (some (.pollThread id))).bind fun called =>
        (called.threads.lookup id).bind fun thread =>
          thread.interrupt.bind fun interrupted =>
            (interrupted.unInit fuel).map fun stopped =>
              { called with threads := called.threads.insert id stopped }

end World

namespace CTcpClientUnit

/-- `AttachPool`. -/
def attachPool (unit : CTcpClientUnit) (id : ClientUnitId) (world : World) :
    CTcpClientUnit × World :=
  if unit.mOwner then
    (unit, world)
  else
    ({ unit with mOwner := true }, { world with pool := world.pool.insert (some id) })

/-- `DetachPool`. -/
def detachPool (unit : CTcpClientUnit) (id : ClientUnitId) (world : World) :
    CTcpClientUnit × World :=
  if unit.mOwner then
    ({ unit with mOwner := false }, { world with pool := world.pool.erase (some id) })
  else
    (unit, world)

/-- `Init` with its result, at the addresses of the new objects. -/
def init (unit : CTcpClientUnit) (pollthread : PollThreadId) (tcpclient : TcpClientId)
    (answers : Answers) : CTcpClientUnit × CPollThread × Bool :=
  let started := (CPollThread.new pollthread answers).start answers
  let threaded := { unit with mPollthread := some pollthread }
  if started.2 = false then
    (threaded, started.1, false)
  else
    let whole := { threaded with mTcpclient := some tcpclient }
    if answers.connect = false then
      (whole, started.1, false)
    else
      let attached := started.1.attachUnit tcpclient { mFd := answers.fd } answers.added
      (whole, attached.1, attached.2 = 0)

/-- `Close`. -/
def close (fuel : Nat) (unit : CTcpClientUnit) (id : ClientUnitId) (world : World) :
    Option (CTcpClientUnit × World) :=
  let detached := unit.detachPool id world
  (detached.2.stop fuel unit.mPollthread).bind fun stopped =>
    (stopped.call (unit.mTcpclient.map .tcpClient)).bind fun disconnected =>
      (disconnected.delete (unit.mTcpclient.map .tcpClient)).bind fun clientless =>
        (clientless.delete (unit.mPollthread.map .pollThread)).map fun closed =>
          ({ detached.1 with mPollthread := none }, closed)

/-- The destructor, after which the unit itself is deleted. -/
def destroy (fuel : Nat) (unit : CTcpClientUnit) (id : ClientUnitId) (world : World) :
    Option World :=
  (unit.close fuel id world).bind fun closed => closed.2.delete (some (.clientUnit id))

end CTcpClientUnit

structure State where
  world : World := {}
  /-- The units that live. -/
  units : AList fun _ : ClientUnitId => CTcpClientUnit := ∅

/-- `CloseOneClientUnit`. -/
def closeOneClientUnit (fuel : Nat) (state : State) : Option ClientUnitId → Option State
  | none => some state
  | some id =>
      (state.units.lookup id).bind fun unit =>
        (unit.close fuel id state.world).bind fun closed =>
          (closed.1.destroy fuel id closed.2).map fun world =>
            { world := world, units := state.units.erase id }

/-- The loop of `CloseAllClientUnit`. -/
def closeAllClientUnit (fuel : Nat) : Body State State
  | state =>
      match state.world.pool.mTcpclientunits with
      | [] => some (.done state)
      | none :: rest =>
          some (.again
            { state with
              world := { state.world with
                pool := { state.world.pool with mTcpclientunits := rest } } })
      | some id :: _ => (closeOneClientUnit fuel state (some id)).map .again

/-! ## Filling the pool -/

/-- A unit, the addresses of what `Init` makes, and what the system answers;
`none` is a unit for which `Init` was not called. -/
structure Backend where
  unit : ClientUnitId
  pollthread : PollThreadId
  tcpclient : TcpClientId
  answers : Option Answers

namespace Backend

/-- The unit as it is put into the pool. -/
def made (backend : Backend) : CTcpClientUnit :=
  match backend.answers with
  | none => {}
  | some answers => (CTcpClientUnit.init {} backend.pollthread backend.tcpclient answers).1

def pointer (backend : Backend) : Option PollThreadId :=
  backend.made.mPollthread

/-- The thread it points to. -/
def thread (backend : Backend) : Option CPollThread :=
  backend.answers.map fun answers =>
    (CTcpClientUnit.init {} backend.pollthread backend.tcpclient answers).2.1

/-- `Init` was called and succeeded. -/
def Initialised (backend : Backend) : Prop :=
  ∃ answers, backend.answers = some answers ∧
    (CTcpClientUnit.init {} backend.pollthread backend.tcpclient answers).2.2 = true

/-- `Init` was called and has started the thread. -/
def started (backend : Backend) : Bool :=
  (backend.answers.bind Answers.threadid).isSome

/-- The objects of a backend whose thread was not started. -/
def objects (backend : Backend) : List Object :=
  (backend.pointer.map Object.pollThread).toList ++ [.clientUnit backend.unit]

end Backend

/-- A new unit is put into the pool. -/
def State.add (state : State) (backend : Backend) : State :=
  let attached := backend.made.attachPool backend.unit state.world
  { world :=
      { attached.2 with
        threads :=
          match backend.thread with
          | none => attached.2.threads
          | some thread => attached.2.threads.insert backend.pollthread thread }
    units := state.units.insert backend.unit attached.1 }

def fill (backends : List Backend) : State :=
  backends.foldl State.add {}

/-- The units and the threads are different objects. -/
structure Distinct (backends : List Backend) : Prop where
  units : (backends.map Backend.unit).Nodup
  threads : (backends.filterMap Backend.pointer).Nodup

/-- Closing the pool ends, and leaves it empty with each unit and what it points
to deleted once. -/
def ReleasesOnce (backends : List Backend) : Prop :=
  ∃ fuel after, Ends (closeAllClientUnit fuel) (fill backends) after ∧
    after.world.pool.mTcpclientunits = [] ∧
    ∀ backend ∈ backends,
      after.world.deleted.count (.clientUnit backend.unit) = 1 ∧
        (∀ thread, backend.made.mPollthread = some thread →
          after.world.deleted.count (.pollThread thread) = 1) ∧
        ∀ client, backend.made.mTcpclient = some client →
          after.world.deleted.count (.tcpClient client) = 1

/-! ## Closing one unit -/

namespace World

variable {world after : World} {pointer : Option Object}

theorem call_of_fresh (fresh : ∀ object ∈ pointer, object ∉ world.deleted) :
    world.call pointer = some world := by
  cases pointer with
  | none => rfl
  | some object => exact if_neg (fresh object rfl)

theorem call_eq_some (called : world.call pointer = some after) : after = world := by
  cases pointer with
  | none =>
      cases called
      rfl
  | some object =>
      simp only [call] at called
      split at called
      · contradiction
      · cases called
        rfl

theorem call_of_deleted {object : Object} (before : object ∈ world.deleted) :
    world.call (some object) = none :=
  if_pos before

@[simp]
theorem call_none (world : World) : world.call none = some world :=
  rfl

@[simp]
theorem delete_none (world : World) : world.delete none = some world :=
  rfl

theorem delete_of_fresh (fresh : ∀ object ∈ pointer, object ∉ world.deleted) :
    world.delete pointer =
      some { world with deleted := world.deleted ++ pointer.toList } := by
  cases pointer with
  | none =>
      rw [delete, Option.toList_none, List.append_nil]
  | some object => exact if_neg (fresh object rfl)

theorem delete_eq_some (deleted : world.delete pointer = some after) :
    after.deleted = world.deleted ++ pointer.toList := by
  cases pointer with
  | none =>
      cases deleted
      rw [Option.toList_none, List.append_nil]
  | some object =>
      simp only [delete] at deleted
      split at deleted
      · contradiction
      · cases deleted
        rfl

end World

/-! ## What `Init` leaves -/

section Made

variable {backend : Backend}

/-- A unit whose thread was started has a client. -/
theorem init_unit (unit : CTcpClientUnit) (pollthread : PollThreadId) (tcpclient : TcpClientId)
    (answers : Answers) :
    (unit.init pollthread tcpclient answers).1 =
      { unit with
        mPollthread := some pollthread
        mTcpclient := if answers.threadid.isSome then some tcpclient else unit.mTcpclient } := by
  unfold CTcpClientUnit.init CPollThread.start
  cases answers.threadid with
  | none => rfl
  | some threadid => cases answers.connect <;> rfl

/-- Without a thread `Init` leaves an object that was never attached to. -/
theorem init_unstarted {answers : Answers} (unstarted : answers.threadid = none)
    (unit : CTcpClientUnit) (pollthread : PollThreadId) (tcpclient : TcpClientId) :
    (unit.init pollthread tcpclient answers).2 =
      ({ base := { mThreadMutex := { locked := true } }
         polled := .new pollthread 4096
         results := answers.results }, false) := by
  simp only [CTcpClientUnit.init, CPollThread.start, unstarted]
  rfl

theorem made_eq (backend : Backend) :
    backend.made =
      { mPollthread := backend.answers.map fun _ => backend.pollthread
        mTcpclient := if backend.started then some backend.tcpclient else none } := by
  unfold Backend.made Backend.started
  cases backend.answers with
  | none => rfl
  | some answers => exact init_unit {} backend.pollthread backend.tcpclient answers

/-- A unit points to a thread exactly when there is one. -/
theorem pointer_eq (backend : Backend) :
    backend.pointer = backend.thread.map fun _ => backend.pollthread := by
  rw [Backend.pointer, made_eq, Backend.thread, Option.map_map]
  rfl

theorem pointer_of_thread {thread : CPollThread} (threadEq : backend.thread = some thread) :
    backend.pointer = some backend.pollthread := by
  rw [pointer_eq, threadEq, Option.map_some]

theorem Backend.Initialised.started (initialised : backend.Initialised) :
    backend.started = true := by
  obtain ⟨answers, answersEq, succeeded⟩ := initialised
  rw [Backend.started, answersEq]
  cases threadid : answers.threadid with
  | none =>
      rw [init_unstarted threadid] at succeeded
      contradiction
  | some id =>
      rw [Option.bind_some, threadid]
      rfl

/-- The thread of a unit is not interrupted before it was started, and polls
nothing. -/
theorem thread_of_unstarted (unstarted : backend.started = false) (fuel : Nat)
    {thread : CPollThread} (threadEq : backend.thread = some thread) :
    thread.interrupt = some thread ∧ thread.unInit fuel = some thread := by
  obtain ⟨answers, answersEq, rfl⟩ := Option.map_eq_some_iff.mp threadEq
  rw [Backend.started, answersEq, Option.bind_some] at unstarted
  rw [init_unstarted (Option.not_isSome_iff_eq_none.mp (by simp [unstarted]))]
  exact ⟨rfl, rfl⟩

end Made

section CloseUnit

variable {unit : CTcpClientUnit} {id : ClientUnitId} {world : World} {fuel : Nat}

theorem World.stop_eq_some {pointer : Option PollThreadId} {after : World}
    (stopped : world.stop fuel pointer = some after) : after.deleted = world.deleted := by
  cases pointer with
  | none =>
      cases stopped
      rfl
  | some thread =>
      obtain ⟨called, callEq, rest⟩ := Option.bind_eq_some_iff.mp stopped
      obtain ⟨_, -, rest⟩ := Option.bind_eq_some_iff.mp rest
      obtain ⟨_, -, rest⟩ := Option.bind_eq_some_iff.mp rest
      obtain ⟨_, -, rfl⟩ := Option.map_eq_some_iff.mp rest
      cases World.call_eq_some callEq
      rfl

theorem detachPool_deleted (unit : CTcpClientUnit) (id : ClientUnitId) (world : World) :
    (unit.detachPool id world).2.deleted = world.deleted := by
  unfold CTcpClientUnit.detachPool
  split <;> rfl

/-- After `Close` the unit still points to the client it deleted. -/
theorem close_eq_some {closed : CTcpClientUnit × World}
    (closedEq : unit.close fuel id world = some closed) :
    closed.1.mTcpclient = unit.mTcpclient ∧
      ∀ client, unit.mTcpclient = some client → .tcpClient client ∈ closed.2.deleted := by
  obtain ⟨stopped, -, rest⟩ := Option.bind_eq_some_iff.mp closedEq
  obtain ⟨disconnected, -, rest⟩ := Option.bind_eq_some_iff.mp rest
  obtain ⟨clientless, clientDeleted, rest⟩ := Option.bind_eq_some_iff.mp rest
  obtain ⟨final, threadDeleted, rfl⟩ := Option.map_eq_some_iff.mp rest
  constructor
  · unfold CTcpClientUnit.detachPool
    split <;> rfl
  · intro client clientEq
    have deletedClient := World.delete_eq_some clientDeleted
    rw [World.delete_eq_some threadDeleted, deletedClient, clientEq]
    simp

/-- A second `Close` of a unit with a client uses the client again. -/
theorem close_of_deleted_client {client : TcpClientId} (clientEq : unit.mTcpclient = some client)
    (before : .tcpClient client ∈ world.deleted) : unit.close fuel id world = none := by
  by_contra returns
  obtain ⟨closed, closedEq⟩ := Option.ne_none_iff_exists'.mp returns
  obtain ⟨stopped, stopEq, rest⟩ := Option.bind_eq_some_iff.mp closedEq
  obtain ⟨disconnected, called, -⟩ := Option.bind_eq_some_iff.mp rest
  rw [clientEq, Option.map_some, World.call_of_deleted (by
    rw [World.stop_eq_some stopEq, detachPool_deleted]
    exact before)] at called
  contradiction

/-- A thread that was not started is passed over. -/
theorem stop_unstarted (fuel : Nat) (world : World) {backend : Backend}
    (unstarted : backend.started = false)
    (threads : ∀ thread, backend.thread = some thread →
      world.threads.lookup backend.pollthread = some thread)
    (fresh : ∀ object ∈ backend.pointer.map Object.pollThread, object ∉ world.deleted) :
    ∃ stopped, world.stop fuel backend.pointer = some stopped ∧
      stopped.pool = world.pool ∧ stopped.deleted = world.deleted ∧
      ∀ other, stopped.threads.lookup other = world.threads.lookup other := by
  rw [pointer_eq] at fresh ⊢
  cases threadEq : backend.thread with
  | none => exact ⟨world, rfl, rfl, rfl, fun _ => rfl⟩
  | some thread =>
      obtain ⟨interrupted, emptied⟩ := thread_of_unstarted unstarted fuel threadEq
      have found := threads thread threadEq
      have called : world.call (some (.pollThread backend.pollthread)) = some world := by
        apply World.call_of_fresh
        rwa [threadEq] at fresh
      refine ⟨{ world with threads := world.threads.insert backend.pollthread thread },
        ?_, rfl, rfl, fun other => ?_⟩
      · simp only [Option.map_some, World.stop, called, found, interrupted, emptied,
          Option.bind_some]
      · by_cases same : other = backend.pollthread
        · rw [same, AList.lookup_insert, found]
        · exact AList.lookup_insert_ne same

/-- What `Close` does to a unit in the pool whose thread was not started. -/
theorem close_unstarted (fuel : Nat) {backend : Backend} (unstarted : backend.started = false)
    (threads : ∀ thread, backend.thread = some thread →
      world.threads.lookup backend.pollthread = some thread)
    (fresh : ∀ object ∈ backend.pointer.map Object.pollThread,
      object ∉ world.deleted) :
    ∃ closed, CTcpClientUnit.close fuel { backend.made with mOwner := true } backend.unit world =
        some ({}, closed) ∧
      closed.pool = world.pool.erase (some backend.unit) ∧
      closed.deleted =
        world.deleted ++ (backend.pointer.map Object.pollThread).toList ∧
      ∀ other, closed.threads.lookup other = world.threads.lookup other := by
  have thread : backend.made.mPollthread = backend.pointer := rfl
  have noClient : backend.made.mTcpclient = none := by
    rw [made_eq, unstarted]
    rfl
  obtain ⟨stopped, stopEq, poolEq, deletedEq, threadsEq⟩ :=
    stop_unstarted fuel { world with pool := world.pool.erase (some backend.unit) } unstarted
      threads fresh
  have deleted := World.delete_of_fresh
    (show ∀ object ∈ backend.pointer.map Object.pollThread, object ∉ stopped.deleted by
      rwa [deletedEq])
  refine ⟨{ stopped with deleted := stopped.deleted ++
    (backend.pointer.map Object.pollThread).toList }, ?_, poolEq, ?_, threadsEq⟩
  · simp only [CTcpClientUnit.close, CTcpClientUnit.detachPool, if_true, thread, stopEq,
      Option.bind_some, noClient, Option.map_none, World.call_none, World.delete_none,
      deleted, Option.map_some]
  · rw [deletedEq]

theorem close_closed (fuel : Nat) (id : ClientUnitId) (world : World) :
    CTcpClientUnit.close fuel {} id world = some ({}, world) :=
  rfl

end CloseUnit

/-! ## One turn -/

/-- The units that are left in the pool, with the pointers they came with. -/
structure Remaining (backends : List Backend) (state : State) : Prop where
  pool_eq : state.world.pool.mTcpclientunits = backends.map fun backend => some backend.unit
  living : ∀ backend ∈ backends, state.units.lookup backend.unit =
    some { backend.made with mOwner := true }
  threads : ∀ backend ∈ backends, ∀ thread, backend.thread = some thread →
    state.world.threads.lookup backend.pollthread = some thread
  fresh : ∀ backend ∈ backends, ∀ object ∈ backend.objects, object ∉ state.world.deleted

section Turn

variable {state : State} {backend : Backend} {backends : List Backend}

/-- The turn for a unit whose thread was started goes wrong, if it ends. -/
theorem turn_of_started (fuel : Nat) (remaining : Remaining (backend :: backends) state)
    (started : backend.started = true) : closeAllClientUnit fuel state = none := by
  have living := remaining.living backend List.mem_cons_self
  have clientEq : backend.made.mTcpclient = some backend.tcpclient := by
    rw [made_eq, started]
    rfl
  have wrong : closeOneClientUnit fuel state (some backend.unit) = none := by
    simp only [closeOneClientUnit, living, Option.bind_some]
    rw [Option.bind_eq_none_iff]
    intro closed closedEq
    obtain ⟨samePointer, deleted⟩ := close_eq_some closedEq
    rw [CTcpClientUnit.destroy,
      close_of_deleted_client (samePointer.trans clientEq) (deleted _ clientEq)]
    rfl
  simp only [closeAllClientUnit, remaining.pool_eq, List.map_cons, wrong, Option.map_none]

theorem mem_objects_iff {object : Object} :
    object ∈ backend.objects ↔
      (∃ thread, backend.pointer = some thread ∧ object = .pollThread thread) ∨
        object = .clientUnit backend.unit := by
  simp only [Backend.objects, List.mem_append, Option.mem_toList,
    Option.map_eq_some_iff, List.mem_singleton, @eq_comm _ _ object]

theorem Distinct.tail (distinct : Distinct (backend :: backends)) : Distinct backends := by
  refine ⟨(List.nodup_cons.mp distinct.units).2, ?_⟩
  exact distinct.threads.sublist ((List.sublist_cons_self backend backends).filterMap _)

theorem Distinct.unit_ne (distinct : Distinct (backend :: backends)) {other : Backend}
    (member : other ∈ backends) : other.unit ≠ backend.unit := by
  intro same
  exact (List.nodup_cons.mp distinct.units).1 (same ▸ List.mem_map_of_mem member)

theorem Distinct.thread_ne (distinct : Distinct (backend :: backends)) {other : Backend}
    (member : other ∈ backends) {thread : PollThreadId}
    (threadEq : backend.pointer = some thread) :
    other.pointer ≠ some thread := by
  intro same
  have nodup := distinct.threads
  rw [List.filterMap_cons_some threadEq] at nodup
  exact (List.nodup_cons.mp nodup).1 (List.mem_filterMap.mpr ⟨other, member, same⟩)

/-- The order of the backends plays no part. -/
theorem Distinct.perm (distinct : Distinct backends) {others : List Backend}
    (reordered : backends.Perm others) : Distinct others :=
  ⟨(reordered.map _).nodup_iff.mp distinct.units,
    (reordered.filterMap _).nodup_iff.mp distinct.threads⟩

/-- Different backends have different objects. -/
theorem Distinct.objects_disjoint (distinct : Distinct (backend :: backends)) {other : Backend}
    (member : other ∈ backends) {object : Object} (isOther : object ∈ other.objects) :
    object ∉ backend.objects := by
  intro isFirst
  rcases mem_objects_iff.mp isOther with ⟨thread, threadEq, rfl⟩ | rfl
  · rcases mem_objects_iff.mp isFirst with ⟨same, sameEq, objectEq⟩ | objectEq
    · cases objectEq
      exact distinct.thread_ne member sameEq threadEq
    · contradiction
  · rcases mem_objects_iff.mp isFirst with ⟨thread, -, objectEq⟩ | objectEq
    · contradiction
    · exact distinct.unit_ne member (Object.clientUnit.inj objectEq)

/-- The turn for a unit whose thread was not started deletes the thread and the
unit. -/
theorem turn_of_unstarted (fuel : Nat) (distinct : Distinct (backend :: backends))
    (remaining : Remaining (backend :: backends) state) (unstarted : backend.started = false) :
    ∃ next, closeAllClientUnit fuel state = some (.again next) ∧ Remaining backends next ∧
      next.world.deleted = state.world.deleted ++ backend.objects := by
  have living := remaining.living backend List.mem_cons_self
  have fresh := remaining.fresh backend List.mem_cons_self
  obtain ⟨closed, closeEq, poolEq, deletedEq, threadsEq⟩ :=
    close_unstarted fuel unstarted (remaining.threads backend List.mem_cons_self)
      fun object isThread => fresh object
        (List.mem_append_left _ (Option.mem_toList.mpr isThread))
  have freshUnit : .clientUnit backend.unit ∉ closed.deleted := by
    rw [deletedEq, List.mem_append, not_or]
    refine ⟨fresh _ (mem_objects_iff.mpr (Or.inr rfl)), ?_⟩
    simp
  have allDeleted : closed.deleted ++ [.clientUnit backend.unit] =
      state.world.deleted ++ backend.objects := by
    rw [deletedEq, Backend.objects, List.append_assoc]
  have poolLeft : closed.pool.mTcpclientunits = backends.map fun other => some other.unit := by
    rw [poolEq, CTcpClientUnitPool.erase, remaining.pool_eq, List.map_cons, List.erase_cons_head]
  refine ⟨
    { world := { closed with deleted := closed.deleted ++ [.clientUnit backend.unit] }
      units := state.units.erase backend.unit }, ?_, ⟨poolLeft, ?_, ?_, ?_⟩, allDeleted⟩
  · simp only [closeAllClientUnit, remaining.pool_eq, List.map_cons, closeOneClientUnit, living,
      Option.bind_some, closeEq, CTcpClientUnit.destroy, close_closed, World.delete,
      if_neg freshUnit, Option.map_some]
  · intro other member
    rw [AList.lookup_erase_ne (distinct.unit_ne member)]
    exact remaining.living other (List.mem_cons_of_mem _ member)
  · intro other member thread threadEq
    exact (threadsEq other.pollthread).trans
      (remaining.threads other (List.mem_cons_of_mem _ member) thread threadEq)
  · intro other member object isObject
    show object ∉ closed.deleted ++ [.clientUnit backend.unit]
    rw [allDeleted, List.mem_append, not_or]
    exact ⟨remaining.fresh other (List.mem_cons_of_mem _ member) object isObject,
      distinct.objects_disjoint member isObject⟩

end Turn

/-! ## The whole loop -/

/-- A loop that ends met no unit whose thread was started. -/
theorem unstarted_of_ends {backends : List Backend} (distinct : Distinct backends) {fuel : Nat}
    {state after : State} (remaining : Remaining backends state)
    (ends : Ends (closeAllClientUnit fuel) state after) :
    ∀ backend ∈ backends, backend.started = false := by
  induction backends generalizing state with
  | nil => exact nofun
  | cons backend backends inductionHypothesis =>
      cases startedEq : backend.started with
      | true =>
          have wrong := turn_of_started fuel remaining startedEq
          cases ends with
          | done bodyEq => exact nomatch wrong.symm.trans bodyEq
          | again bodyEq _ => exact nomatch wrong.symm.trans bodyEq
      | false =>
          obtain ⟨next, turn, remainingNext, -⟩ :=
            turn_of_unstarted fuel distinct remaining startedEq
          cases ends with
          | done bodyEq => exact nomatch turn.symm.trans bodyEq
          | again bodyEq rest =>
              cases turn.symm.trans bodyEq
              have others := inductionHypothesis distinct.tail remainingNext rest
              intro other member
              rcases List.mem_cons.mp member with rfl | member
              · exact startedEq
              · exact others other member

/-- Where no thread was started the loop ends, and deletes the objects of one
unit after the other. -/
theorem ends_of_unstarted (fuel : Nat) {backends : List Backend} (distinct : Distinct backends)
    {state : State} (remaining : Remaining backends state)
    (unstarted : ∀ backend ∈ backends, backend.started = false) :
    ∃ after, Ends (closeAllClientUnit fuel) state after ∧
      after.world.pool.mTcpclientunits = [] ∧
      after.world.deleted = state.world.deleted ++ backends.flatMap Backend.objects := by
  induction backends generalizing state with
  | nil =>
      have empty : state.world.pool.mTcpclientunits = [] := remaining.pool_eq
      refine ⟨state, .done ?_, empty, ?_⟩
      · simp only [closeAllClientUnit, empty]
      · rw [List.flatMap_nil, List.append_nil]
  | cons backend backends inductionHypothesis =>
      obtain ⟨next, turn, remainingNext, deleted⟩ :=
        turn_of_unstarted fuel distinct remaining (unstarted backend List.mem_cons_self)
      obtain ⟨after, ends, empty, deletedAll⟩ := inductionHypothesis distinct.tail remainingNext
        fun other member => unstarted other (List.mem_cons_of_mem _ member)
      refine ⟨after, .again turn ends, empty, ?_⟩
      rw [deletedAll, deleted, List.flatMap_cons, List.append_assoc]

theorem count_clientUnit (backends : List Backend) (id : ClientUnitId) :
    (backends.flatMap Backend.objects).count (.clientUnit id) =
      (backends.map Backend.unit).count id := by
  induction backends with
  | nil => rfl
  | cons backend backends inductionHypothesis =>
      rw [List.flatMap_cons, List.count_append, inductionHypothesis, List.map_cons,
        List.count_cons, Nat.add_comm]
      congr 1
      cases thread : backend.pointer <;> simp [Backend.objects, thread, List.count_cons]

theorem count_pollThread (backends : List Backend) (id : PollThreadId) :
    (backends.flatMap Backend.objects).count (.pollThread id) =
      (backends.filterMap Backend.pointer).count id := by
  induction backends with
  | nil => rfl
  | cons backend backends inductionHypothesis =>
      rw [List.flatMap_cons, List.count_append, inductionHypothesis]
      cases thread : backend.pointer with
      | none =>
          rw [List.filterMap_cons_none thread]
          simp [Backend.objects, thread]
      | some first =>
          rw [List.filterMap_cons_some thread, List.count_cons, Nat.add_comm]
          congr 1
          simp [Backend.objects, thread, List.count_cons]

/-! ## A filled pool -/

theorem remaining_add {backends : List Backend} {backend : Backend} {state : State}
    (remaining : Remaining backends state) (nothing : state.world.deleted = [])
    (distinct : Distinct (backend :: backends)) :
    Remaining (backends ++ [backend]) (state.add backend) ∧
      (state.add backend).world.deleted = [] := by
  have attached : backend.made.attachPool backend.unit state.world =
      ({ backend.made with mOwner := true },
        { state.world with pool := state.world.pool.insert (some backend.unit) }) := by
    rw [CTcpClientUnit.attachPool, if_neg (by rw [made_eq]; exact Bool.false_ne_true)]
  have nothingAfter : (state.add backend).world.deleted = [] := by
    rw [State.add, attached]
    exact nothing
  refine ⟨⟨?_, ?_, ?_, ?_⟩, nothingAfter⟩
  · rw [State.add, attached, List.map_append, List.map_singleton, ← remaining.pool_eq]
    rfl
  · intro other member
    rw [State.add, attached]
    rcases List.mem_append.mp member with member | member
    · refine (AList.lookup_insert_ne ?_).trans (remaining.living other member)
      exact distinct.unit_ne member
    · rw [List.mem_singleton.mp member]
      exact AList.lookup_insert _
  · intro other member thread threadEq
    rw [State.add, attached]
    have before : other ∈ backends → state.world.threads.lookup other.pollthread = some thread :=
      fun earlier => remaining.threads other earlier thread threadEq
    rcases List.mem_append.mp member with member | member
    · cases lastEq : backend.thread with
      | none => exact before member
      | some last =>
          refine (AList.lookup_insert_ne fun same => ?_).trans (before member)
          exact distinct.thread_ne member (pointer_of_thread lastEq)
            ((pointer_of_thread threadEq).trans (congrArg some same))
    · rw [List.mem_singleton.mp member] at threadEq ⊢
      simp only [threadEq]
      exact AList.lookup_insert _
  · intro other _ object _
    rw [nothingAfter]
    exact List.not_mem_nil

/-- A pool filled with different units. -/
theorem remaining_fill {backends : List Backend} (distinct : Distinct backends) :
    Remaining backends (fill backends) ∧ (fill backends).world.deleted = [] := by
  induction backends using List.reverseRecOn with
  | nil => exact ⟨⟨rfl, nofun, nofun, nofun⟩, rfl⟩
  | append_singleton backends backend inductionHypothesis =>
      have lastFirst := distinct.perm (List.perm_append_singleton backend backends)
      obtain ⟨remaining, nothing⟩ := inductionHypothesis lastFirst.tail
      rw [fill, List.foldl_append]
      exact remaining_add remaining nothing lastFirst

/-- Closing the pool releases everything once exactly when no unit in it has got
as far as starting its thread; with units that `Init` succeeded for, when it is
empty. -/
theorem releasesOnce_iff (backends : List Backend) (distinct : Distinct backends) :
    (ReleasesOnce backends ↔ ∀ backend ∈ backends, backend.started = false) ∧
      ((∀ backend ∈ backends, backend.Initialised) → (ReleasesOnce backends ↔ backends = [])) := by
  obtain ⟨remaining, nothing⟩ := remaining_fill distinct
  have exactly : ReleasesOnce backends ↔ ∀ backend ∈ backends, backend.started = false := by
    constructor
    · rintro ⟨fuel, after, ends, -⟩
      exact unstarted_of_ends distinct remaining ends
    · intro unstarted
      obtain ⟨after, ends, empty, deleted⟩ := ends_of_unstarted 0 distinct remaining unstarted
      rw [nothing, List.nil_append] at deleted
      refine ⟨0, after, ends, empty, fun backend member => ?_⟩
      rw [deleted, count_clientUnit]
      refine ⟨?_, fun thread threadEq => ?_, fun client clientEq => ?_⟩
      · exact List.count_eq_one_of_mem distinct.units (List.mem_map_of_mem member)
      · rw [count_pollThread]
        exact List.count_eq_one_of_mem distinct.threads
          (List.mem_filterMap.mpr ⟨backend, member, threadEq⟩)
      · rw [made_eq, unstarted backend member] at clientEq
        contradiction
  refine ⟨exactly, fun initialised => exactly.trans ⟨fun unstarted => ?_, ?_⟩⟩
  · refine List.eq_nil_iff_forall_not_mem.mpr fun backend member => ?_
    exact Bool.false_ne_true ((unstarted backend member).symm.trans
      (initialised backend member).started)
  · rintro rfl
    exact nofun

/-- The first unit was not initialised, and the thread of the second one was not
started. -/
theorem releasesOnce_unstarted :
    ReleasesOnce [⟨0, 0, 0, none⟩, ⟨1, 1, 1, some { threadid := none, idle := false }⟩] :=
  (releasesOnce_iff _ ⟨by decide, by decide⟩).1.mpr (by decide)

/-- A unit for which `Init` succeeded. -/
def initialised (idle : Bool) : Backend :=
  ⟨0, 0, 0, some { threadid := some 1, idle := idle }⟩

/-- The thread of the only unit waits at its start gate, and `Join` for it; or
`Interrupt` finds no thread yet, and the client is used after it was deleted. -/
theorem not_releasesOnce :
    (∀ idle, (initialised idle).Initialised) ∧ ∀ idle, ¬ ReleasesOnce [initialised idle] := by
  constructor
  · intro idle
    exact ⟨_, rfl, by cases idle <;> rfl⟩
  · rintro idle ⟨fuel, after, ends, -⟩
    have distinct : Distinct [initialised idle] := ⟨List.nodup_singleton _, List.nodup_singleton _⟩
    have unstarted := unstarted_of_ends distinct (remaining_fill distinct).1 ends
    exact absurd (unstarted _ List.mem_cons_self) (by cases idle <;> decide)

/-- `Interrupt` does not return, with nothing deleted yet. -/
example : ((initialised true).thread.bind CPollThread.interrupt).isNone = true := by
  decide

/-- The first `Close` returns. -/
example : ((initialised false).made.close 1 0 (fill [initialised false]).world).map
    (fun closed => (closed.1.mTcpclient, closed.2.deleted)) =
      some (some 0, [.tcpClient 0, .pollThread 0]) := by
  decide

end NginxFastcgi.Fastcgi.ClosePool
