import NginxFastcgi.Foundation.Transition
import NginxFastcgi.Network.Connection
import NginxFastcgi.Network.PollPool

/-!
# The event loop of one pool

The units of the pool are listeners and connections.  A step is the turn of
the loop in `EpollProcess` for one event, with everything the handlers and the
destructors they run do; `epoll_wait` returns a batch of events, and between
two turns a packet may be sent on a connection.

A notification is recorded with whether its unit was still an object.  One of a
destroyed unit is undefined in the source; it is recorded and no step follows.
The result `none` of an operation is another use of an object that does not
exist, an answer that the kernel does not give, or a `Decode` that does not
return.

What `OnPacket` does with the packets is left out; it does not touch the pool.
-/

namespace NginxFastcgi.Network

open Foundation.Transition

universe u v

/-! ## The listener -/

structure CListener extends CPollUnit where
  mDeferAccept : Int := 1
  mConnections : FdMap := ∅

namespace CListener

/-- A listener on a descriptor, as its constructor and `Listen` leave it. -/
def new (fd deferAccept : Int) : CListener where
  toCPollUnit := { (CPollUnit.enableInput {}).disableOutput with mFd := fd }
  mDeferAccept := deferAccept

/-- `AttachConnection`, up to the listener of the connection. -/
def attachConnection (listener : CListener) (fd : Int) (connection : UnitId) : CListener :=
  { listener with mConnections := listener.mConnections.insert fd connection }

/-- `DetachConnection`, up to the listener of the connection. -/
def detachConnection (listener : CListener) (fd : Int) : CListener :=
  { listener with mConnections := listener.mConnections.erase fd }

end CListener

namespace EventLoop

/-! ## The state -/

inductive Object
  | listener (listener : CListener)
  | connection (connection : CConnection)

def Object.unit : Object → CPollUnit
  | .listener object => object.toCPollUnit
  | .connection object => object.toCPollUnit

/-- One event of a batch. -/
structure EpollEvent where
  fd : Int
  epollin : Bool := false
  epollout : Bool := false
  epollhup : Bool := false
  epollerr : Bool := false
  epollrdhup : Bool := false

inductive Notification
  | hangup
  | rdHup
  | output
  | input

/-- A notification, and whether its unit existed. -/
structure Call where
  notification : Notification
  unit : UnitId
  live : Bool

structure State where
  kernel : Kernel := {}
  pool : CPollPool
  /-- The objects that were constructed and not destroyed. -/
  objects : UnitId → Option Object := fun _ => none
  nextUnit : UnitId := 0
  /-- The events of the batch that the loop has still to visit. -/
  events : List EpollEvent := []
  calls : List Call := []

namespace State

/-- `AttachUnit`, with the verdict of the kernel on adding the descriptor. -/
def attachUnit (state : State) (id : UnitId) (unit : CPollUnit) (granted : Bool) :
    State × CPollUnit × Int :=
  let called := state.pool.mPollUnits.size < state.pool.mEpollSize
  let added := state.kernel.add unit.mFd granted
  let attached := state.pool.attachUnit id unit added.2
  ({ state with
      kernel := if called then added.1 else state.kernel
      pool := attached.1 },
    attached.2)

/-- `DetachUnit`. -/
def detachUnit (state : State) (unit : CPollUnit) : State × CPollUnit × Int :=
  let called := (state.pool.mPollUnits.lookup unit.mFd).isSome
  let deleted := state.kernel.delete unit.mFd
  let detached := state.pool.detachUnit unit deleted.2
  ({ state with
      kernel := if called then deleted.1 else state.kernel
      pool := detached.1 },
    detached.2)

/-! ## Destruction -/

/-- `~CPollUnit`, after which the object is gone. -/
def destroyUnit (state : State) (id : UnitId) (unit : CPollUnit) : State :=
  let detached := if unit.mOwner.isSome then (state.detachUnit unit).1 else state
  { detached with
    kernel := if unit.mFd > 0 then detached.kernel.close unit.mFd else detached.kernel
    objects := Function.update detached.objects id none }

/-- `~CConnection`. -/
def detachConnection (state : State) (connection : CConnection) : Option State :=
  match connection.mListener with
  | none => some state
  | some id =>
      match state.objects id with
      | some (.listener listener) =>
          some { state with
            objects := Function.update state.objects id
              (some (.listener (listener.detachConnection connection.mFd))) }
      | _ => none

/-- `delete` of a connection. -/
def deleteConnection (state : State) (id : UnitId) : Option State :=
  match state.objects id with
  | some (.connection connection) =>
      (state.detachConnection connection).map fun detached =>
        detached.destroyUnit id connection.toCPollUnit
  | _ => none

/-- The loop of `~CListener`, for at most so many tests of its condition. -/
def deleteConnections (id : UnitId) : Nat → State → Option State
  | 0, _ => none
  | tests + 1, state =>
      match state.objects id with
      | some (.listener listener) =>
          match listener.mConnections.first with
          | none => some state
          | some connection =>
              (state.deleteConnection connection).bind (deleteConnections id tests)
      | _ => none

/-- `delete` of a listener. -/
def deleteListener (state : State) (id : UnitId) : Option State :=
  match state.objects id with
  | some (.listener listener) =>
      (deleteConnections id (listener.mConnections.size + 1) state).map fun emptied =>
        emptied.destroyUnit id listener.toCPollUnit
  | _ => none

/-- `delete this`. -/
def deleteThis (state : State) (id : UnitId) : Option State :=
  match state.objects id with
  | some (.listener _) => state.deleteListener id
  | some (.connection _) => state.deleteConnection id
  | none => none

def setObject (state : State) (id : UnitId) (object : Object) : State :=
  { state with objects := Function.update state.objects id (some object) }

end State

/-! ## Handlers -/

/-- A descriptor from `accept`, and how the calls that follow end. -/
structure Accepted where
  fd : Int
  /-- `CreateConnection` returns an object. -/
  created : Bool := true
  /-- `SetCloseExec` and `SetNonBlock` succeed. -/
  flagged : Bool := true
  /-- The kernel does not refuse to add the descriptor. -/
  granted : Bool := true
  /-- The read of the first `InputNotify`. -/
  firstRead : ReadResult := .retry

/-- What the system calls answer during one turn of the loop. -/
structure Answers where
  accepted : Option Accepted := none
  read : ReadResult := .retry
  writev : WritevResult := .retry

namespace State

variable {P : Type u} (decode : CBuffers → Option (Int × List P))

/-- `CConnection::InputNotify`. -/
def connectionInput (state : State) (id : UnitId) (connection : CConnection)
    (read : ReadResult) : Option State :=
  (connection.inputNotify decode read).bind fun
    | .alive after _ => some (state.setObject id (.connection after))
    | .destroyed => state.deleteConnection id

/-- `CConnection::OutputNotify`. -/
def connectionOutput (state : State) (id : UnitId) (connection : CConnection)
    (writev : WritevResult) : Option State :=
  (connection.outputNotify writev).bind fun
    | .alive after _ => some (state.setObject id (.connection after))
    | .destroyed => state.deleteConnection id

/-- `CListener::InputNotify` after `Accept` returned the new connection. -/
def listenerAttach (state : State) (id : UnitId) (listener : CListener)
    (newId : UnitId) (connection : CConnection) (accepted : Accepted) : Option State :=
  if listener.mOwner.isSome then
    let attached := state.attachUnit newId connection.toCPollUnit accepted.granted
    if attached.2.2 = -1 then
      attached.1.deleteConnection newId
    else
      let connection := { connection with toCPollUnit := attached.2.1, mListener := some id }
      let listed := (attached.1.setObject newId (.connection connection)).setObject id
        (.listener (listener.attachConnection connection.mFd newId))
      if listener.mDeferAccept > 0 then
        listed.connectionInput decode newId connection accepted.firstRead
      else
        some listed
  else
    none

/-- `CListener::InputNotify`. -/
def listenerInput (state : State) (id : UnitId) (listener : CListener) :
    Option Accepted → Option State
  | none => some state
  | some accepted =>
      if accepted.fd < 0 ∨ state.kernel.opened accepted.fd then
        none
      else
        let kernel := state.kernel.create accepted.fd
        if accepted.created then
          let connection := CConnection.new accepted.fd
          let constructed := { state with
            kernel := kernel
            objects := Function.update state.objects state.nextUnit
              (some (.connection connection))
            nextUnit := state.nextUnit + 1 }
          if accepted.flagged then
            constructed.listenerAttach decode id listener state.nextUnit connection accepted
          else
            constructed.deleteConnection state.nextUnit
        else
          some { state with kernel := kernel.close accepted.fd }

/-- The call of a notification, which runs the handler of a unit that exists. -/
def notify (state : State) (notification : Notification) (id : UnitId)
    (handler : State → Object → Option State) : Option State :=
  let called := { state with
    calls := state.calls ++ [⟨notification, id, (state.objects id).isSome⟩] }
  match state.objects id with
  | none => some called
  | some object => handler called object

def hangupNotify (state : State) (id : UnitId) : Option State :=
  state.notify .hangup id fun called _ => called.deleteThis id

def rdHupNotify (state : State) (id : UnitId) : Option State :=
  state.notify .rdHup id fun called _ => called.deleteThis id

def outputNotify (state : State) (id : UnitId) (answers : Answers) : Option State :=
  state.notify .output id fun called object =>
    match object with
    | .listener _ => some called
    | .connection connection => called.connectionOutput id connection answers.writev

def inputNotify (state : State) (id : UnitId) (answers : Answers) : Option State :=
  state.notify .input id fun called object =>
    match object with
    | .listener listener => called.listenerInput decode id listener answers.accepted
    | .connection connection => called.connectionInput decode id connection answers.read

/-! ## The loop -/

/-- One turn of the loop in `EpollProcess`. -/
def processEvent (state : State) (event : EpollEvent) (answers : Answers) : Option State :=
  match state.pool.mPollUnits.lookup event.fd with
  | none => some { state with kernel := (state.kernel.delete event.fd).1.close event.fd }
  | some id =>
      if event.epollhup ∨ event.epollerr then
        state.hangupNotify id
      else if event.epollrdhup then
        state.rdHupNotify id
      else
        (if event.epollout then state.outputNotify id answers else some state).bind fun next =>
          if event.epollin then next.inputNotify decode id answers else some next

end State

/-! ## Steps -/

inductive Label (Q : Type v)
  /-- A listener is constructed on a new descriptor and attached. -/
  | listen (fd deferAccept : Int)
  /-- `epoll_wait` returns these events. -/
  | wait (events : List EpollEvent)
  /-- The loop visits the next event. -/
  | event (answers : Answers)
  /-- A packet is sent on a connection. -/
  | send (id : UnitId) (packet : Q)

/-- The pool after `Init`. -/
def initial (self : PoolId) (epollSize : Nat) : State where
  pool := { self := self, mEpollSize := epollSize }

def listen (state : State) (fd deferAccept : Int) : Option State :=
  if state.events.isEmpty ∧ 0 ≤ fd ∧ ¬ state.kernel.opened fd then
    let listener := CListener.new fd deferAccept
    let created := { state with
      kernel := state.kernel.create fd
      nextUnit := state.nextUnit + 1 }
    let attached := created.attachUnit state.nextUnit listener.toCPollUnit true
    if attached.2.2 = 0 then
      some (attached.1.setObject state.nextUnit
        (.listener { listener with toCPollUnit := attached.2.1 }))
    else
      none
  else
    none

/-- A batch names registered descriptors, each at most once. -/
def wait (state : State) (events : List EpollEvent) : Option State :=
  if state.events.isEmpty ∧ 0 < state.pool.mPollUnits.size ∧ (events.map EpollEvent.fd).Nodup ∧
      ∀ event ∈ events, state.kernel.interest event.fd then
    some { state with events := events }
  else
    none

def event {P : Type u} (decode : CBuffers → Option (Int × List P)) (state : State)
    (answers : Answers) : Option State :=
  match state.events with
  | [] => none
  | event :: rest => { state with events := rest }.processEvent decode event answers

def send {Q : Type v} [CPacket Q] (state : State) (id : UnitId) (packet : Q) : Option State :=
  match state.objects id with
  | some (.connection connection) =>
      some (state.setObject id (.connection (connection.sendPacket packet).1))
  | _ => none

def transition {P : Type u} {Q : Type v} [CPacket Q]
    (decode : CBuffers → Option (Int × List P)) : Step State (Label Q)
  | state, .listen fd deferAccept => listen state fd deferAccept
  | state, .wait events => wait state events
  | state, .event answers => event decode state answers
  | state, .send id packet => send state id packet

/-- Every notification so far reached a unit that existed. -/
def NotifiesLive (state : State) : Prop :=
  ∀ call ∈ state.calls, call.live

instance (state : State) : Decidable (NotifiesLive state) :=
  inferInstanceAs (Decidable (∀ call ∈ state.calls, call.live))

def step {P : Type u} {Q : Type v} [CPacket Q] (decode : CBuffers → Option (Int × List P)) :
    Step State (Label Q) :=
  restrict (transition decode) fun state _ => NotifiesLive state

end EventLoop

end NginxFastcgi.Network
