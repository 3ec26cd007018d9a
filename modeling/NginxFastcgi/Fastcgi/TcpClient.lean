import NginxFastcgi.Foundation.Transition
import NginxFastcgi.Network.PollPool

/-!
# `CTcpClient`, reconnecting to a backend

`DoSomething` calls `Reconnect`, which connects a new socket and attaches the
client to the poll thread of its unit.  `AttachClient` returns the number that
`AttachUnit` returns, zero for success, as a truth value.

A step is one call with the answers of the system calls in it.  The address of
the server is left to these answers, and so is whether requests are waiting,
which other threads decide.
-/

namespace NginxFastcgi.Fastcgi.TcpClient

open Foundation.Transition
open NginxFastcgi.Network

/-! ## The call -/

/-- What `poll` reports within five seconds.  A socket whose connection failed
is ready as well. -/
inductive PollResult
  | ready (established : Bool)
  | notReady

inductive ConnectResult
  | established
  | inProgress (poll : PollResult)
  | failed

/-- `Connect` finds the connection established, or takes it to be. -/
def ConnectResult.taken : ConnectResult → Bool
  | .established => true
  | .inProgress (.ready _) => true
  | _ => false

/-- There is a connection. -/
def ConnectResult.real : ConnectResult → Bool
  | .established => true
  | .inProgress (.ready connected) => connected
  | _ => false

/-- The answers of the system calls in one call of `Reconnect`. -/
structure Attempt where
  socket : Int
  setCloseExec : Bool := true
  setNonBlock : Bool := true
  connect : ConnectResult := .established
  /-- The kernel does not refuse to add the descriptor. -/
  granted : Bool := true
  requestsEmpty : Bool := true

/-- How a call ended. -/
inductive Verdict
  | returned (result : Bool)
  /-- A call through a null owner. -/
  | crashed
  deriving DecidableEq

structure State where
  /-- The identity of the client. -/
  self : UnitId
  client : CPollUnit := {}
  /-- `m_pollthread` of the unit of the client. -/
  pollthread : Option CPollPool
  kernel : Kernel := {}
  established : Int → Bool := fun _ => false
  /-- The descriptors that attempts were given. -/
  sockets : List Int := []
  /-- The verdict of the last call, if there was one. -/
  verdict : Option Verdict := none

namespace State

/-- The client after `m_fd = socket(..)`. -/
def withSocket (state : State) (fd : Int) : State :=
  { state with
    client := { state.client with mFd := fd }
    kernel := if fd = -1 then state.kernel else state.kernel.create fd
    sockets := if fd = -1 then state.sockets else state.sockets ++ [fd] }

def connect (state : State) (attempt : Attempt) : State × Bool :=
  if state.client.mFd > 0 then
    (state, true)
  else
    let created := state.withSocket attempt.socket
    if created.client.mFd = -1 then
      (created, false)
    else if ¬ attempt.setCloseExec then
      (created, false)
    else if ¬ attempt.setNonBlock then
      (created, false)
    else
      ({ created with
          established := Function.update created.established created.client.mFd
            attempt.connect.real },
        attempt.connect.taken)

/-- `Close`. -/
def closeClient (state : State) : State :=
  if state.client.mFd > 0 then
    { state with
      client := { state.client with mFd := -1 }
      kernel := state.kernel.close state.client.mFd }
  else
    state

/-- `CTcpClientUnit::AttachClient`, which returns an `int` as a `bool`. -/
def attachClient (state : State) (granted : Bool) : State × Bool :=
  match state.pollthread with
  | none => (state, false)
  | some pool =>
      let attached := pool.attach state.kernel state.self state.client granted
      ({ state with
          pollthread := some attached.1
          kernel := attached.2.1
          client := attached.2.2.1 },
        attached.2.2.2 ≠ 0)

def isConnect (state : State) : Bool :=
  state.client.mFd > 0

/-- `Reconnect`; the result `none` is a call through a null owner. -/
def reconnect (state : State) (attempt : Attempt) : Option (State × Bool) :=
  if state.isConnect then
    some (state, true)
  else
    let connected := state.connect attempt
    if connected.2 = false then
      some (connected.1, false)
    else
      let enabled := { connected.1 with client := connected.1.client.enableInput.enableOutput }
      let attached := enabled.attachClient attempt.granted
      if attached.2 = false then
        some (attached.1.closeClient, false)
      else if attempt.requestsEmpty then
        attached.1.client.mOwner.map fun _ => (attached.1, true)
      else
        some (attached.1, true)

end State

/-- One call; nothing follows a call through a null owner. -/
def step : Step State Attempt
  | state, attempt =>
      if state.verdict = some .crashed then
        none
      else
        match state.reconnect attempt with
        | none => some { state with verdict := some .crashed }
        | some (after, result) => some { after with verdict := some (.returned result) }

/-! ## All or nothing -/

/-- The descriptor is open and connected, and the poll thread maps it to the
client. -/
structure Connected (state : State) : Prop where
  opened : state.kernel.opened state.client.mFd = true
  established : state.established state.client.mFd = true
  listed : ∃ pool, state.pollthread = some pool ∧
    pool.mPollUnits.lookup state.client.mFd = some state.self

/-- The client has no descriptor and no owner, every descriptor that an attempt
was given is closed, and the poll thread does not know the client. -/
structure Disconnected (state : State) : Prop where
  fd_eq : state.client.mFd = -1
  no_owner : state.client.mOwner = none
  closed : ∀ fd ∈ state.sockets, state.kernel.opened fd = false
  unlisted : ∀ pool, state.pollthread = some pool →
    ∀ fd, pool.mPollUnits.lookup fd ≠ some state.self

/-- The last call left what its result says. -/
def AllOrNothing (state : State) : Prop :=
  match state.verdict with
  | none => True
  | some (.returned true) => Connected state
  | some (.returned false) => Disconnected state
  | some .crashed => False

/-- The flags are set and the connection is taken to be established. -/
def Attempt.Connects (attempt : Attempt) : Prop :=
  attempt.setCloseExec = true ∧ attempt.setNonBlock = true ∧ attempt.connect.taken = true

/-- There is no socket, or there is no poll thread to attach a connected client
to. -/
def EndsAfresh (state : State) (attempt : Attempt) : Prop :=
  attempt.socket = -1 ∨
    state.pollthread = none ∧ 0 < attempt.socket ∧ attempt.Connects

variable {state : State}

theorem connect_of_refused {attempt : Attempt} (unconnected : ¬ state.client.mFd > 0)
    (refused : attempt.socket ≠ -1 → ¬ attempt.Connects) :
    (state.connect attempt).2 = false ∧
      (state.connect attempt).1.client.mFd = attempt.socket := by
  simp only [State.connect, if_neg unconnected, State.withSocket]
  split
  · exact ⟨rfl, rfl⟩
  · rename_i some_socket
    split
    · exact ⟨rfl, rfl⟩
    · rename_i closeExec
      split
      · exact ⟨rfl, rfl⟩
      · rename_i nonBlock
        refine ⟨?_, rfl⟩
        rw [Bool.eq_false_iff]
        intro taken
        exact refused some_socket ⟨not_not.mp closeExec, not_not.mp nonBlock, taken⟩

/-- The state in which `Reconnect` calls `AttachClient`. -/
def State.joining (state : State) (attempt : Attempt) : State :=
  { state.withSocket attempt.socket with
    client := ({ state.client with mFd := attempt.socket }.enableInput).enableOutput
    established := Function.update state.established attempt.socket attempt.connect.real }

theorem reconnect_of_connects {attempt : Attempt} (unconnected : ¬ state.client.mFd > 0)
    (some_socket : attempt.socket ≠ -1) (connects : attempt.Connects) :
    state.reconnect attempt =
      if ((state.joining attempt).attachClient attempt.granted).2 = false then
        some (((state.joining attempt).attachClient attempt.granted).1.closeClient, false)
      else if attempt.requestsEmpty then
        ((state.joining attempt).attachClient attempt.granted).1.client.mOwner.map fun _ =>
          (((state.joining attempt).attachClient attempt.granted).1, true)
      else
        some (((state.joining attempt).attachClient attempt.granted).1, true) := by
  obtain ⟨closeExec, nonBlock, taken⟩ := connects
  simp only [State.reconnect, State.isConnect, State.connect, unconnected, decide_false,
    State.withSocket, if_neg some_socket, closeExec, nonBlock, taken, not_true_eq_false, if_false,
    Bool.true_eq_false, Bool.false_eq_true]
  simp only [State.joining, State.withSocket, if_neg some_socket]

theorem reconnect_of_refused {attempt : Attempt} (unconnected : ¬ state.client.mFd > 0)
    (refused : attempt.socket ≠ -1 → ¬ attempt.Connects) :
    state.reconnect attempt = some ((state.connect attempt).1, false) := by
  have failed := (connect_of_refused unconnected refused).1
  simp only [State.reconnect, State.isConnect, unconnected, decide_false, failed,
    Bool.false_eq_true, if_false, if_true]

/-! ## One call -/

/-- `Close` undoes everything of an attempt but the connection itself. -/
theorem disconnected_closeClient {attempt : Attempt} (disconnected : Disconnected state)
    (positive : 0 < attempt.socket) (verdict : Option Verdict) :
    Disconnected { (state.joining attempt).closeClient with verdict := verdict } := by
  have some_socket : attempt.socket ≠ -1 := by omega
  have closes : (state.joining attempt).client.mFd > 0 := positive
  rw [State.closeClient, if_pos closes]
  simp only [State.joining, State.withSocket, if_neg some_socket]
  constructor
  · rfl
  · exact disconnected.no_owner
  · intro other member
    simp only [Kernel.close, Kernel.create]
    by_cases same : other = attempt.socket
    · rw [same]
      exact Function.update_self _ _ _
    · rw [List.mem_append, List.mem_singleton] at member
      have before := disconnected.closed other (member.resolve_right same)
      exact (Function.update_of_ne same _ _).trans
        ((Function.update_of_ne same _ _).trans before)
  · exact disconnected.unlisted

/-- `AttachClient` reports failure for a client that the poll thread now knows,
and success for one that it refused. -/
theorem attachClient_cases {pool : CPollPool} (thread : state.pollthread = some pool)
    (granted : Bool) :
    (state.attachClient granted).2 = false ∧
        (∃ kernel, (state.attachClient granted).1 =
          { state with
            client := state.client.attachedTo pool.self
            pollthread := some { pool with
              mPollUnits := pool.mPollUnits.insert state.client.mFd state.self }
            kernel := kernel }) ∨
      (state.attachClient granted).2 = true ∧
        ∃ kernel, (state.attachClient granted).1 = { state with kernel := kernel } := by
  simp only [State.attachClient, thread]
  rcases pool.attach_cases state.kernel state.self state.client granted with
    ⟨-, attached⟩ | attached
  · rw [attached]
    exact Or.inl ⟨rfl, _, rfl⟩
  · rw [attached]
    exact Or.inr ⟨rfl, _, by rw [← thread]⟩

/-- `Close` leaves the poll thread alone. -/
theorem closeClient_frame (state : State) :
    state.closeClient.pollthread = state.pollthread ∧ state.closeClient.self = state.self := by
  rw [State.closeClient]
  split <;> exact ⟨rfl, rfl⟩

/-- A client that was connected ends up as its result says only if there is no
poll thread to attach it to. -/
theorem allOrNothing_of_connects {attempt : Attempt} (disconnected : Disconnected state)
    (some_socket : attempt.socket ≠ -1) (connects : attempt.Connects) {after : State}
    (stepEq : step state attempt = some after) :
    (AllOrNothing after ↔ state.pollthread = none ∧ 0 < attempt.socket) ∧
      (AllOrNothing after → Disconnected after) := by
  have unconnected : ¬ state.client.mFd > 0 := by
    rw [disconnected.fd_eq]
    decide
  simp only [step, reconnect_of_connects unconnected some_socket connects] at stepEq
  split at stepEq
  · contradiction
  cases thread : state.pollthread with
  | none =>
      have attached : (state.joining attempt).attachClient attempt.granted =
          (state.joining attempt, false) := by
        simp only [State.attachClient, State.joining, State.withSocket, thread]
      simp only [attached, if_true, Option.some.injEq] at stepEq
      subst stepEq
      by_cases positive : 0 < attempt.socket
      · have afresh := disconnected_closeClient disconnected positive (some (.returned false))
        exact ⟨iff_of_true afresh ⟨rfl, positive⟩, fun _ => afresh⟩
      · refine ⟨iff_of_false (fun afresh => some_socket ?_) fun both => positive both.2, id⟩
        have notClosed : (state.joining attempt).closeClient = state.joining attempt :=
          if_neg positive
        rw [notClosed] at afresh
        exact Disconnected.fd_eq afresh
  | some pool =>
      have joiningThread : (state.joining attempt).pollthread = some pool := thread
      suffices broken : ¬ AllOrNothing after from ⟨iff_of_false broken nofun, broken.elim⟩
      intro afresh
      rcases attachClient_cases joiningThread attempt.granted with
        ⟨reported, kernel, attached⟩ | ⟨reported, kernel, attached⟩
      · simp only [reported, attached, if_true, Option.some.injEq] at stepEq
        subst stepEq
        have unlisted := Disconnected.unlisted afresh
        simp only [closeClient_frame] at unlisted
        exact unlisted _ rfl attempt.socket (AList.lookup_insert pool.mPollUnits)
      · have ownerless : (state.joining attempt).client.mOwner = none := disconnected.no_owner
        simp only [reported, attached, Bool.true_eq_false, if_false, ownerless, Option.map_none]
          at stepEq
        cases waiting : attempt.requestsEmpty with
        | true =>
            simp only [waiting, if_true, Option.some.injEq] at stepEq
            subst stepEq
            exact afresh
        | false =>
            simp only [waiting, Bool.false_eq_true, if_false, Option.some.injEq] at stepEq
            subst stepEq
            obtain ⟨other, otherThread, listed⟩ := Connected.listed afresh
            cases joiningThread.symm.trans otherThread
            exact disconnected.unlisted pool thread _ listed

/-- A client that was not connected is as its result says only if it got no
socket. -/
theorem allOrNothing_of_refused {attempt : Attempt} (disconnected : Disconnected state)
    (refused : attempt.socket ≠ -1 → ¬ attempt.Connects) {after : State}
    (stepEq : step state attempt = some after) :
    (AllOrNothing after ↔ attempt.socket = -1) ∧ (AllOrNothing after → Disconnected after) := by
  have unconnected : ¬ state.client.mFd > 0 := by
    rw [disconnected.fd_eq]
    decide
  simp only [step, reconnect_of_refused unconnected refused] at stepEq
  split at stepEq
  · contradiction
  cases stepEq
  refine ⟨⟨fun afresh => ?_, fun no_socket => ?_⟩, id⟩
  · have returned : Disconnected { (state.connect attempt).1 with
        verdict := some (.returned false) } := afresh
    rw [← returned.fd_eq, (connect_of_refused unconnected refused).2]
  · have connectEq : (state.connect attempt).1 = state.withSocket (-1) := by
      simp only [State.connect, unconnected, State.withSocket, no_socket, if_false, if_true]
    rw [connectEq]
    constructor
    · rfl
    · exact disconnected.no_owner
    · exact disconnected.closed
    · exact disconnected.unlisted

theorem step_exact {attempt : Attempt} (disconnected : Disconnected state) {after : State}
    (stepEq : step state attempt = some after) :
    (AllOrNothing after → Disconnected after) ∧
      (AllOrNothing after ↔ EndsAfresh state attempt) := by
  by_cases connects : attempt.socket ≠ -1 ∧ attempt.Connects
  · obtain ⟨exactly, keeps⟩ :=
      allOrNothing_of_connects disconnected connects.1 connects.2 stepEq
    refine ⟨keeps, exactly.trans ⟨fun both => Or.inr ⟨both.1, both.2, connects.2⟩, ?_⟩⟩
    rintro (no_socket | ⟨no_thread, positive, -⟩)
    · exact absurd no_socket connects.1
    · exact ⟨no_thread, positive⟩
  · have refused : attempt.socket ≠ -1 → ¬ attempt.Connects := fun some_socket taken =>
      connects ⟨some_socket, taken⟩
    obtain ⟨exactly, keeps⟩ := allOrNothing_of_refused disconnected refused stepEq
    refine ⟨keeps, exactly.trans ⟨Or.inl, ?_⟩⟩
    rintro (no_socket | ⟨-, positive, taken⟩)
    · exact no_socket
    · exact absurd taken (refused (by omega))

/-! ## Runs -/

/-- Starting disconnected, every call leaves what its result says exactly when
every call ends afresh. -/
theorem allOrNothing_iff_endsAfresh (disconnected : Disconnected state)
    (fresh : state.verdict = none) (attempts : List Attempt) :
    Always step AllOrNothing attempts state ↔ EachStep step EndsAfresh attempts state := by
  have held : AllOrNothing state := by
    rw [AllOrNothing, fresh]
    trivial
  -- A call that left what its result says also left the client disconnected.
  have exact_call (state : State) (attempt : Attempt) (after : State)
      (keeps : AllOrNothing state → Disconnected state) (holds : AllOrNothing state)
      (stepEq : step state attempt = some after) :=
    step_exact (keeps holds) stepEq
  exact always_iff_eachStep_of_exact exact_call (fun _ => disconnected) held

/-- A disconnected client of an empty poll thread. -/
def sample : State where
  self := 0
  pollthread := some { self := 0 }

theorem sample_disconnected : Disconnected sample := by
  constructor
  · rfl
  · rfl
  · nofun
  · rintro pool poolEq fd
    cases poolEq
    nofun

/-- Without a socket every call fails and can be repeated. -/
theorem allOrNothing_without_socket :
    Always step AllOrNothing [{ socket := -1 }, { socket := -1 }] sample := by
  refine (allOrNothing_iff_endsAfresh sample_disconnected rfl _).mpr ?_
  refine EachStep.of_forall (fun attempt member state => Or.inl ?_) _
  simp only [List.mem_cons, List.not_mem_nil, or_false, or_self] at member
  rw [member]

/-- A call in which every system call succeeds returns `false`, with the client
still known to the poll thread. -/
theorem not_allOrNothing_of_success : ¬ Always step AllOrNothing [{ socket := 5 }] sample := by
  intro always
  have stepEq : step sample { socket := 5 } = some _ := rfl
  have unlisted := Disconnected.unlisted (always.2 _ stepEq).now
  exact unlisted _ rfl 5 rfl

end NginxFastcgi.Fastcgi.TcpClient
