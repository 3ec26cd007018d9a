import NginxFastcgi.Foundation.Transition
import NginxFastcgi.Thread.ThreadBase

/-!
# Starting and interrupting a thread

One thread calls `Start`, perhaps `RunningThread`, and `Interrupt`; the thread
it creates runs `ThreadFunction`.  Both take one statement at a time.  A
statement that only writes to the log or to local variables of the caller is
not a step of its own.

The thread object is not detached.  `pthread_kill` is delivered to `Run`, which
looks at the stop flag afterwards; nothing else is known of `Run`.
-/

namespace NginxFastcgi.Thread.Interrupt

open Foundation.Transition

/-- The next statement of the calling thread. -/
inductive ControlPoint
  /-- `InitializeBase` locks the start gate. -/
  | lockMutex
  | initAttr
  | callInitialize
  | create
  | startFailed
  | runningThread
  /-- The test at the start of `Interrupt`. -/
  | interrupt
  | setStopFlag
  | kill
  | unLock
  | joinTest
  | joinWait
  | joinClear
  /-- `Interrupt` has returned `true`. -/
  | stopped
  deriving DecidableEq

/-- The next statement of the created thread. -/
inductive WorkerPoint
  | absent
  | gettid
  /-- The signal mask, and `Prepare`. -/
  | prepare
  | setIdle
  /-- The start gate. -/
  | lockMutex
  | run
  | setExit
  | destroy
  /-- The last message, which names the thread. -/
  | farewell
  | finished
  deriving DecidableEq

structure State where
  thread : CThreadBase := {}
  control : ControlPoint := .lockMutex
  worker : WorkerPoint := .absent
  /-- Whether `RunningThread` is called. -/
  opens : Bool
  /-- What `pthread_create` and `gettid` give. -/
  threadid : Nat
  tid : Int
  deriving DecidableEq

namespace State

/-- The next statement of the caller.  The calls in `Start` may fail. -/
def controlStep (state : State) (succeeds : Bool) : Option State :=
  match state.control with
  | .lockMutex =>
      state.thread.mThreadMutex.lock.map fun mutex =>
        { state with
          thread := { state.thread with mThreadMutex := mutex }
          control := .initAttr }
  | .initAttr => some { state with control := if succeeds then .callInitialize else .startFailed }
  | .callInitialize => some { state with control := if succeeds then .create else .startFailed }
  | .create =>
      if succeeds then
        some
          { state with
            thread := { state.thread with mThreadid := state.threadid }
            control := if state.opens then .runningThread else .interrupt
            worker := .gettid }
      else
        some { state with control := .startFailed }
  | .startFailed => none
  | .runningThread =>
      some
        { state with
          thread := { state.thread with mThreadMutex := state.thread.mThreadMutex.unLock }
          control := .interrupt }
  | .interrupt =>
      some
        { state with control := if state.thread.nothingToStop then .stopped else .setStopFlag }
  | .setStopFlag => some { state with thread := state.thread.setStopFlag 1, control := .kill }
  | .kill => some { state with control := .unLock }
  | .unLock =>
      some
        { state with
          thread := { state.thread with mThreadMutex := state.thread.mThreadMutex.unLock }
          control := .joinTest }
  | .joinTest =>
      some { state with control := if state.thread.mThreadid = 0 then .stopped else .joinWait }
  | .joinWait =>
      if state.worker = .finished then some { state with control := .joinClear } else none
  | .joinClear =>
      some
        { state with
          thread := { state.thread with mThreadid := 0 }
          control := .stopped }
  | .stopped => none

/-- The next statement of the created thread.  `Run` returns once the stop flag
is set. -/
def workerStep (state : State) : Option State :=
  match state.worker with
  | .absent => none
  | .gettid =>
      some { state with thread := { state.thread with mTid := state.tid }, worker := .prepare }
  | .prepare => some { state with worker := .setIdle }
  | .setIdle =>
      some
        { state with
          thread := state.thread.setThreadState .threadIdle
          worker := .lockMutex }
  | .lockMutex =>
      state.thread.mThreadMutex.lock.map fun mutex =>
        { state with
          thread := { state.thread with mThreadMutex := mutex }
          worker := .run }
  | .run => some { state with worker := if state.thread.isNeedStop then .setExit else .run }
  | .setExit =>
      some
        { state with
          thread := state.thread.setThreadState .threadExit
          worker := .destroy }
  | .destroy => some { state with worker := .farewell }
  | .farewell => some { state with worker := .finished }
  | .finished => none

end State

inductive Label
  | control (succeeds : Bool)
  | worker
  deriving DecidableEq

def step : Step State Label
  | state, .control succeeds => state.controlStep succeeds
  | state, .worker => state.workerStep

/-- The created thread has finished when `Interrupt` returns `true`, and takes
no further step. -/
def Stopped (state : State) : Prop :=
  state.control = .stopped → state.worker = .finished ∧ state.workerStep = none

/-- `Interrupt` does not look before the created thread has set its state. -/
def LooksAfterIdle : State → Label → Prop
  | state, .control _ =>
      state.control = .interrupt → state.thread.mThreadstate ≠ .threadExit
  | _, .worker => True

instance : ∀ state label, Decidable (LooksAfterIdle state label)
  | _, .control _ => inferInstanceAs (Decidable (_ → _))
  | _, .worker => isTrue trivial

/-! ## What runs keep -/

/-- Up to the call of `pthread_create`. -/
def ControlPoint.Starting : ControlPoint → Prop
  | .lockMutex | .initAttr | .callInitialize | .create | .startFailed => True
  | _ => False

/-- Up to the call of `SetStopFlag`. -/
def ControlPoint.Unasked : ControlPoint → Prop
  | .runningThread | .interrupt | .setStopFlag => True
  | point => point.Starting

/-- Between `pthread_create` and `pthread_join`. -/
def ControlPoint.Created : ControlPoint → Prop
  | .runningThread | .interrupt | .setStopFlag | .kill | .unLock | .joinTest | .joinWait => True
  | _ => False

/-- `Run` has returned. -/
def WorkerPoint.Leaving : WorkerPoint → Prop
  | .setExit | .destroy | .farewell | .finished => True
  | _ => False

/-- The thread state at each point of the created thread. -/
def WorkerPoint.threadstate : WorkerPoint → ThreadState
  | .lockMutex | .run | .setExit => .threadIdle
  | _ => .threadExit

structure Kept (state : State) : Prop where
  nonzero : state.threadid ≠ 0
  absent : state.control.Starting → state.worker = .absent
  unasked : state.control.Unasked → state.thread.mStop = 0 ∧ ¬ state.worker.Leaving
  threadstate : state.thread.mThreadstate = state.worker.threadstate
  created : state.control.Created → state.thread.mThreadid = state.threadid
  joined : state.control = .joinClear → state.worker = .finished

variable {state after : State}

theorem controlStep_kept (kept : Kept state) {succeeds : Bool}
    (stepEq : state.controlStep succeeds = some after) : Kept after := by
  obtain ⟨nonzero, absent, unasked, threadstate, created, joined⟩ := kept
  obtain ⟨thread, control, worker, opens, threadid, tid⟩ := state
  cases control <;>
    simp only [State.controlStep, Option.map_eq_some_iff, Option.some.injEq, reduceCtorEq] at stepEq
  case lockMutex =>
    obtain ⟨mutex, -, rfl⟩ := stepEq
    exact ⟨nonzero, absent, unasked, threadstate, nofun, nofun⟩
  case initAttr =>
    subst stepEq
    cases succeeds <;> exact ⟨nonzero, absent, unasked, threadstate, nofun, nofun⟩
  case callInitialize =>
    subst stepEq
    cases succeeds <;> exact ⟨nonzero, absent, unasked, threadstate, nofun, nofun⟩
  case create =>
    have notYet : worker = .absent := absent trivial
    subst notYet
    obtain ⟨notAsked, -⟩ := unasked trivial
    cases succeeds <;>
      simp only [if_true, Bool.false_eq_true, if_false, Option.some.injEq] at stepEq
    · subst stepEq
      exact ⟨nonzero, absent, unasked, threadstate, nofun, nofun⟩
    · subst stepEq
      cases opens <;>
        exact ⟨nonzero, nofun, fun _ => ⟨notAsked, nofun⟩, threadstate, fun _ => rfl, nofun⟩
  case runningThread =>
    subst stepEq
    exact ⟨nonzero, nofun, unasked, threadstate, fun _ => created trivial, nofun⟩
  case interrupt =>
    subst stepEq
    cases thread.nothingToStop
    · exact ⟨nonzero, nofun, unasked, threadstate, fun _ => created trivial, nofun⟩
    · exact ⟨nonzero, nofun, nofun, threadstate, nofun, nofun⟩
  case setStopFlag =>
    subst stepEq
    exact ⟨nonzero, nofun, nofun, threadstate, fun _ => created trivial, nofun⟩
  case kill =>
    subst stepEq
    exact ⟨nonzero, nofun, nofun, threadstate, fun _ => created trivial, nofun⟩
  case unLock =>
    subst stepEq
    exact ⟨nonzero, nofun, nofun, threadstate, fun _ => created trivial, nofun⟩
  case joinTest =>
    have running : thread.mThreadid ≠ 0 := (created trivial).symm ▸ nonzero
    rw [if_neg running] at stepEq
    subst stepEq
    exact ⟨nonzero, nofun, nofun, threadstate, fun _ => created trivial, nofun⟩
  case joinWait =>
    split at stepEq
    · rename_i ended
      cases stepEq
      exact ⟨nonzero, nofun, nofun, threadstate, nofun, fun _ => ended⟩
    · contradiction
  case joinClear =>
    subst stepEq
    exact ⟨nonzero, nofun, nofun, threadstate, nofun, nofun⟩

/-- A statement of the created thread that leaves the stop flag and the thread
identifier alone. -/
theorem Kept.advance (kept : Kept state) (present : state.worker ≠ .absent)
    (unfinished : state.worker ≠ .finished) {thread : CThreadBase} {worker : WorkerPoint}
    (sameStop : thread.mStop = state.thread.mStop)
    (sameId : thread.mThreadid = state.thread.mThreadid)
    (threadstate : thread.mThreadstate = worker.threadstate)
    (stays : state.control.Unasked → ¬ worker.Leaving) :
    Kept { state with thread := thread, worker := worker } where
  nonzero := kept.nonzero
  absent starting := absurd (kept.absent starting) present
  unasked early := ⟨sameStop.trans (kept.unasked early).1, stays early⟩
  threadstate := threadstate
  created between := sameId.trans (kept.created between)
  joined waited := absurd (kept.joined waited) unfinished

theorem workerStep_kept (kept : Kept state) (stepEq : state.workerStep = some after) :
    Kept after := by
  obtain ⟨thread, control, worker, opens, threadid, tid⟩ := state
  have threadstate := kept.threadstate
  cases worker <;>
    simp only [State.workerStep, Option.map_eq_some_iff, Option.some.injEq, reduceCtorEq] at stepEq
  case gettid =>
    subst stepEq
    exact kept.advance nofun nofun rfl rfl threadstate fun _ => nofun
  case prepare =>
    subst stepEq
    exact kept.advance nofun nofun rfl rfl threadstate fun _ => nofun
  case setIdle =>
    subst stepEq
    exact kept.advance nofun nofun rfl rfl rfl fun _ => nofun
  case lockMutex =>
    obtain ⟨mutex, -, rfl⟩ := stepEq
    exact kept.advance nofun nofun rfl rfl threadstate fun _ => nofun
  case run =>
    subst stepEq
    refine kept.advance nofun nofun rfl rfl ?_ fun early => ?_
    · split <;> exact threadstate
    · have notAsked : ¬ thread.isNeedStop = true := by
        rw [thread.isNeedStop_iff]
        exact not_not_intro (kept.unasked early).1
      rw [if_neg notAsked]
      exact nofun
  case setExit =>
    subst stepEq
    exact kept.advance nofun nofun rfl rfl rfl fun early => absurd trivial (kept.unasked early).2
  case destroy =>
    subst stepEq
    exact kept.advance nofun nofun rfl rfl threadstate
      fun early => absurd trivial (kept.unasked early).2
  case farewell =>
    subst stepEq
    exact kept.advance nofun nofun rfl rfl threadstate
      fun early => absurd trivial (kept.unasked early).2

/-- Behind its test, `Interrupt` returns only when the created thread has
finished. -/
theorem controlStep_joined (kept : Kept state) {succeeds : Bool}
    (stepEq : state.controlStep succeeds = some after) (behind : state.control ≠ .interrupt) :
    Stopped after := by
  obtain ⟨thread, control, worker, opens, threadid, tid⟩ := state
  intro returned
  cases control <;>
    simp only [State.controlStep, Option.map_eq_some_iff, Option.some.injEq, reduceCtorEq] at stepEq
  case lockMutex =>
    obtain ⟨mutex, -, rfl⟩ := stepEq
    contradiction
  case create =>
    cases succeeds <;> cases opens <;> cases stepEq <;> contradiction
  case interrupt => contradiction
  case joinTest =>
    have running : thread.mThreadid ≠ 0 := (kept.created trivial).symm ▸ kept.nonzero
    rw [if_neg running] at stepEq
    subst stepEq
    contradiction
  case joinWait =>
    split at stepEq <;> cases stepEq
    contradiction
  case joinClear =>
    subst stepEq
    have ended : worker = .finished := kept.joined rfl
    subst ended
    exact ⟨rfl, rfl⟩
  all_goals
    subst stepEq
    cases succeeds <;> contradiction

/-- The test finds nothing to stop exactly when the thread state is still the
one of `CleanData`. -/
theorem nothingToStop_iff_exit (kept : Kept state) (looks : state.control = .interrupt) :
    state.thread.nothingToStop = true ↔ state.thread.mThreadstate = .threadExit := by
  have notAsked : state.thread.mStop = 0 := (kept.unasked (looks ▸ trivial)).1
  have running : state.thread.mThreadid ≠ 0 := (kept.created (looks ▸ trivial)).symm ▸ kept.nonzero
  rw [CThreadBase.nothingToStop_iff]
  simp only [notAsked, running, ne_eq, not_true_eq_false, false_or, or_false]

theorem workerStep_control (stepEq : state.workerStep = some after) :
    after.control = state.control := by
  obtain ⟨thread, control, worker, opens, threadid, tid⟩ := state
  cases worker <;>
    simp only [State.workerStep, Option.map_eq_some_iff, Option.some.injEq, reduceCtorEq] at stepEq
  case lockMutex =>
    obtain ⟨mutex, -, rfl⟩ := stepEq
    rfl
  all_goals
    subst stepEq
    rfl

/-- One step keeps what runs keep, and returns from `Interrupt` only with the
created thread finished unless it looks too early. -/
theorem step_exact (kept : Kept state) (stopped : Stopped state) {label : Label}
    (stepEq : step state label = some after) :
    Kept after ∧ (Stopped after ↔ LooksAfterIdle state label) := by
  cases label with
  | control succeeds =>
      refine ⟨controlStep_kept kept stepEq, ?_⟩
      by_cases looks : state.control = .interrupt
      · have nothing := nothingToStop_iff_exit kept looks
        have staying := (kept.unasked (looks ▸ trivial)).2
        simp only [step, State.controlStep, looks, Option.some.injEq] at stepEq
        subst stepEq
        by_cases exited : state.thread.mThreadstate = .threadExit
        · refine iff_of_false (fun stops => staying ?_) fun idle => idle looks exited
          have ended : state.worker = .finished := (stops (if_pos (nothing.mpr exited))).1
          rw [ended]
          trivial
        · refine iff_of_true (fun returned => ?_) fun _ => exited
          simp only [if_neg (mt nothing.mp exited), reduceCtorEq] at returned
      · exact iff_of_true (controlStep_joined kept stepEq looks) fun early => absurd early looks
  | worker =>
      refine ⟨workerStep_kept kept stepEq, iff_of_true (fun returned => ?_) trivial⟩
      rw [step, (stopped (workerStep_control stepEq ▸ returned)).2] at stepEq
      contradiction

def start (opens : Bool) (threadid : Nat) (tid : Int) : State where
  opens := opens
  threadid := threadid
  tid := tid

theorem start_kept (opens : Bool) {threadid : Nat} (nonzero : threadid ≠ 0) (tid : Int) :
    Kept (start opens threadid tid) where
  nonzero := nonzero
  absent := fun _ => rfl
  unasked := fun _ => ⟨rfl, nofun⟩
  threadstate := rfl
  created := nofun
  joined := nofun

/-- In a run, `Interrupt` returns `true` only after the created thread has
finished exactly when it looks only after that thread has set its state. -/
theorem stopped_iff_looksAfterIdle (opens : Bool) {threadid : Nat} (nonzero : threadid ≠ 0)
    (tid : Int) (labels : List Label) :
    Always step Stopped labels (start opens threadid tid) ↔
      EachStep step LooksAfterIdle labels (start opens threadid tid) :=
  always_iff_eachStep_of_exact (fun _ _ _ kept stopped stepEq => step_exact kept stopped stepEq)
    (start_kept opens nonzero tid) nofun

/-- The created thread waits at the start gate before `Interrupt` looks, and
finishes once the stop flag is set. -/
def afterIdle : List Label :=
  List.replicate 4 (.control true) ++ List.replicate 3 .worker ++
    List.replicate 4 (.control true) ++ List.replicate 5 .worker ++
      List.replicate 3 (.control true)

theorem stopped_afterIdle :
    Always step Stopped afterIdle (start false 1 1) ∧
      (execute step afterIdle (start false 1 1)).map State.control = some .stopped :=
  ⟨(stopped_iff_looksAfterIdle false Nat.one_ne_zero 1 afterIdle).mpr (by decide), by decide⟩

/-- `Start` is followed by `Interrupt` before the created thread takes a step. -/
def atOnce : List Label :=
  [.control true, .control true, .control true, .control true, .control true]

theorem not_stopped_atOnce : ¬ Always step Stopped atOnce (start false 1 1) := by
  have executed : (execute step atOnce (start false 1 1)).map
      (fun state => (state.control, state.worker)) = some (.stopped, .gettid) := by
    decide
  intro always
  obtain ⟨state, runs, observed⟩ := Option.map_eq_some_iff.mp executed
  obtain ⟨returned, running⟩ := Prod.mk.inj observed
  have ended := ((always.after runs) returned).1
  rw [running] at ended
  contradiction

end NginxFastcgi.Thread.Interrupt
