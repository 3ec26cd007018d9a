import Mathlib.Algebra.GroupWithZero.Nat
import NginxFastcgi.Foundation.Transition
import NginxFastcgi.Thread.ThreadBase

/-!
# `CPollThread`, suspended and woken by signals

The poll thread runs `Run` with signals in use; any number of calls of
`Suspend`, `Active` and `Interrupt` are made by other threads.  Every thread
takes one statement at a time.  `Wait` releases the mutex and blocks in one
step, and a signal wakes the thread only if it is blocked then.

A wake-up is lost where a call changes a flag that `Run` has tested and sends
its signal before `Run` is blocked in `Wait`.
-/

namespace NginxFastcgi.Service.PollThread

open Foundation.Transition
open NginxFastcgi.Thread

/-- The next statement of the poll thread. -/
inductive RunPoint
  | lockMutex
  | testStop
  | testSuspend
  | doOtherSomething
  | testSuspendAgain
  | epollProcess
  /-- The call of `Wait`, from either test. -/
  | wait
  /-- In `Wait`, until a signal. -/
  | blocked
  /-- Woken, before `Wait` has the mutex again. -/
  | relock
  | unLock
  /-- Behind `Run`, in `DestroyBase`. -/
  | setExit
  | finished
  deriving DecidableEq

/-- The next statement of a call. -/
inductive CallPoint
  /-- `Suspend`. -/
  | suspendSet
  /-- `Active`. -/
  | activeClear
  | activeSignal
  /-- `Interrupt`. -/
  | interruptTest
  | interruptStop
  | interruptSignal
  | joinTest
  | joinWait
  | joinClear
  | returned
  deriving DecidableEq

inductive Call
  | suspend
  | active
  | interrupt
  deriving DecidableEq

def Call.first : Call → CallPoint
  | .suspend => .suspendSet
  | .active => .activeClear
  | .interrupt => .interruptTest

structure State where
  thread : CThreadBase
  mIsSuspend : Bool
  mCtrlMutex : CThreadMutex := {}
  run : RunPoint := .lockMutex
  /-- The calls made so far. -/
  calls : List CallPoint := []
  deriving DecidableEq

namespace State

def runStep (state : State) : Option State :=
  match state.run with
  | .lockMutex | .relock =>
      state.mCtrlMutex.lock.map fun mutex => { state with mCtrlMutex := mutex, run := .testStop }
  | .testStop =>
      some { state with run := if state.thread.isNeedStop then .unLock else .testSuspend }
  | .testSuspend =>
      some { state with run := if state.mIsSuspend then .wait else .doOtherSomething }
  | .doOtherSomething => some { state with run := .testSuspendAgain }
  | .testSuspendAgain =>
      some { state with run := if state.mIsSuspend then .wait else .epollProcess }
  | .epollProcess => some { state with run := .testStop }
  | .wait => some { state with mCtrlMutex := state.mCtrlMutex.unLock, run := .blocked }
  | .blocked => none
  | .unLock => some { state with mCtrlMutex := state.mCtrlMutex.unLock, run := .setExit }
  | .setExit =>
      some { state with thread := state.thread.setThreadState .threadExit, run := .finished }
  | .finished => none

/-- `Signal`. -/
def signal (state : State) : State :=
  { state with run := if state.run = .blocked then .relock else state.run }

/-- The next statement of a call, with the state and the call behind it. -/
def callStep (state : State) : CallPoint → Option (State × CallPoint)
  | .suspendSet => some ({ state with mIsSuspend := true }, .returned)
  | .activeClear => some ({ state with mIsSuspend := false }, .activeSignal)
  | .activeSignal => some (state.signal, .returned)
  | .interruptTest =>
      some (state, if state.thread.nothingToStop then .returned else .interruptStop)
  | .interruptStop =>
      some ({ state with thread := state.thread.setStopFlag 1 }, .interruptSignal)
  | .interruptSignal => some (state.signal, .joinTest)
  | .joinTest => some (state, if state.thread.mThreadid = 0 then .returned else .joinWait)
  | .joinWait => if state.run = .finished then some (state, .joinClear) else none
  | .joinClear => some ({ state with thread := { state.thread with mThreadid := 0 } }, .returned)
  | .returned => none

end State

inductive Label
  | run
  | call (call : Call)
  /-- The next statement of the call at an index. -/
  | advance (index : Nat)
  deriving DecidableEq

def step : Step State Label
  | state, .run => state.runStep
  | state, .call call => some { state with calls := state.calls ++ [call.first] }
  | state, .advance index =>
      state.calls[index]?.bind fun point =>
        (state.callStep point).map fun moved =>
          { moved.1 with calls := moved.1.calls.set index moved.2 }

/-- A call that goes on to signal from this state. -/
def State.AboutToSignal (state : State) : CallPoint → Prop
  | .activeClear | .activeSignal | .interruptStop | .interruptSignal => True
  | .interruptTest => ¬ state.thread.nothingToStop
  | _ => False

instance (state : State) : ∀ point, Decidable (state.AboutToSignal point)
  | .activeClear | .activeSignal | .interruptStop | .interruptSignal => isTrue trivial
  | .interruptTest => inferInstanceAs (Decidable (¬ _))
  | .suspendSet | .joinTest | .joinWait | .joinClear | .returned => isFalse id

/-- Some call goes on to signal. -/
def State.SignalDue (state : State) : Prop :=
  ∃ point ∈ state.calls, state.AboutToSignal point

instance (state : State) : Decidable state.SignalDue :=
  inferInstanceAs (Decidable (∃ point ∈ state.calls, _))

/-- The poll thread has a reason to wait. -/
def State.Waits (state : State) : Prop :=
  state.mIsSuspend = true ∧ state.thread.mStop = 0

instance (state : State) : Decidable state.Waits :=
  inferInstanceAs (Decidable (_ ∧ _))

/-- The poll thread is not blocked without a reason and without a signal to
come. -/
def NoLostWakeup (state : State) : Prop :=
  state.run = .blocked → state.Waits ∨ state.SignalDue

instance (state : State) : Decidable (NoLostWakeup state) :=
  inferInstanceAs (Decidable (_ → _))

/-- The flags that `Run` has tested on its way to this statement are still as it
found them. -/
def State.AsTested (state : State) : Prop :=
  match state.run with
  | .testSuspend | .doOtherSomething | .testSuspendAgain => state.thread.mStop = 0
  | .wait | .blocked => state.Waits
  | .lockMutex | .testStop | .epollProcess | .relock | .unLock | .setExit | .finished => True

instance (state : State) : Decidable state.AsTested := by
  unfold State.AsTested
  split <;> infer_instance

/-- No call sends its signal while `Run` is on its way from a test to `Wait` and
a flag has changed since that test. -/
def SignalsInTime : State → Label → Prop
  | state, .advance index =>
      state.calls[index]? = some .activeSignal ∨ state.calls[index]? = some .interruptSignal →
        state.run ≠ .blocked → state.AsTested
  | _, _ => True

instance : ∀ state label, Decidable (SignalsInTime state label)
  | _, .advance _ => inferInstanceAs (Decidable (_ → _ → _))
  | _, .run => isTrue trivial
  | _, .call _ => isTrue trivial

/-- What holds before every statement: if a flag has changed since `Run` tested
it, some call is still to signal. -/
def TestedOrDue (state : State) : Prop :=
  state.AsTested ∨ state.SignalDue

theorem TestedOrDue.noLostWakeup {state : State} (held : TestedOrDue state) :
    NoLostWakeup state := by
  intro blocks
  refine held.imp_left fun tested => ?_
  rwa [State.AsTested, blocks] at tested

/-- A call that clears the thread identifier has seen the poll thread finish. -/
def JoinsFinished (state : State) : Prop :=
  .joinClear ∈ state.calls → state.run = .finished

variable {state after : State}

/-! ## Steps of the poll thread -/

theorem runStep_joinsFinished (joins : JoinsFinished state)
    (stepEq : state.runStep = some after) : JoinsFinished after := by
  obtain ⟨thread, suspended, mutex, run, calls⟩ := state
  have unfinished : .joinClear ∈ calls → run = .finished := joins
  have sameCalls : after.calls = calls := by
    cases run <;>
      simp only [State.runStep, Option.map_eq_some_iff, Option.some.injEq, reduceCtorEq] at stepEq
    case lockMutex | relock =>
      obtain ⟨mutex, -, rfl⟩ := stepEq
      rfl
    all_goals
      subst stepEq
      rfl
  intro clears
  rw [unfinished (sameCalls ▸ clears)] at stepEq
  contradiction

theorem runStep_asTested (tested : state.AsTested) (stepEq : state.runStep = some after) :
    after.AsTested := by
  obtain ⟨thread, suspended, mutex, run, calls⟩ := state
  cases run <;>
    simp only [State.runStep, Option.map_eq_some_iff, Option.some.injEq, reduceCtorEq] at stepEq
  case lockMutex | relock =>
    obtain ⟨mutex, -, rfl⟩ := stepEq
    trivial
  case testStop =>
    subst stepEq
    by_cases stops : thread.isNeedStop = true
    · simp only [if_pos stops, State.AsTested]
    · simp only [if_neg stops, State.AsTested]
      exact Decidable.not_not.mp (mt thread.isNeedStop_iff.mpr stops)
  case testSuspend | testSuspendAgain =>
    -- the stop flag was 0 at the test of the loop, and has stayed so
    have unstopped : thread.mStop = 0 := tested
    subst stepEq
    cases suspended
    · first | exact unstopped | trivial
    · exact ⟨rfl, unstopped⟩
  case doOtherSomething | wait =>
    subst stepEq
    exact tested
  case epollProcess | unLock | setExit =>
    subst stepEq
    trivial

theorem runStep_testedOrDue (held : TestedOrDue state) (stepEq : state.runStep = some after) :
    TestedOrDue after := by
  rcases held with tested | ⟨point, member, about⟩
  · exact Or.inl (runStep_asTested tested stepEq)
  obtain ⟨thread, suspended, mutex, run, calls⟩ := state
  cases run <;>
    simp only [State.runStep, Option.map_eq_some_iff, Option.some.injEq, reduceCtorEq] at stepEq
  case lockMutex | relock =>
    obtain ⟨mutex, -, rfl⟩ := stepEq
    exact Or.inl trivial
  case setExit =>
    subst stepEq
    exact Or.inl trivial
  all_goals
    subst stepEq
    exact Or.inr ⟨point, member, about⟩

/-! ## Steps of the calls -/

/-- A signal in time leaves the poll thread with what it has tested. -/
theorem signal_asTested (inTime : state.run ≠ .blocked → state.AsTested) :
    state.signal.AsTested := by
  by_cases blocked : state.run = .blocked
  · simp only [State.AsTested, State.signal, if_pos blocked]
  · simpa only [State.AsTested, State.signal, if_neg blocked] using inTime blocked

theorem callStep_calls {point moved : CallPoint} {next : State}
    (stepEq : state.callStep point = some (next, moved)) : next.calls = state.calls := by
  cases point <;>
    simp only [State.callStep, Option.some.injEq, Prod.mk.injEq, reduceCtorEq] at stepEq
  case joinWait =>
    split at stepEq <;> cases stepEq
    rfl
  all_goals
    obtain ⟨rfl, rfl⟩ := stepEq
    rfl

/-- A statement of a call that leaves a tested flag changed either has the call
about to signal, or belongs to a call that was not about to signal and takes away
no signal to come. -/
theorem callStep_untested {point moved : CallPoint} {next : State}
    (clears : point = .joinClear → state.run = .finished)
    (inTime : point = .activeSignal ∨ point = .interruptSignal →
      state.run ≠ .blocked → state.AsTested)
    (stepEq : state.callStep point = some (next, moved)) (untested : ¬ next.AsTested) :
    next.AboutToSignal moved ∨
      ¬ state.AsTested ∧ ¬ state.AboutToSignal point ∧
        ∀ other, state.AboutToSignal other → next.AboutToSignal other := by
  cases point <;>
    simp only [State.callStep, Option.some.injEq, Prod.mk.injEq, reduceCtorEq] at stepEq
  case suspendSet =>
    obtain ⟨rfl, rfl⟩ := stepEq
    refine Or.inr ⟨fun tested => untested ?_, id, fun other about => ?_⟩
    · obtain ⟨thread, suspended, mutex, run, calls⟩ := state
      cases run
      case wait | blocked => exact ⟨rfl, tested.2⟩
      all_goals exact tested
    · cases other <;> exact about
  case activeClear =>
    obtain ⟨rfl, rfl⟩ := stepEq
    exact Or.inl trivial
  case activeSignal =>
    obtain ⟨rfl, rfl⟩ := stepEq
    exact absurd (signal_asTested (inTime (Or.inl rfl))) untested
  case interruptSignal =>
    obtain ⟨rfl, rfl⟩ := stepEq
    exact absurd (signal_asTested (inTime (Or.inr rfl))) untested
  case interruptTest =>
    obtain ⟨rfl, rfl⟩ := stepEq
    by_cases nothing : state.thread.nothingToStop = true
    · exact Or.inr ⟨untested, not_not_intro nothing, fun _ => id⟩
    · rw [if_neg nothing]
      exact Or.inl trivial
  case interruptStop =>
    obtain ⟨rfl, rfl⟩ := stepEq
    exact Or.inl trivial
  case joinTest =>
    obtain ⟨rfl, rfl⟩ := stepEq
    exact Or.inr ⟨untested, id, fun _ => id⟩
  case joinWait =>
    split at stepEq
    · cases stepEq
      exact Or.inr ⟨untested, id, fun _ => id⟩
    · contradiction
  case joinClear =>
    obtain ⟨rfl, rfl⟩ := stepEq
    refine absurd ?_ untested
    simp only [State.AsTested, clears rfl]

theorem mem_set_of_ne {calls : List CallPoint} {index : Nat} {point other : CallPoint}
    (present : calls[index]? = some point) (member : other ∈ calls) (differs : other ≠ point)
    (moved : CallPoint) : other ∈ calls.set index moved := by
  obtain ⟨position, found⟩ := List.mem_iff_getElem?.mp member
  have apart : index ≠ position := by
    rintro rfl
    rw [present] at found
    exact differs (Option.some.inj found).symm
  rw [List.mem_iff_getElem?]
  exact ⟨position, by rw [List.getElem?_set_ne apart, found]⟩

theorem advance_testedOrDue (joins : JoinsFinished state) (held : TestedOrDue state)
    {index : Nat} (inTime : SignalsInTime state (.advance index))
    (stepEq : step state (.advance index) = some after) : TestedOrDue after := by
  obtain ⟨point, present, movedEq⟩ := Option.bind_eq_some_iff.mp stepEq
  obtain ⟨⟨next, moved⟩, callEq, afterEq⟩ := Option.map_eq_some_iff.mp movedEq
  subst afterEq
  have sameCalls := callStep_calls callEq
  have member : point ∈ state.calls := List.mem_iff_getElem?.mpr ⟨index, present⟩
  have pointInTime : point = .activeSignal ∨ point = .interruptSignal →
      state.run ≠ .blocked → state.AsTested := by
    intro signals
    refine inTime ?_
    rcases signals with rfl | rfl
    · exact Or.inl present
    · exact Or.inr present
  by_cases tested : next.AsTested
  · exact Or.inl tested
  rcases callStep_untested (fun clears => joins (clears ▸ member)) pointInTime callEq tested with
    about | ⟨untested, notAbout, stillAbout⟩
  · have inside : index < next.calls.length := by
      rw [sameCalls]
      exact (List.getElem?_eq_some_iff.mp present).1
    exact Or.inr ⟨moved, List.mem_set inside moved, about⟩
  · obtain ⟨other, otherMember, otherAbout⟩ := held.resolve_left untested
    have differs : other ≠ point := by
      rintro rfl
      exact notAbout otherAbout
    refine Or.inr ⟨other, ?_, stillAbout other otherAbout⟩
    simp only [sameCalls]
    exact mem_set_of_ne present otherMember differs moved

theorem callStep_finished {point moved : CallPoint} {next : State}
    (stepEq : state.callStep point = some (next, moved))
    (ended : state.run = .finished ∨ moved = .joinClear) : next.run = .finished := by
  have woken : state.run = .finished → state.signal.run = .finished := by
    intro finished
    rw [State.signal, finished]
    rfl
  cases point <;>
    simp only [State.callStep, Option.some.injEq, Prod.mk.injEq, reduceCtorEq] at stepEq
  case joinWait =>
    split at stepEq
    · rename_i finished
      cases stepEq
      exact finished
    · contradiction
  case activeSignal | interruptSignal =>
    obtain ⟨rfl, rfl⟩ := stepEq
    exact woken (ended.resolve_right nofun)
  case interruptTest =>
    obtain ⟨rfl, rfl⟩ := stepEq
    refine ended.resolve_right ?_
    split <;> nofun
  case joinTest =>
    obtain ⟨rfl, rfl⟩ := stepEq
    refine ended.resolve_right ?_
    split <;> nofun
  all_goals
    obtain ⟨rfl, rfl⟩ := stepEq
    exact ended.resolve_right nofun

theorem advance_joinsFinished (joins : JoinsFinished state) {index : Nat}
    (stepEq : step state (.advance index) = some after) : JoinsFinished after := by
  obtain ⟨point, -, movedEq⟩ := Option.bind_eq_some_iff.mp stepEq
  obtain ⟨⟨next, moved⟩, callEq, afterEq⟩ := Option.map_eq_some_iff.mp movedEq
  subst afterEq
  intro clears
  have ended : state.run = .finished ∨ moved = .joinClear := by
    rcases List.mem_or_eq_of_mem_set clears with before | now
    · exact Or.inl (joins (callStep_calls callEq ▸ before))
    · exact Or.inr now.symm
  exact (callStep_finished callEq ended : next.run = .finished)

/-- A call that begins is not yet at its last statement, and takes no signal
away. -/
theorem call_keeps (joins : JoinsFinished state) (held : TestedOrDue state) (call : Call) :
    JoinsFinished { state with calls := state.calls ++ [call.first] } ∧
      TestedOrDue { state with calls := state.calls ++ [call.first] } := by
  constructor
  · intro clears
    rcases List.mem_append.mp clears with before | now
    · exact joins before
    · cases call <;> simp [Call.first] at now
  · rcases held with tested | ⟨point, member, about⟩
    · exact Or.inl tested
    · exact Or.inr ⟨point, List.mem_append_left _ member, about⟩

/-- One statement of a run in which signals are sent in time. -/
theorem step_testedOrDue (held : JoinsFinished state ∧ TestedOrDue state) {label : Label}
    (inTime : SignalsInTime state label) (stepEq : step state label = some after) :
    JoinsFinished after ∧ TestedOrDue after := by
  obtain ⟨joins, held⟩ := held
  cases label with
  | run => exact ⟨runStep_joinsFinished joins stepEq, runStep_testedOrDue held stepEq⟩
  | call call =>
      cases stepEq
      exact call_keeps joins held call
  | advance index =>
      exact ⟨advance_joinsFinished joins stepEq, advance_testedOrDue joins held inTime stepEq⟩

/-! ## A signal that is not in time -/

/-- The statements of a call up to its signal. -/
def CallPoint.toSignal : CallPoint → Nat
  | .interruptTest => 3
  | .activeClear | .interruptStop => 2
  | .activeSignal | .interruptSignal => 1
  | .suspendSet | .joinTest | .joinWait | .joinClear | .returned => 0

/-- While `Run` has not blocked, a call that signals gets on, and gives `Run` no
reason to wait. -/
theorem callStep_waiting {point : CallPoint} (waiting : state.run = .wait)
    (unmet : ¬ state.Waits) (about : state.AboutToSignal point) :
    ∃ next moved, state.callStep point = some (next, moved) ∧ next.run = .wait ∧
      ¬ next.Waits ∧ moved.toSignal + 1 = point.toSignal := by
  have signalled : state.signal = state := by
    rw [State.signal, waiting, if_neg (by decide), ← waiting]
  cases point with
  | activeClear =>
      exact ⟨_, _, rfl, waiting, fun waits => absurd waits.1 Bool.false_ne_true, rfl⟩
  | interruptStop =>
      exact ⟨_, _, rfl, waiting, fun waits => absurd waits.2 Int.one_ne_zero, rfl⟩
  | interruptTest =>
      refine ⟨_, _, rfl, waiting, unmet, ?_⟩
      rw [if_neg about]
      rfl
  | activeSignal | interruptSignal =>
      refine ⟨_, _, rfl, ?_, ?_, rfl⟩
      · rw [signalled, waiting]
      · rwa [signalled]
  | suspendSet | joinTest | joinWait | joinClear | returned => exact about.elim

/-- The statements of all calls up to their signals. -/
def State.pending (state : State) : Nat :=
  (state.calls.map CallPoint.toSignal).sum

theorem advance_waiting (waiting : state.run = .wait) (unmet : ¬ state.Waits)
    (due : state.SignalDue) :
    ∃ index after, step state (.advance index) = some after ∧ after.run = .wait ∧
      ¬ after.Waits ∧ after.pending + 1 = state.pending := by
  obtain ⟨point, member, about⟩ := due
  obtain ⟨earlier, later, split⟩ := List.append_of_mem member
  obtain ⟨next, moved, callEq, nextWaiting, nextUnmet, fewer⟩ :=
    callStep_waiting waiting unmet about
  have present : state.calls[earlier.length]? = some point := by
    rw [split, List.getElem?_append_right (Nat.le_refl _), Nat.sub_self, List.getElem?_cons_zero]
  refine ⟨earlier.length, { next with calls := next.calls.set earlier.length moved }, ?_,
    nextWaiting, nextUnmet, ?_⟩
  · simp only [step, present, Option.bind_some, callEq, Option.map_some]
  · have moves : (earlier ++ point :: later).set earlier.length moved =
        earlier ++ moved :: later := by
      rw [List.set_append_right _ _ (Nat.le_refl _), Nat.sub_self, List.set_cons_zero]
    simp only [State.pending, callStep_calls callEq, split, moves, List.map_append, List.map_cons,
      List.sum_append, List.sum_cons]
    omega

/-- With every signal sent, `Wait` blocks for ever. -/
theorem lost_of_settled (waiting : state.run = .wait) (unmet : ¬ state.Waits)
    (settled : ¬ state.SignalDue) :
    ∃ more lost, execute step more state = some lost ∧ ¬ NoLostWakeup lost := by
  refine ⟨[.run], { state with mCtrlMutex := state.mCtrlMutex.unLock, run := .blocked }, ?_, ?_⟩
  · simp only [execute, step, State.runStep, waiting, Option.bind_some]
  · exact fun held => (held rfl).elim unmet settled

/-- About to wait without a reason, `Run` can be left blocked for ever: the calls
send what signals they have, and `Run` blocks behind the last of them. -/
theorem lost_of_wait (waiting : state.run = .wait) (unmet : ¬ state.Waits) :
    ∃ more lost, execute step more state = some lost ∧ ¬ NoLostWakeup lost := by
  obtain ⟨count, counted⟩ : ∃ count, state.pending = count := ⟨_, rfl⟩
  induction count generalizing state with
  | zero =>
      refine lost_of_settled waiting unmet fun due => ?_
      obtain ⟨index, after, -, -, -, fewer⟩ := advance_waiting waiting unmet due
      omega
  | succ count inductionHypothesis =>
      by_cases due : state.SignalDue
      · obtain ⟨index, after, stepEq, stillWaiting, stillUnmet, fewer⟩ :=
          advance_waiting waiting unmet due
        obtain ⟨more, lost, runs, isLost⟩ :=
          inductionHypothesis stillWaiting stillUnmet (by omega)
        refine ⟨.advance index :: more, lost, ?_, isLost⟩
        rw [execute, stepEq, Option.bind_some, runs]
      · exact lost_of_settled waiting unmet due

theorem lost_append {first : List Label} (runs : execute step first state = some after)
    (lost : ∃ more lost, execute step more after = some lost ∧ ¬ NoLostWakeup lost) :
    ∃ more lost, execute step more state = some lost ∧ ¬ NoLostWakeup lost := by
  obtain ⟨more, lost, moreRuns, isLost⟩ := lost
  exact ⟨first ++ more, lost, by rw [execute_append, runs, Option.bind_some, moreRuns], isLost⟩

/-- The state behind a whole call of `Suspend`, with `Run` at a statement. -/
def State.suspendedAt (state : State) (run : RunPoint) : State :=
  { state with mIsSuspend := true, run := run, calls := state.calls ++ [.returned] }

theorem suspend_executed (state : State) :
    execute step [.call .suspend, .advance state.calls.length] state =
      some (state.suspendedAt state.run) := by
  simp [execute, step, Call.first, State.callStep, State.suspendedAt]

/-- Once the stop flag is set, `Suspend` takes `Run` to `Wait` from wherever it is
past the test of that flag. -/
theorem lost_of_stopped (stopped : state.thread.mStop ≠ 0) {steps : List Label}
    (runs : execute step steps (state.suspendedAt state.run) = some (state.suspendedAt .wait)) :
    ∃ more lost, execute step more state = some lost ∧ ¬ NoLostWakeup lost :=
  lost_append (suspend_executed state) (lost_append runs
    (lost_of_wait rfl fun waits => stopped waits.2))

/-- Once a flag has changed since `Run` tested it, and no signal is to come for
that, some run from here leaves `Run` blocked without a reason. -/
theorem lost_of_untested (notBlocked : state.run ≠ .blocked) (untested : ¬ state.AsTested) :
    ∃ more lost, execute step more state = some lost ∧ ¬ NoLostWakeup lost := by
  cases running : state.run <;> rw [State.AsTested, running] at untested
  case wait => exact lost_of_wait running untested
  case testSuspend | testSuspendAgain =>
    have runs : execute step [.run] (state.suspendedAt state.run) =
        some (state.suspendedAt .wait) := by
      simp [execute, step, State.runStep, running, State.suspendedAt]
    exact lost_of_stopped untested runs
  case doOtherSomething =>
    have runs : execute step [.run, .run] (state.suspendedAt state.run) =
        some (state.suspendedAt .wait) := by
      simp [execute, step, State.runStep, running, State.suspendedAt]
    exact lost_of_stopped untested runs
  case blocked => exact absurd running notBlocked
  all_goals exact absurd trivial untested

/-- A signal sent too early leaves everything but its call as it is. -/
theorem lost_of_not_signalsInTime {label : Label} (enabled : step state label = some after)
    (early : ¬ SignalsInTime state label) :
    ∃ more lost, execute step more after = some lost ∧ ¬ NoLostWakeup lost := by
  cases label with
  | run | call => exact absurd trivial early
  | advance index =>
      simp only [SignalsInTime, Classical.not_imp] at early
      obtain ⟨signals, notBlocked, untested⟩ := early
      have signalled : state.signal = state := by
        rw [State.signal, if_neg notBlocked]
      apply lost_of_untested
      all_goals
        rcases signals with present | present
        all_goals
          simp only [step, present, Option.bind_some, State.callStep, Option.map_some,
            signalled, Option.some.injEq] at enabled
          subst enabled
          assumption

/-! ## Runs -/

/-- The poll thread before `Run`, with no call made. -/
def start (thread : CThreadBase) (suspended : Bool) : State where
  thread := thread
  mIsSuspend := suspended

/-- A run loses no wake-up where no signal is sent between a test of `Run` and its
`Wait` after a tested flag has changed.  Every signal that is sent so can be
followed by statements that lose it. -/
theorem noLostWakeup_of_signalsInTime (thread : CThreadBase) (suspended : Bool)
    (labels : List Label) :
    (EachStep step SignalsInTime labels (start thread suspended) →
      Always step NoLostWakeup labels (start thread suspended)) ∧
    ∀ state label, execute step labels (start thread suspended) = some state →
      (step state label).isSome → ¬ SignalsInTime state label →
        ∃ more, ¬ Always step NoLostWakeup (labels ++ label :: more) (start thread suspended) := by
  constructor
  · intro inTime
    have kept : Always step (fun state => JoinsFinished state ∧ TestedOrDue state) labels
        (start thread suspended) := always_of_eachStep
      (fun _ _ _ held meets stepEq => step_testedOrDue held meets stepEq)
      ⟨nofun, Or.inl trivial⟩ inTime
    exact kept.mono fun _ held => held.2.noLostWakeup
  · intro state label runs enabled early
    obtain ⟨after, stepEq⟩ := Option.isSome_iff_exists.mp enabled
    obtain ⟨more, lost, moreRuns, isLost⟩ := lost_of_not_signalsInTime stepEq early
    refine ⟨more, fun always => isLost (always.after ?_)⟩
    rw [execute_append, runs, Option.bind_some, execute, stepEq, Option.bind_some, moreRuns]

/-- `Active` is called once the poll thread is blocked. -/
def signalBehindWait : List Label :=
  [.run, .run, .run, .run, .call .active, .advance 0, .advance 0, .run]

/-- `Active` is called between the test of `m_is_suspend` and `Wait`. -/
def signalBeforeWait : List Label :=
  [.run, .run, .run, .call .active, .advance 0, .advance 0, .run]

/-- The poll thread, once it runs. -/
def running : CThreadBase where
  mThreadstate := .threadIdle
  mThreadid := 1

/-- A signal that is sent behind `Wait` is not lost. -/
theorem noLostWakeup_of_signalBehindWait :
    Always step NoLostWakeup signalBehindWait (start running true) :=
  (noLostWakeup_of_signalsInTime running true signalBehindWait).1 (by decide)

/-- The signal finds nobody waiting, and the poll thread then blocks with no
other signal to come. -/
theorem lostWakeup_of_signalBeforeWait :
    ¬ Always step NoLostWakeup signalBeforeWait (start running true) := by
  have executed : (execute step signalBeforeWait (start running true)).map
      (fun state => decide (NoLostWakeup state)) = some false := by
    decide
  intro always
  obtain ⟨state, runs, observed⟩ := Option.map_eq_some_iff.mp executed
  exact of_decide_eq_false observed (always.after runs)

end NginxFastcgi.Service.PollThread
