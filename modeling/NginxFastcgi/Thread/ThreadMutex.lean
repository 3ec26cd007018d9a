import Mathlib.Logic.Function.Basic
import NginxFastcgi.Foundation.Transition
import NginxFastcgi.Thread.ThreadBase

/-!
# `CThreadMutex`, critical sections

Any number of threads call `Lock`, `TryLock` and `UnLock` of one mutex.  A
thread enters its critical section when its call returned `true`, and leaves it
with `UnLock`.  A step is one call that returned; a `Lock` that waits has not.

`TryLock` drops what `pthread_mutex_trylock` returns, so that a thread enters
after a try that failed.
-/

namespace NginxFastcgi.Thread

universe u

namespace CThreadMutex

/-- The error number of a try on a locked mutex. -/
def ebusy : Int := 16

def pthreadMutexTrylock (mutex : CThreadMutex) : CThreadMutex × Int :=
  if mutex.locked then (mutex, ebusy) else ({ locked := true }, 0)

/-- `TryLock`, which returns `true` whatever the call says. -/
def tryLock (mutex : CThreadMutex) : CThreadMutex × Bool :=
  (mutex.pthreadMutexTrylock.1, true)

@[simp]
theorem locked_tryLock (mutex : CThreadMutex) : mutex.tryLock.1.locked = true := by
  unfold tryLock pthreadMutexTrylock
  split
  · assumption
  · rfl

theorem lock_eq_some {mutex after : CThreadMutex} (locked : mutex.lock = some after) :
    mutex.locked = false ∧ after.locked = true := by
  unfold lock at locked
  split at locked
  · contradiction
  · rename_i free
    cases locked
    exact ⟨Bool.eq_false_iff.mpr free, rfl⟩

end CThreadMutex

namespace CriticalSection

open Foundation.Transition

variable {Thread : Type u} [DecidableEq Thread]

structure State (Thread : Type u) where
  mutex : CThreadMutex := {}
  /-- The threads in their critical sections. -/
  inside : Thread → Bool := fun _ => false

inductive Label (Thread : Type u)
  | lock (thread : Thread)
  | tryLock (thread : Thread)
  | unLock (thread : Thread)

/-- A call of `thread` returned. -/
def State.returned (state : State Thread) (mutex : CThreadMutex) (thread : Thread)
    (result : Bool) : State Thread where
  mutex := mutex
  inside := if result then Function.update state.inside thread true else state.inside

def step : Step (State Thread) (Label Thread)
  | state, .lock thread => state.mutex.lock.map fun mutex => state.returned mutex thread true
  | state, .tryLock thread =>
      let tried := state.mutex.tryLock
      some (state.returned tried.1 thread tried.2)
  | state, .unLock thread =>
      if state.inside thread then
        some
          { mutex := state.mutex.unLock
            inside := Function.update state.inside thread false }
      else
        none

/-- What a mutex is for. -/
def AtMostOneInside (state : State Thread) : Prop :=
  ∀ first second, state.inside first = true → state.inside second = true → first = second

/-- The mutex is locked while somebody is inside. -/
def Guarded (state : State Thread) : Prop :=
  state.mutex.locked = true ↔ ∃ thread, state.inside thread = true

/-- No thread tries while another one is inside. -/
def TriesAlone (state : State Thread) : Label Thread → Prop
  | .tryLock thread => ∀ other, state.inside other = true → other = thread
  | _ => True

section Entering

variable {state : State Thread} {mutex : CThreadMutex} {thread : Thread}

theorem inside_returned_iff (other : Thread) :
    (state.returned mutex thread true).inside other = true ↔
      other = thread ∨ state.inside other = true := by
  simp only [State.returned, if_true, Function.update_apply]
  split
  · rename_i same
    simp only [same, true_or]
  · rename_i different
    simp only [different, false_or]

theorem guarded_returned (locked : mutex.locked = true) :
    Guarded (state.returned mutex thread true) :=
  iff_of_true locked ⟨thread, (inside_returned_iff thread).mpr (Or.inl rfl)⟩

/-- Entering keeps others out exactly when nobody else was inside. -/
theorem atMostOneInside_returned_iff :
    AtMostOneInside (state.returned mutex thread true) ↔
      ∀ other, state.inside other = true → other = thread := by
  constructor
  · intro alone other entered
    exact alone other thread ((inside_returned_iff other).mpr (Or.inr entered))
      ((inside_returned_iff thread).mpr (Or.inl rfl))
  · intro alone
    have entered : ∀ {other}, (state.returned mutex thread true).inside other = true →
        other = thread :=
      fun inside => ((inside_returned_iff _).mp inside).elim id (alone _)
    intro first second firstInside secondInside
    exact (entered firstInside).trans (entered secondInside).symm

omit [DecidableEq Thread] in
theorem nobody_inside (guarded : Guarded state) (free : state.mutex.locked = false)
    (other : Thread) : ¬ state.inside other = true := by
  intro inside
  rw [guarded.mpr ⟨other, inside⟩] at free
  contradiction

/-- The only thread inside leaves nobody behind. -/
theorem nobody_inside_after (alone : AtMostOneInside state) (entered : state.inside thread = true)
    (other : Thread) : ¬ Function.update state.inside thread false other = true := by
  rw [Function.update_apply]
  split
  · simp only [Bool.false_eq_true, not_false_eq_true]
  · rename_i different
    exact fun inside => different (alone other thread inside entered)

end Entering

/-- A call keeps the threads apart exactly when it is no try beside another
thread. -/
theorem step_exact {state after : State Thread} {label : Label Thread} (guarded : Guarded state)
    (alone : AtMostOneInside state) (stepEq : step state label = some after) :
    Guarded after ∧ (AtMostOneInside after ↔ TriesAlone state label) := by
  cases label with
  | lock thread =>
      obtain ⟨mutex, locked, rfl⟩ := Option.map_eq_some_iff.mp stepEq
      obtain ⟨free, taken⟩ := CThreadMutex.lock_eq_some locked
      refine ⟨guarded_returned taken, iff_of_true (atMostOneInside_returned_iff.mpr ?_) trivial⟩
      exact fun other inside => absurd inside (nobody_inside guarded free other)
  | tryLock thread =>
      cases stepEq
      exact ⟨guarded_returned (CThreadMutex.locked_tryLock _), atMostOneInside_returned_iff⟩
  | unLock thread =>
      simp only [step] at stepEq
      split at stepEq
      · rename_i entered
        cases stepEq
        have empty := nobody_inside_after alone entered
        refine ⟨iff_of_false Bool.false_ne_true ?_, iff_of_true ?_ trivial⟩
        · rintro ⟨other, inside⟩
          exact empty other inside
        · intro first _ inside
          exact absurd inside (empty first)
      · contradiction

/-- The threads are kept apart in every state of a run exactly when no call of
`TryLock` in it is made while another thread is inside. -/
theorem atMostOneInside_iff_triesAlone (labels : List (Label Thread)) :
    Always step AtMostOneInside labels {} ↔ EachStep step TriesAlone labels {} := by
  apply always_iff_eachStep_of_exact (fun _ _ _ => step_exact)
  · refine iff_of_false Bool.false_ne_true ?_
    rintro ⟨thread, inside⟩
    exact absurd inside Bool.false_ne_true
  · intro first _ inside
    exact absurd inside Bool.false_ne_true

/-- A thread tries while another one holds the lock, and both are inside. -/
theorem not_atMostOneInside :
    ¬ Always step AtMostOneInside [.lock 0, .tryLock 1] ({} : State Nat) := by
  intro always
  have apart := always.after rfl
  exact absurd (apart 0 1 rfl rfl) (by decide)

end CriticalSection

end NginxFastcgi.Thread
