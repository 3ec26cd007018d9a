/-!
# `CThreadBase`, the fields two threads share

A thread object is used by the thread that controls it and by the thread it
controls.  The fields below are those that both of them read or write.  What
they do with them, one statement at a time, follows in other modules.
-/

namespace NginxFastcgi.Thread

inductive ThreadState
  | threadIdle
  | threadRuning
  | threadPause
  | threadExit
  deriving DecidableEq

/-- A mutex that any thread may unlock. -/
structure CThreadMutex where
  locked : Bool := false
  deriving DecidableEq

namespace CThreadMutex

/-- `Lock`, which waits while the mutex is locked. -/
def lock (mutex : CThreadMutex) : Option CThreadMutex :=
  if mutex.locked then none else some { locked := true }

def unLock (_ : CThreadMutex) : CThreadMutex :=
  { locked := false }

end CThreadMutex

/-- The default values are those of `CleanData`. -/
structure CThreadBase where
  mStop : Int := 0
  mThreadstate : ThreadState := .threadExit
  mTid : Int := 0
  /-- Zero is no thread. -/
  mThreadid : Nat := 0
  mThreadMutex : CThreadMutex := {}
  deriving DecidableEq

namespace CThreadBase

def setThreadState (thread : CThreadBase) (state : ThreadState) : CThreadBase :=
  { thread with mThreadstate := state }

def getThreadID (thread : CThreadBase) : Nat :=
  if thread.mThreadstate = .threadExit then 0 else thread.mThreadid

def setStopFlag (thread : CThreadBase) (stop : Int) : CThreadBase :=
  { thread with mStop := stop }

def isNeedStop (thread : CThreadBase) : Bool :=
  0 ≠ thread.mStop

/-- The test at the start of `Interrupt`, which returns at once where there is
no thread to stop. -/
def nothingToStop (thread : CThreadBase) : Bool :=
  thread.mStop ≠ 0 ∨ thread.getThreadID = 0

theorem isNeedStop_iff (thread : CThreadBase) :
    thread.isNeedStop = true ↔ thread.mStop ≠ 0 := by
  rw [isNeedStop, decide_eq_true_iff, ne_comm]

theorem nothingToStop_iff (thread : CThreadBase) :
    thread.nothingToStop = true ↔
      thread.mStop ≠ 0 ∨ thread.mThreadstate = .threadExit ∨ thread.mThreadid = 0 := by
  rw [nothingToStop, decide_eq_true_iff, getThreadID]
  split
  · rename_i exited
    simp [exited]
  · rename_i running
    simp [running]

end CThreadBase

end NginxFastcgi.Thread
