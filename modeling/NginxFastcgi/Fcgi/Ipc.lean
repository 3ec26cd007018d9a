import NginxFastcgi.Fcgi.Record

/-!
# The connection of a request

What the kernel does with `ipcFd` is decided ahead of time: a list of answers
to the coming writes and a list of what the coming reads return.  A write
beyond the answers is taken whole, and behind the reads is the end of the
stream, so every run of the library is a run with some finite lists.
-/

namespace NginxFastcgi.Fcgi

/-- How `OS_Write` answers a write of at least one byte. -/
inductive WriteAnswer
  /-- It takes `count + 1` bytes, or all if there are fewer. -/
  | wrote (count : Nat)
  | failed (errno : Int)
  deriving DecidableEq

/-- What `OS_Read` returns.  No data is the end of the stream. -/
inductive ReadAnswer
  | data (bytes : List UInt8)
  | failed (errno : Int)
  deriving DecidableEq

/-- The kernel's side of `ipcFd`. -/
structure Ipc where
  writes : List WriteAnswer
  /-- The bytes taken so far. -/
  written : List UInt8
  reads : List ReadAnswer
  deriving DecidableEq

/-- The loop of `write_it_all`: the error that ended it, the bytes that were
taken, and the answers that are left. -/
def writeLoop : List WriteAnswer → List UInt8 → Option Int × List UInt8 × List WriteAnswer
  | answers, [] => (none, [], answers)
  | [], buf => (none, buf, [])
  | .failed errno :: answers, _ :: _ => (some errno, [], answers)
  | .wrote count :: answers, byte :: buf =>
      let (error, taken, left) := writeLoop answers (buf.drop count)
      (error, byte :: buf.take count ++ taken, left)

namespace Ipc

/-- `write_it_all`. -/
def writeItAll (ipc : Ipc) (buf : List UInt8) : Option Int × Ipc :=
  let (error, taken, left) := writeLoop ipc.writes buf
  (error, { ipc with writes := left, written := ipc.written ++ taken })

/-- No coming write fails. -/
def Sound (ipc : Ipc) : Prop :=
  ∀ errno, WriteAnswer.failed errno ∉ ipc.writes

/-- A connection that takes everything and brings `bytes` with one read. -/
def bringing (bytes : List UInt8) : Ipc where
  writes := []
  written := []
  reads := [.data bytes]

theorem sound_bringing (bytes : List UInt8) : (bringing bytes).Sound :=
  fun _ => List.not_mem_nil

end Ipc

section WriteLoop

variable {answers : List WriteAnswer} {buf : List UInt8}

/-- Answers are used from the front. -/
theorem left_isSuffix (answers : List WriteAnswer) (buf : List UInt8) :
    (writeLoop answers buf).2.2 <:+ answers := by
  induction answers generalizing buf with
  | nil => cases buf <;> simp [writeLoop]
  | cons answer answers inductionHypothesis =>
      cases buf with
      | nil => simp [writeLoop]
      | cons byte buf =>
          cases answer with
          | failed errno => simp [writeLoop]
          | wrote count => exact (inductionHypothesis (buf.drop count)).trans (by simp)

/-- Without a failing answer everything is taken, however often the kernel
takes only a part. -/
theorem writeLoop_of_sound (sound : ∀ errno, WriteAnswer.failed errno ∉ answers) :
    (writeLoop answers buf).1 = none ∧ (writeLoop answers buf).2.1 = buf := by
  induction answers generalizing buf with
  | nil => cases buf <;> simp [writeLoop]
  | cons answer answers inductionHypothesis =>
      cases buf with
      | nil => simp [writeLoop]
      | cons byte buf =>
          cases answer with
          | failed errno => exact absurd List.mem_cons_self (sound errno)
          | wrote count =>
              have later := @inductionHypothesis (buf.drop count) fun errno member =>
                sound errno (List.mem_cons_of_mem _ member)
              simp [writeLoop, later]

end WriteLoop

theorem Ipc.writeItAll_of_sound {ipc : Ipc} (sound : ipc.Sound) (buf : List UInt8) :
    ∃ left, ipc.writeItAll buf =
        (none, { ipc with writes := left, written := ipc.written ++ buf }) ∧
      ∀ errno, WriteAnswer.failed errno ∉ left := by
  obtain ⟨noError, takenAll⟩ := @writeLoop_of_sound _ buf sound
  refine ⟨(writeLoop ipc.writes buf).2.2, ?_, ?_⟩
  · simp only [Ipc.writeItAll, noError, takenAll]
  · intro errno member
    exact sound errno ((left_isSuffix ipc.writes buf).subset member)

/-- The fields of `FCGX_Request` that its streams share. -/
structure Request where
  requestId : Nat
  role : Nat
  ipc : Ipc
  isBeginProcessed : Bool
  keepConnection : Bool
  appStatus : Int
  nWriters : Int
  deriving DecidableEq

namespace Request

/-- Request 1 once it has begun, with the rest of its connection. -/
def begun (role : Nat) (ipc : Ipc) : Request where
  requestId := 1
  role := role
  ipc := ipc
  isBeginProcessed := true
  keepConnection := false
  appStatus := 0
  nWriters := 2

/-- The connection took `bytes` and nothing else changed. -/
structure Sends (before after : Request) (bytes : List UInt8) : Prop where
  written : after.ipc.written = before.ipc.written ++ bytes
  reads : after.ipc.reads = before.ipc.reads
  sound : after.ipc.Sound
  frame : after = { before with ipc := after.ipc }

variable {before middle after : Request} {bytes more : List UInt8}

theorem Sends.refl (sound : before.ipc.Sound) : before.Sends before [] :=
  ⟨(List.append_nil _).symm, rfl, sound, rfl⟩

theorem Sends.trans (first : before.Sends middle bytes) (second : middle.Sends after more) :
    before.Sends after (bytes ++ more) := by
  constructor
  · rw [second.written, first.written, List.append_assoc]
  · rw [second.reads, first.reads]
  · exact second.sound
  · rw [second.frame, first.frame]

theorem Sends.requestId_eq (sends : before.Sends after bytes) :
    after.requestId = before.requestId := by
  rw [sends.frame]

theorem Sends.nWriters_eq (sends : before.Sends after bytes) :
    after.nWriters = before.nWriters := by
  rw [sends.frame]

theorem Sends.appStatus_eq (sends : before.Sends after bytes) :
    after.appStatus = before.appStatus := by
  rw [sends.frame]

/-- Writing out a buffer. -/
theorem sends_writeItAll (sound : before.ipc.Sound) (bytes : List UInt8) :
    (before.ipc.writeItAll bytes).1 = none ∧
      before.Sends { before with ipc := (before.ipc.writeItAll bytes).2 } bytes := by
  obtain ⟨left, wroteEq, leftSound⟩ := Ipc.writeItAll_of_sound sound bytes
  rw [wroteEq]
  exact ⟨rfl, rfl, rfl, leftSound, rfl⟩

end Request

end NginxFastcgi.Fcgi
