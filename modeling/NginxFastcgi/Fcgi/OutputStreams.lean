import NginxFastcgi.Fcgi.WriterRecords
import NginxFastcgi.Foundation.Transition

/-!
# The two output streams of a request

An application writes to `out` and `err` in any order and closes them in any
order, and both go to one connection.  The connection carries a sequence of
records in which the records of either stream are its content followed by one
empty record, and the last writer to close ends the request.
-/

namespace NginxFastcgi.Fcgi

open Foundation.Framing
open Foundation.Transition

inductive OutputStream
  | out
  | err
  deriving DecidableEq

namespace OutputStream

/-- The record type of the stream. -/
def type : OutputStream → UInt8
  | out => fcgiStdout
  | err => fcgiStderr

def other : OutputStream → OutputStream
  | out => err
  | err => out

theorem type_injective : Function.Injective type := by
  intro first second same
  cases first <;> cases second <;> first | rfl | cases same

theorem type_ne_endRequest (stream : OutputStream) : stream.type ≠ fcgiEndRequest := by
  cases stream <;> decide

end OutputStream

/-- A request from `FCGX_Accept_r` on, with what its streams accepted. -/
structure Session where
  request : Request
  writers : OutputStream → Writer
  accepted : OutputStream → List UInt8
  /-- The exit status that was the last to be set before the request ended. -/
  exitStatus : Int

/-- What an application does with its output. -/
inductive OutputCall
  | putChar (stream : OutputStream) (c : UInt8)
  | putStr (stream : OutputStream) (str : List UInt8)
  | fflush (stream : OutputStream)
  | fclose (stream : OutputStream)
  | setExitStatus (status : Int)
  deriving DecidableEq

namespace Session

/-- The session after a call on one stream, which accepts `bytes` unless the
call reports an error. -/
def afterCall (session : Session) (stream : OutputStream) (bytes : List UInt8) :
    Int × Writer × Request → Session
  | (result, writer, request) =>
      { session with
        request := request
        writers := Function.update session.writers stream writer
        accepted := Function.update session.accepted stream
          (session.accepted stream ++ if result < 0 then [] else bytes) }

/-- Both streams were closed. -/
def Ended (session : Session) : Prop :=
  ∀ stream, (session.writers stream).wasFCloseCalled = true

instance (session : Session) : Decidable session.Ended :=
  decidable_of_iff ((session.writers .out).wasFCloseCalled = true ∧
      (session.writers .err).wasFCloseCalled = true)
    ⟨fun both stream => by cases stream; exacts [both.1, both.2], fun ended => ⟨ended _, ended _⟩⟩

/-- `FCGX_SetExitStatus`. -/
def setExitStatus (session : Session) (status : Int) : Session :=
  { session with
    request := { session.request with appStatus := status }
    exitStatus := if session.Ended then session.exitStatus else status }

/-- The streams that `FCGX_Accept_r` gives a request, on the memory of their
buffers. -/
def start (request : Request) (memory : OutputStream → List UInt8) : Session where
  request := { request with nWriters := 2 }
  writers := fun stream => newWriter (memory stream) stream.type
  accepted := fun _ => []
  exitStatus := request.appStatus

end Session

open Session in
/-- The call returns, and leaves the session that follows. -/
def outputStep : Step Session OutputCall
  | session, .putChar stream c =>
      ((session.writers stream).putChar c session.request).map (session.afterCall stream [c])
  | session, .putStr stream str =>
      (Writer.putStr Writer.emptyBuffProc str (session.writers stream) session.request).map
        (session.afterCall stream str)
  | session, .fflush stream =>
      ((session.writers stream).fflush session.request).map (session.afterCall stream [])
  | session, .fclose stream =>
      ((session.writers stream).fclose session.request).map (session.afterCall stream [])
  | session, .setExitStatus status => some (session.setExitStatus status)

/-- The records of one type. -/
def ofType (type : UInt8) (records : List Record) : List Record :=
  records.filter fun record => record.type = type

theorem ofType_append (type : UInt8) (first second : List Record) :
    ofType type (first ++ second) = ofType type first ++ ofType type second :=
  List.filter_append ..

theorem ofType_eq_self {type : UInt8} {records : List Record}
    (same : ∀ record ∈ records, record.type = type) : ofType type records = records := by
  apply List.filter_eq_self.mpr
  simpa using same

theorem ofType_eq_nil {type : UInt8} {records : List Record}
    (different : ∀ record ∈ records, record.type ≠ type) : ofType type records = [] := by
  apply List.filter_eq_nil_iff.mpr
  simpa using different

/-- The record that ends a stream.  An error stream that never carried
anything has none. -/
def eofFor (type : UInt8) (requestId : Nat) (fits : requestId < 65536) (chunks : List Record) :
    List Record :=
  if type = fcgiStderr ∧ chunks = [] then [] else [Writer.eofRecord type requestId fits]

/-- The records of a stream of the given type, which accepted `accepted` in
all. -/
inductive StreamLog (type : UInt8) (requestId : Nat) (fits : requestId < 65536)
    (accepted : List UInt8) (writer : Writer) (own : List Record) : Prop
  | isOpen (isOpen : writer.Open) (typeEq : writer.type = type)
      (chunks : ∀ record ∈ own, Writer.IsChunk type requestId record)
      (content : own.flatMap Record.content ++ writer.content = accepted)
      (written : writer.isAnythingWritten = !own.isEmpty)
  | closed (closed : writer.Closed) (chunks : List Record)
      (areChunks : ∀ record ∈ chunks, Writer.IsChunk type requestId record)
      (content : chunks.flatMap Record.content = accepted)
      (ends : own = chunks ++ eofFor type requestId fits chunks)

/-- The request ended with `records`: the last one says so, and it is the only
one of its kind. -/
def EndsWith (requestId : Nat) (fits : requestId < 65536) (exitStatus : Int)
    (records : List Record) : Prop :=
  ∃ front, records = front ++
      [endRequestRecord requestId fits exitStatus fcgiRequestComplete] ∧
    ∀ record ∈ front, record.type ≠ fcgiEndRequest

/-- What the records that were sent say about the session. -/
structure Conversation (requestId : Nat) (fits : requestId < 65536) (session : Session)
    (records : List Record) : Prop where
  own : ∀ record ∈ records, record.requestId = requestId ∧
    (record.type = fcgiStdout ∨ record.type = fcgiStderr ∨ record.type = fcgiEndRequest)
  streams : ∀ stream, StreamLog stream.type requestId fits (session.accepted stream)
    (session.writers stream) (ofType stream.type records)
  ended : session.Ended → EndsWith requestId fits session.exitStatus records
  running : ¬ session.Ended → ∀ record ∈ records, record.type ≠ fcgiEndRequest

/-- The conversation, and what the library keeps to itself. -/
structure Kept (requestId : Nat) (fits : requestId < 65536) (session : Session)
    (records : List Record) : Prop extends Conversation requestId fits session records where
  requestId_eq : session.request.requestId = requestId
  sound : session.request.ipc.Sound
  nWriters_eq : session.request.nWriters =
    (if (session.writers .out).wasFCloseCalled then 0 else 1) +
      if (session.writers .err).wasFCloseCalled then 0 else 1
  appStatus_eq : ¬ session.Ended → session.request.appStatus = session.exitStatus

/-- The records went out, and the fields of the request that the output does
not use are the same. -/
structure Session.Advances (before after : Session) (records : List Record) : Prop where
  written : after.request.ipc.written = before.request.ipc.written ++ wire records
  reads : after.request.ipc.reads = before.request.ipc.reads
  frame : after.request = { before.request with
    ipc := after.request.ipc
    appStatus := after.request.appStatus
    nWriters := after.request.nWriters }

namespace Session.Advances

variable {before middle after : Session} {records more : List Record}

theorem refl (session : Session) : session.Advances session [] :=
  ⟨(List.append_nil _).symm, rfl, rfl⟩

theorem trans (first : before.Advances middle records) (second : middle.Advances after more) :
    before.Advances after (records ++ more) := by
  constructor
  · rw [second.written, first.written, wire_append, List.append_assoc]
  · rw [second.reads, first.reads]
  · rw [second.frame, first.frame]

theorem of_sends {stream : OutputStream} {bytes : List UInt8} {result nWriters : Int}
    {writer : Writer} {sent : Request}
    (sends : Request.Sends { before.request with nWriters := nWriters } sent (wire records)) :
    before.Advances (before.afterCall stream bytes (result, writer, sent)) records := by
  refine ⟨sends.written, sends.reads, ?_⟩
  change sent = _
  rw [sends.frame]
  rfl

end Session.Advances

/-! ## Steps -/

section Steps

variable {requestId : Nat} {fits : requestId < 65536} {session : Session}
  {records : List Record}

/-- Sending content of an open stream. -/
theorem Kept.emits (kept : Kept requestId fits session records) {stream : OutputStream}
    (isOpen : (session.writers stream).Open)
    (typeEq : (session.writers stream).type = stream.type) {after : Writer} {sent : Request}
    {more : List Record} {bytes : List UInt8} {result : Int} (succeeds : ¬ result < 0)
    (emits : Writer.Emits (session.writers stream) session.request after sent more bytes) :
    Kept requestId fits (session.afterCall stream bytes (result, after, sent))
      (records ++ more) := by
  have moreType : ∀ record ∈ more, record.type = stream.type := by
    intro record member
    rw [(emits.chunks record member).type_eq, typeEq]
  have stillRunning : ¬ session.Ended := by
    intro ended
    have fclosed := ended stream
    rw [isOpen.not_fclosed] at fclosed
    contradiction
  have running : ¬ (session.afterCall stream bytes (result, after, sent)).Ended := by
    intro ended
    have fclosed := ended stream
    simp only [Session.afterCall, Function.update_self, emits.isOpen.not_fclosed] at fclosed
    contradiction
  constructor
  · constructor
    · intro record member
      rcases List.mem_append.mp member with early | late
      · exact kept.own record early
      · have chunk := emits.chunks record late
        refine ⟨chunk.requestId_eq.trans kept.requestId_eq, ?_⟩
        rw [moreType record late]
        cases stream <;> simp [OutputStream.type]
    · intro which
      rw [ofType_append]
      by_cases same : which = stream
      · subst same
        rw [ofType_eq_self moreType]
        simp only [Session.afterCall, Function.update_self, succeeds, if_false]
        have log := kept.streams which
        cases log with
        | closed closed _ _ _ _ =>
            have fclosed := closed.fclosed
            rw [isOpen.not_fclosed] at fclosed
            contradiction
        | isOpen _ _ chunks content written =>
            apply StreamLog.isOpen emits.isOpen (emits.type_eq.trans typeEq)
            · intro record member
              rcases List.mem_append.mp member with early | late
              · exact chunks record early
              · have chunk := emits.chunks record late
                rwa [typeEq, kept.requestId_eq] at chunk
            · rw [List.flatMap_append, List.append_assoc, emits.content_eq, ← List.append_assoc,
                content]
            · rw [emits.written_eq, written]
              cases ofType which.type records <;> simp
      · have different : ofType which.type more = [] := by
          apply ofType_eq_nil
          intro record member
          rw [moreType record member]
          exact fun typeSame => same (OutputStream.type_injective typeSame.symm)
        rw [different, List.append_nil]
        simpa [Session.afterCall, Function.update_of_ne same] using kept.streams which
    · exact fun ended => absurd ended running
    · intro _ record member
      rcases List.mem_append.mp member with early | late
      · exact kept.running stillRunning record early
      · rw [moreType record late]
        exact stream.type_ne_endRequest
  · exact emits.sends.requestId_eq.trans kept.requestId_eq
  · exact emits.sends.sound
  · have counts := kept.nWriters_eq
    simp only [Session.afterCall, emits.sends.nWriters_eq, counts]
    cases stream
    · simp [emits.isOpen.not_fclosed, isOpen.not_fclosed]
    · simp [emits.isOpen.not_fclosed, isOpen.not_fclosed]
  · intro _
    exact emits.sends.appStatus_eq.trans (kept.appStatus_eq stillRunning)

/-- Replacing a writer does not end the session unless it was closed. -/
theorem ended_afterCall_iff {stream : OutputStream} {after : Writer} {sent : Request}
    {bytes : List UInt8} {result : Int}
    (same : after.wasFCloseCalled = (session.writers stream).wasFCloseCalled) :
    (session.afterCall stream bytes (result, after, sent)).Ended ↔ session.Ended := by
  apply forall_congr'
  intro which
  by_cases isStream : which = stream
  · subst isStream
    simp [Session.afterCall, same]
  · simp [Session.afterCall, Function.update_of_ne isStream]

/-- Nothing happens on a closed stream. -/
theorem Kept.silent (kept : Kept requestId fits session records) {stream : OutputStream}
    (closed : (session.writers stream).Closed) {after : Writer} (stays : after.Closed)
    {bytes : List UInt8} {result : Int} (refused : result < 0 ∨ bytes = []) :
    Kept requestId fits (session.afterCall stream bytes (result, after, session.request))
      records := by
  have sameEnd : (session.afterCall stream bytes (result, after, session.request)).Ended ↔
      session.Ended :=
    ended_afterCall_iff (stays.fclosed.trans closed.fclosed.symm)
  have nothing : (if result < 0 then [] else bytes) = [] := by
    rcases refused with negative | empty
    · rw [if_pos negative]
    · rw [empty, ite_self]
  constructor
  · constructor
    · exact kept.own
    · intro which
      have log := kept.streams which
      by_cases same : which = stream
      · subst same
        simp only [Session.afterCall, Function.update_self, nothing, List.append_nil]
        cases log with
        | isOpen isOpen _ _ _ _ =>
            have fclosed := closed.fclosed
            rw [isOpen.not_fclosed] at fclosed
            contradiction
        | closed _ chunks areChunks content ends =>
            exact .closed stays chunks areChunks content ends
      · simpa [Session.afterCall, Function.update_of_ne same] using log
    · exact fun ended => kept.ended (sameEnd.mp ended)
    · exact fun running => kept.running fun ended => running (sameEnd.mpr ended)
  · exact kept.requestId_eq
  · exact kept.sound
  · have counts := kept.nWriters_eq
    simp only [Session.afterCall, counts]
    cases stream
    · simp [stays.fclosed, closed.fclosed]
    · simp [stays.fclosed, closed.fclosed]
  · exact fun running => kept.appStatus_eq fun ended => running (sameEnd.mpr ended)

theorem Kept.setExitStatus (kept : Kept requestId fits session records) (status : Int) :
    Kept requestId fits (session.setExitStatus status) records := by
  have sameEnd : (session.setExitStatus status).Ended ↔ session.Ended := Iff.rfl
  constructor
  · constructor
    · exact kept.own
    · exact kept.streams
    · intro ended
      have already := sameEnd.mp ended
      simpa [Session.setExitStatus, already] using kept.ended already
    · exact fun running => kept.running running
  · exact kept.requestId_eq
  · exact kept.sound
  · exact kept.nWriters_eq
  · intro running
    have still : ¬ session.Ended := fun ended => running (sameEnd.mpr ended)
    simp [Session.setExitStatus, still]

/-- The open stream is the last one exactly when the other was closed. -/
theorem Kept.nWriters_eq_one_iff (kept : Kept requestId fits session records)
    {stream : OutputStream} (isOpen : (session.writers stream).Open) :
    session.request.nWriters = 1 ↔
      (session.writers stream.other).wasFCloseCalled = true := by
  rw [kept.nWriters_eq]
  have notClosed := isOpen.not_fclosed
  cases stream <;> simp [OutputStream.other] at notClosed ⊢ <;> rw [notClosed] <;>
    split <;> simp_all

/-- After one stream was closed the session has ended if the other was. -/
theorem ended_afterClose_iff {stream : OutputStream} {after : Writer} {sent : Request}
    {bytes : List UInt8} {result : Int} (fclosed : after.wasFCloseCalled = true) :
    (session.afterCall stream bytes (result, after, sent)).Ended ↔
      (session.writers stream.other).wasFCloseCalled = true := by
  constructor
  · intro ended
    have other := ended stream.other
    cases stream <;> simpa [Session.afterCall, OutputStream.other] using other
  · intro other which
    cases stream <;> cases which <;>
      simp_all [Session.afterCall, OutputStream.other]

theorem type_eofRecords {writer : Writer} {chunks : List Record} {record : Record}
    (member : record ∈ writer.eofRecords chunks requestId fits) :
    record.type = writer.type ∧ record.requestId = requestId := by
  unfold Writer.eofRecords at member
  split at member
  · simp at member
  · rw [List.mem_singleton.mp member]
    exact ⟨rfl, rfl⟩

/-- The condition on an error stream in terms of all its records. -/
theorem eofRecords_eq {writer : Writer} {own rest : List Record}
    (written : writer.isAnythingWritten = !own.isEmpty) :
    writer.eofRecords rest requestId fits = eofFor writer.type requestId fits (own ++ rest) := by
  have nothing : (rest = [] ∧ writer.isAnythingWritten = false) ↔ own ++ rest = [] := by
    rw [written]
    cases own <;> simp
  simp only [Writer.eofRecords, eofFor, nothing]

/-- Closing an open stream ends it, and ends the request if the other stream
is closed. -/
theorem Kept.fclose (kept : Kept requestId fits session records) {stream : OutputStream}
    (isOpen : (session.writers stream).Open)
    (typeEq : (session.writers stream).type = stream.type) :
    ∃ after sent later, (session.writers stream).fclose session.request = some (0, after, sent) ∧
      after.Closed ∧
      Kept requestId fits (session.afterCall stream [] (0, after, sent)) (records ++ later) ∧
      session.Advances (session.afterCall stream [] (0, after, sent)) later := by
  have idEq := kept.requestId_eq
  subst idEq
  obtain ⟨after, sent, rest, closeEq, closed, chunks, content, sends⟩ :=
    Writer.fclose_spec isOpen kept.sound fits
  have stillRunning : ¬ session.Ended := by
    intro ended
    have fclosed := ended stream
    rw [isOpen.not_fclosed] at fclosed
    contradiction
  have noEnd := kept.running stillRunning
  rw [typeEq] at chunks
  cases kept.streams stream with
  | closed wasClosed _ _ _ _ =>
      have fclosed := wasClosed.fclosed
      rw [isOpen.not_fclosed] at fclosed
      contradiction
  | isOpen _ _ ownChunks ownContent written =>
      let eofs := eofFor stream.type session.request.requestId fits
        (ofType stream.type records ++ rest)
      let ends := Writer.endRecords session.request fits
      have eofsEq : (session.writers stream).eofRecords rest session.request.requestId fits =
          eofs := by
        rw [eofRecords_eq written, typeEq]
      have restType : ∀ record ∈ rest ++ eofs,
          record.type = stream.type ∧ record.requestId = session.request.requestId := by
        intro record member
        rcases List.mem_append.mp member with chunk | last
        · exact ⟨(chunks record chunk).type_eq, (chunks record chunk).requestId_eq⟩
        · rw [← eofsEq] at last
          rw [← typeEq]
          exact type_eofRecords last
      have endsType : ∀ record ∈ ends, record.type = fcgiEndRequest ∧
          record.requestId = session.request.requestId := by
        intro record member
        simp only [ends, Writer.endRecords] at member
        split at member
        · rw [List.mem_singleton.mp member]
          exact ⟨rfl, rfl⟩
        · simp at member
      have ended : (session.afterCall stream [] (0, after, sent)).Ended ↔
          session.request.nWriters = 1 :=
        (ended_afterClose_iff closed.fclosed).trans (kept.nWriters_eq_one_iff isOpen).symm
      rw [eofsEq, ← List.append_assoc] at sends
      refine ⟨after, sent, rest ++ eofs ++ ends, closeEq, closed, ?_, .of_sends sends⟩
      constructor
      · constructor
        · intro record member
          rcases List.mem_append.mp member with early | late
          · exact kept.own record early
          · rcases List.mem_append.mp late with ofStream | last
            · obtain ⟨sameType, sameId⟩ := restType record ofStream
              refine ⟨sameId, ?_⟩
              rw [sameType]
              cases stream <;> simp [OutputStream.type]
            · exact ⟨(endsType record last).2, Or.inr (Or.inr (endsType record last).1)⟩
        · intro which
          have noEnds : ofType which.type ends = [] := by
            apply ofType_eq_nil
            intro record member
            rw [(endsType record member).1]
            exact which.type_ne_endRequest.symm
          rw [ofType_append, ofType_append, noEnds, List.append_nil]
          by_cases same : which = stream
          · subst same
            rw [ofType_eq_self fun record member => (restType record member).1]
            simp only [Session.afterCall, Function.update_self, ite_self, List.append_nil]
            apply StreamLog.closed closed (ofType which.type records ++ rest)
            · intro record member
              rcases List.mem_append.mp member with early | late
              · exact ownChunks record early
              · exact chunks record late
            · rw [List.flatMap_append, content, ownContent]
            · rw [List.append_assoc]
          · have different : ofType which.type (rest ++ eofs) = [] := by
              apply ofType_eq_nil
              intro record member
              rw [(restType record member).1]
              exact fun typeSame => same (OutputStream.type_injective typeSame.symm)
            rw [different, List.append_nil]
            simpa [Session.afterCall, Function.update_of_ne same] using kept.streams which
        · intro isEnded
          have last := ended.mp isEnded
          refine ⟨records ++ (rest ++ eofs), ?_, ?_⟩
          · simp only [ends, Writer.endRecords, last, if_true, List.append_assoc,
              kept.appStatus_eq stillRunning]
            rfl
          · intro record member
            rcases List.mem_append.mp member with early | late
            · exact noEnd record early
            · rw [(restType record late).1]
              exact stream.type_ne_endRequest
        · intro running record member
          have notLast : session.request.nWriters ≠ 1 := fun last => running (ended.mpr last)
          have nothing : ends = [] := by simp [ends, Writer.endRecords, notLast]
          rw [nothing, List.append_nil] at member
          rcases List.mem_append.mp member with early | late
          · exact noEnd record early
          · rw [(restType record late).1]
            exact stream.type_ne_endRequest
      · exact sends.requestId_eq
      · exact sends.sound
      · have counts := kept.nWriters_eq
        have nWriters := sends.nWriters_eq
        have notClosed := isOpen.not_fclosed
        have fclosed := closed.fclosed
        simp only [Session.afterCall, nWriters, counts]
        cases stream
        · simp [fclosed, notClosed]
        · simp [fclosed, notClosed]
      · intro _
        exact sends.appStatus_eq.trans (kept.appStatus_eq stillRunning)

/-- Closing a stream that may be closed already. -/
theorem Kept.closes (kept : Kept requestId fits session records) (stream : OutputStream) :
    ∃ after sent later, (session.writers stream).fclose session.request = some (0, after, sent) ∧
      after.Closed ∧
      Kept requestId fits (session.afterCall stream [] (0, after, sent)) (records ++ later) ∧
      session.Advances (session.afterCall stream [] (0, after, sent)) later := by
  cases kept.streams stream with
  | isOpen isOpen typeEq => exact kept.fclose isOpen typeEq
  | closed closed =>
      refine ⟨_, _, [], closed.fclose session.request, closed, ?_, .of_sends (.refl kept.sound)⟩
      rw [List.append_nil]
      exact kept.silent closed closed (Or.inr rfl)

/-- Every call returns and is told by the records it adds. -/
theorem Kept.step (kept : Kept requestId fits session records) (call : OutputCall) :
    ∃ after more, outputStep session call = some after ∧
      Kept requestId fits after (records ++ more) ∧ session.Advances after more := by
  have idFits : session.request.requestId < 65536 := by
    rw [kept.requestId_eq]
    exact fits
  cases call with
  | putChar stream c =>
      cases kept.streams stream with
      | isOpen isOpen typeEq =>
          obtain ⟨after, sent, more, putEq, emits⟩ :=
            Writer.putChar_emits isOpen kept.sound idFits c
          refine ⟨_, more, congrArg (Option.map _) putEq, kept.emits isOpen typeEq ?_ emits,
            .of_sends emits.sends⟩
          simp
      | closed closed =>
          refine ⟨_, [], congrArg (Option.map _) (closed.putChar session.request c), ?_,
            .of_sends (.refl kept.sound)⟩
          rw [List.append_nil]
          exact kept.silent closed closed (Or.inl (by decide))
  | putStr stream str =>
      cases kept.streams stream with
      | isOpen isOpen typeEq =>
          obtain ⟨after, sent, more, putEq, emits⟩ :=
            Writer.putStr_emits isOpen kept.sound idFits str
          refine ⟨_, more, congrArg (Option.map _) putEq, kept.emits isOpen typeEq ?_ emits,
            .of_sends emits.sends⟩
          simp
      | closed closed =>
          obtain ⟨result, after, putEq, stays, refused⟩ := closed.putStr session.request str
          refine ⟨_, [], congrArg (Option.map _) putEq, ?_, .of_sends (.refl kept.sound)⟩
          rw [List.append_nil]
          exact kept.silent closed stays refused
  | fflush stream =>
      cases kept.streams stream with
      | isOpen isOpen typeEq =>
          obtain ⟨after, sent, more, flushEq, emits, -⟩ :=
            Writer.fflush_emits isOpen kept.sound idFits
          refine ⟨_, more, congrArg (Option.map _) flushEq, kept.emits isOpen typeEq ?_ emits,
            .of_sends emits.sends⟩
          simp
      | closed closed =>
          refine ⟨_, [], congrArg (Option.map _) (closed.fflush session.request), ?_,
            .of_sends (.refl kept.sound)⟩
          rw [List.append_nil]
          exact kept.silent closed closed (Or.inr rfl)
  | fclose stream =>
      obtain ⟨after, sent, later, closeEq, -, keptAfter, advances⟩ := kept.closes stream
      exact ⟨_, later, congrArg (Option.map _) closeEq, keptAfter, advances⟩
  | setExitStatus status =>
      refine ⟨_, [], rfl, ?_, (List.append_nil _).symm, rfl, rfl⟩
      rw [List.append_nil]
      exact kept.setExitStatus status

end Steps

section Runs

variable {request : Request} {memory : OutputStream → List UInt8}

theorem kept_start (fits : request.requestId < 65536) (sound : request.ipc.Sound)
    (sized : ∀ stream, Writer.IsStreamMemory (memory stream)) :
    Kept request.requestId fits (Session.start request memory) [] := by
  have isOpen : ∀ stream, ((Session.start request memory).writers stream).Open :=
    fun stream => Writer.newWriter_open (sized stream) stream.type
  have notEnded : ¬ (Session.start request memory).Ended := fun ended =>
    absurd (ended .out) (by simp [Session.start, newWriter])
  constructor
  · constructor
    · simp
    · intro stream
      apply StreamLog.isOpen (isOpen stream) rfl
      · simp [ofType]
      · simp [ofType, Session.start]
      · rfl
    · exact fun ended => absurd ended notEnded
    · simp
  · rfl
  · exact sound
  · rfl
  · exact fun _ => rfl

end Runs

end NginxFastcgi.Fcgi
