import NginxFastcgi.Fcgi.InputCalls
import NginxFastcgi.Fcgi.OutputStreams
import NginxFastcgi.Fcgi.StreamRecords
import NginxFastcgi.Foundation.Shuffle

/-!
# Serving a request

An application reads its input and writes its outputs in any order, on one
connection.  The input brings what the connection carries, as without any
output, and the connection takes the records of the outputs and the answers of
the library, none of them cut by another.
-/

namespace NginxFastcgi.Fcgi

open Foundation
open Foundation.Framing

/-- An accepted request with its streams. -/
structure RequestService where
  input : Reader
  session : Session

inductive ServiceCall
  | input (call : InputCall)
  | output (call : OutputCall)
  deriving DecidableEq

/-- A call, with the bytes that were read if it reads. -/
def serviceStep : RequestService → ServiceCall → Option (List (List UInt8) × RequestService)
  | service, .input call =>
      (inputStep Reader.fillBuffProc call service.input service.session.request).map
        fun (bytes, input, request) =>
          ([bytes], ⟨input, { service.session with request := request }⟩)
  | service, .output call =>
      (outputStep service.session call).map fun session => ([], { service with session := session })

/-- The calls one after the other. -/
def serviceRun : List ServiceCall → RequestService → Option (List (List UInt8) × RequestService)
  | [], service => some ([], service)
  | call :: calls, service => do
      let (bytes, service) ← serviceStep service call
      let (later, service) ← serviceRun calls service
      some (bytes ++ later, service)

/-- The calls that read. -/
def inputCalls : List ServiceCall → List InputCall
  | [] => []
  | .input call :: calls => call :: inputCalls calls
  | .output _ :: calls => inputCalls calls

/-- The library answered with these records. -/
structure Request.Answers (before after : Request) (records : List Record) : Prop where
  written : after.ipc.written = before.ipc.written ++ wire records
  sound : after.ipc.Sound
  frame : after = { before with ipc := after.ipc }

/-- The request as the output leaves it for the input. -/
structure Request.InputFrame (before after : Request) : Prop where
  reads : after.ipc.reads = before.ipc.reads
  sound : after.ipc.Sound
  requestId_eq : after.requestId = before.requestId
  isBegun_eq : after.isBeginProcessed = before.isBeginProcessed

namespace Reader

/-- The stream brings `data` from here on and the library answers with
`replies`, or the stream is over. -/
inductive Streaming (type : UInt8) (ending : Ending) :
    List Record → List UInt8 → Reader → Request → Prop
  | isOpen {replies : List Record} {data : List UInt8} {reader : Reader} {request : Request} :
      InStream ⟨type, request, replies, ending⟩ data reader request →
      readsError request.ipc.reads ≠ 0 → request.isBeginProcessed = true →
      Streaming type ending replies data reader request
  | isOver {reader : Reader} {request : Request} :
      reader.isClosed = true → Streaming type ending [] [] reader request

section Streaming

variable {plan : StreamPlan} {type : UInt8} {ending : Ending} {replies : List Record}
  {data : List UInt8} {reader : Reader} {request now : Request}

/-- The stream as it goes on from here. -/
theorem InStream.rebase (inStream : InStream plan data reader request)
    (frame : request.InputFrame now) :
    ∃ sent left, request.ipc.written = plan.request.ipc.written ++ wire sent ∧
      plan.replies = sent ++ left ∧
      InStream ⟨plan.type, now, left, plan.ending⟩ data reader now := by
  have steady := inStream.steady
  obtain ⟨carried, carriedEq, contentEq, ⟨sent, writtenEq, repliesEq⟩, endingEq⟩ :=
    inStream.carried
  refine ⟨sent, carried.replies, writtenEq, repliesEq.symm, inStream.usable,
    ⟨steady.filling, steady.unbounded, steady.no_error, steady.type_eq, rfl, frame.sound, rfl⟩,
    inStream.skip_window, carried, ?_, contentEq, ⟨[], (List.append_nil _).symm, rfl⟩, endingEq⟩
  have upcomingEq : reader.upcoming now = reader.upcoming request := by
    rw [upcoming, frame.reads]
    rfl
  have channelEq : StreamPlan.channel ⟨plan.type, now, carried.replies, plan.ending⟩ =
      plan.channel := by
    simp only [StreamPlan.channel, frame.requestId_eq, frame.isBegun_eq]
    rw [steady.request_eq]
  rw [upcomingEq, channelEq]
  exact carriedEq

/-- Output does not disturb the input. -/
theorem Streaming.output (streaming : Streaming type ending replies data reader request)
    (frame : request.InputFrame now) : Streaming type ending replies data reader now := by
  cases streaming with
  | isOpen inStream errorNe isBegun =>
      obtain ⟨sent, left, writtenEq, rfl, rebased⟩ := inStream.rebase frame
      have nothing : sent = [] := by
        have noBytes : wire sent = wire [] := List.append_cancel_left
          (writtenEq.symm.trans (List.append_nil _).symm)
        exact wire_injective noBytes
      rw [nothing]
      refine .isOpen rebased ?_ ?_
      · rw [frame.reads]
        exact errorNe
      · rw [frame.isBegun_eq]
        exact isBegun
  | isOver closed => exact .isOver closed

/-- A call takes its piece, and the library answers meanwhile. -/
theorem Streaming.inputStep (streaming : Streaming type ending replies data reader request)
    (sound : request.ipc.Sound) (call : InputCall) :
    ∃ after sent answered left,
      Fcgi.inputStep fillBuffProc call reader request = some (piece call data, after, sent) ∧
      replies = answered ++ left ∧ request.Answers sent answered ∧
      Streaming type ending left (data.drop (piece call data).length) after sent ∧
      after.isClosed = (reader.isClosed || reachesEOF call data) := by
  cases streaming with
  | isOver closed =>
      refine ⟨reader, request, [], [], ?_, rfl, ⟨(List.append_nil _).symm, sound, rfl⟩, ?_, ?_⟩
      · rw [inputStep_of_closed fillBuffProc request closed, piece_nil]
      · rw [List.drop_nil]
        exact .isOver closed
      · rw [closed, Bool.true_or]
  | isOpen inStream errorNe isBegun =>
      have errorHere : StreamPlan.error ⟨type, request, replies, ending⟩ ≠ 0 := errorNe
      obtain ⟨after, sent, stepEq, serves, closedEq⟩ :=
        (inStream_supplies errorHere isBegun).inputStep (Or.inl inStream) call
      rcases serves with held | ⟨empty, isOver, closed⟩
      · have sentEq : sent = { request with ipc := sent.ipc } := held.steady.request_eq
        have errorEq : readsError sent.ipc.reads = readsError request.ipc.reads :=
          held.steady.error_eq
        obtain ⟨answered, left, writtenEq, repliesEq, rebased⟩ :=
          held.rebase ⟨rfl, held.steady.sound, rfl, rfl⟩
        refine ⟨after, sent, answered, left, stepEq, repliesEq,
          ⟨writtenEq, held.steady.sound, sentEq⟩, .isOpen rebased ?_ ?_, closedEq⟩
        · rw [errorEq]
          exact errorNe
        · rw [sentEq]
          exact isBegun
      · have notBegun := inStream.not_begun isBegun
        refine ⟨after, sent, replies, [], stepEq, (List.append_nil _).symm,
          ⟨isOver.written, isOver.sound, ?_⟩, ?_, closedEq⟩
        · have kept := kept_of_endsWith isOver.ends notBegun
          have sentEq := kept.request_eq
          rw [kept.requestId_eq isBegun] at sentEq
          exact sentEq
        · rw [empty]
          exact .isOver closed

theorem Streaming.nil_of_closed (streaming : Streaming type ending replies data reader request)
    (closed : reader.isClosed = true) : replies = [] := by
  cases streaming with
  | isOpen inStream _ _ =>
      have isOpen := inStream.steady.filling.not_closed
      rw [closed] at isOpen
      contradiction
  | isOver _ => rfl

end Streaming

end Reader

/-- The answers leave the outputs alone. -/
theorem Kept.answers {requestId : Nat} {fits : requestId < 65536} {session : Session}
    {records answered : List Record} (kept : Kept requestId fits session records) {sent : Request}
    (answers : session.request.Answers sent answered) :
    Kept requestId fits { session with request := sent } records := by
  have frame := answers.frame
  constructor
  · constructor
    · exact kept.own
    · exact kept.streams
    · exact kept.ended
    · exact kept.running
  · rw [frame]
    exact kept.requestId_eq
  · exact answers.sound
  · rw [frame]
    exact kept.nWriters_eq
  · intro running
    rw [frame]
    exact kept.appStatus_eq running

/-- A request in service: `records` were sent by the outputs, the library has
`replies` yet to answer, and the input brings `data`. -/
structure InService (requestId : Nat) (fits : requestId < 65536) (ending : Ending)
    (service : RequestService) (records replies : List Record) (data : List UInt8) : Prop where
  kept : Kept requestId fits service.session records
  streaming : Reader.Streaming fcgiStdin ending replies data service.input service.session.request

/-- What the connection takes while the service goes on. -/
structure ServiceSends (before after : RequestService) (more answered : List Record) : Prop where
  written : ∃ all, Shuffle more answered all ∧
    after.session.request.ipc.written = before.session.request.ipc.written ++ wire all
  keepConnection_eq :
    after.session.request.keepConnection = before.session.request.keepConnection

theorem ServiceSends.trans {before middle after : RequestService}
    {more answered moreLater answeredLater : List Record}
    (first : ServiceSends before middle more answered)
    (second : ServiceSends middle after moreLater answeredLater) :
    ServiceSends before after (more ++ moreLater) (answered ++ answeredLater) := by
  obtain ⟨all, shuffle, writtenEq⟩ := first.written
  obtain ⟨later, shuffleLater, laterEq⟩ := second.written
  refine ⟨⟨all ++ later, shuffle.append shuffleLater, ?_⟩,
    second.keepConnection_eq.trans first.keepConnection_eq⟩
  rw [laterEq, writtenEq, wire_append, List.append_assoc]

section Service

variable {requestId : Nat} {fits : requestId < 65536} {ending : Ending}
  {service : RequestService} {records replies : List Record} {data : List UInt8}

theorem InService.input (inService : InService requestId fits ending service records replies data)
    (call : InputCall) :
    ∃ after answered left, serviceStep service (.input call) = some ([piece call data], after) ∧
      replies = answered ++ left ∧ ServiceSends service after [] answered ∧
      InService requestId fits ending after records left
        (data.drop (piece call data).length) ∧
      after.input.isClosed = (service.input.isClosed || reachesEOF call data) := by
  obtain ⟨input, sent, answered, left, stepEq, repliesEq, answers, streaming, closedEq⟩ :=
    inService.streaming.inputStep inService.kept.sound call
  refine ⟨⟨input, { service.session with request := sent }⟩, answered, left, ?_, repliesEq,
    ⟨⟨answered, .of_right answered, answers.written⟩, ?_⟩,
    ⟨inService.kept.answers answers, streaming⟩, closedEq⟩
  · rw [serviceStep, stepEq]
    rfl
  · rw [answers.frame]

theorem InService.output (inService : InService requestId fits ending service records replies data)
    (call : OutputCall) :
    ∃ after more, serviceStep service (.output call) = some ([], after) ∧
      ServiceSends service after more [] ∧
      InService requestId fits ending after (records ++ more) replies data ∧
      after.input = service.input := by
  obtain ⟨session, more, stepEq, kept, advances⟩ := inService.kept.step call
  have frame : service.session.request.InputFrame session.request := by
    refine ⟨advances.reads, kept.sound, ?_, ?_⟩
    · rw [advances.frame]
    · rw [advances.frame]
  refine ⟨{ service with session := session }, more, ?_,
    ⟨⟨more, .of_left more, advances.written⟩, ?_⟩,
    ⟨kept, inService.streaming.output frame⟩, rfl⟩
  · rw [serviceStep, stepEq]
    rfl
  · rw [advances.frame]

/-- All calls in a row. -/
theorem InService.run (inService : InService requestId fits ending service records replies data)
    (calls : List ServiceCall) :
    ∃ after more answered left,
      serviceRun calls service = some (pieces (inputCalls calls) data, after) ∧
      replies = answered ++ left ∧ ServiceSends service after more answered ∧
      InService requestId fits ending after (records ++ more) left
        (restAfter (inputCalls calls) data) ∧
      after.input.isClosed =
        (service.input.isClosed || runReachesEOF (inputCalls calls) data) := by
  induction calls generalizing service records replies data with
  | nil =>
      refine ⟨service, [], [], replies, rfl, rfl, ⟨⟨[], .nil, (List.append_nil _).symm⟩, rfl⟩, ?_,
        (Bool.or_false _).symm⟩
      rw [List.append_nil]
      exact inService
  | cons call calls inductionHypothesis =>
      cases call with
      | input call =>
          obtain ⟨middle, answered, left, stepEq, rfl, sends, inMiddle, closedMiddle⟩ :=
            inService.input call
          obtain ⟨after, more, answeredLater, leftLater, runEq, rfl, sendsLater, inAfter,
            closedEq⟩ := inductionHypothesis inMiddle
          refine ⟨after, more, answered ++ answeredLater, leftLater, ?_,
            (List.append_assoc _ _ _).symm, sends.trans sendsLater, inAfter, ?_⟩
          · rw [serviceRun]
            simp only [stepEq, runEq, Option.bind_eq_bind, Option.bind_some]
            rfl
          · rw [closedEq, closedMiddle, inputCalls, runReachesEOF, Bool.or_assoc]
      | output call =>
          obtain ⟨middle, more, stepEq, sends, inMiddle, sameInput⟩ := inService.output call
          obtain ⟨after, moreLater, answered, left, runEq, repliesEq, sendsLater, inAfter,
            closedEq⟩ := inductionHypothesis inMiddle
          refine ⟨after, more ++ moreLater, answered, left, ?_, repliesEq,
            sends.trans sendsLater, ?_, ?_⟩
          · rw [serviceRun]
            simp only [stepEq, runEq, Option.bind_eq_bind, Option.bind_some]
            rfl
          · rw [← List.append_assoc]
            exact inAfter
          · rw [closedEq, sameInput]
            rfl

/-- Once the end of the input was seen, all answers are out. -/
theorem InService.complete
    (inService : InService requestId fits ending service records replies data)
    (closed : service.input.isClosed = true) : replies = [] :=
  inService.streaming.nil_of_closed closed

end Service

end NginxFastcgi.Fcgi
