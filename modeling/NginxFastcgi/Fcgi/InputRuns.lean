import NginxFastcgi.Fcgi.StreamRecords

/-!
# Runs over an input stream

What an application can rely on, whatever calls it makes, and where a web
server has to be careful.
-/

namespace NginxFastcgi.Fcgi

open Foundation

/-- `FCGX_StartFilterData`, with `FCGX_CALL_SEQ_ERROR` where it is not allowed. -/
def Reader.startFilterData (reader : Reader) (request : Request) : Int × Reader :=
  if request.role ≠ fcgiFilter ∨ reader.isClosed = false ∨ reader.type ≠ fcgiStdin then
    (-1, reader.setError fcgxCallSeqError)
  else
    (0, reader.setReaderType fcgiData)

namespace Reader

section Runs

variable {reader : Reader} {request : Request} {type : UInt8} {records replies : List Record}
  {content more : List UInt8} {last : Record}

/-- An empty record of another request swallows the content of the next record:
the client reads on behind it as if it had not been sent. -/
theorem lost_behind_empty {before behind beforeReplies behindReplies : List Record}
    {first second : List UInt8} {other lost : Record} (ready : Ready reader request)
    (isBegun : request.isBeginProcessed = true)
    (beforeStream : Interleaved ⟨request.requestId, type, true⟩ before first beforeReplies)
    (foreign : Foreign ⟨request.requestId, type, true⟩ other) (nothing : other.content = [])
    (ownLost : Own ⟨request.requestId, type, true⟩ lost) (nonempty : lost.content ≠ [])
    (behindStream : Interleaved ⟨request.requestId, type, true⟩ behind second behindReplies)
    (own : Own ⟨request.requestId, type, true⟩ last) (empty : last.content = [])
    (upcomingEq : reader.upcoming request =
      wire (before ++ other :: lost :: behind) ++ (last.bytes ++ more))
    (calls : List InputCall) :
    ∃ after sent, inputRun fillBuffProc calls (reader.setReaderType type) request =
        some (pieces calls (first ++ second), after, sent) := by
  have behindEq := behindStream.demultiplex_eof own empty more
  have restNe := bytes_append_ne_nil other (lost.bytes ++ (wire behind ++ (last.bytes ++ more)))
  have noContent : (other.content.length == 0) = true := by
    rw [nothing]
    rfl
  have carriedEq : demultiplex ⟨request.requestId, type, true⟩ false (reader.upcoming request) =
      some ⟨first ++ second, beforeReplies ++ behindReplies, .eof (last.padding ++ more)⟩ := by
    have bytesEq : wire (before ++ other :: lost :: behind) ++ (last.bytes ++ more) =
        wire before ++ (other.bytes ++ (lost.bytes ++ (wire behind ++ (last.bytes ++ more)))) := by
      simp only [wire_append, wire_cons, List.append_assoc]
    rw [upcomingEq, bytesEq, beforeStream.demultiplex_append fun _ => restNe,
      demultiplex_foreign foreign,
      noContent, demultiplex_own ownLost nonempty, if_pos rfl, behindEq]
    rfl
  obtain ⟨after, sent, runEq, -⟩ := input_of_carried ready isBegun type carriedEq calls
  exact ⟨after, sent, runEq⟩

/-- An empty record of request 2. -/
def emptyElsewhere : Record :=
  plainRecord fcgiStdin 2 [] (by decide) Record.empty_le

/-- The bytes of a request behind an empty record of another one are lost. -/
theorem lost_behind_elsewhere :
    ∃ after sent,
      inputRun fillBuffProc [.getStr 8] ((newReader 32 0).setReaderType fcgiStdin)
        (.begun fcgiResponder (.bringing (wire [emptyElsewhere, twoBytes fcgiStdin] ++
          ((noBytes fcgiStdin).bytes ++ [])))) = some ([[]], after, sent) :=
  lost_behind_empty (ready_begun fcgiResponder _) rfl .nil ⟨by decide, by decide, by decide⟩ rfl
    (own_plainRecord Nat.one_ne_zero (by decide)) (List.cons_ne_nil _ _) .nil
    (own_noBytes (by decide)) rfl (upcoming_begun fcgiResponder _) [.getStr 8]

/-- A query among the records of a stream, which asks for no variable twice, is
answered by one record.  It says about each known name what the library has to
say, in the order of the query. -/
theorem answer_of_query {before behind beforeReplies behindReplies : List Record}
    {first second : List UInt8} {asked : Record} {pairs : List NameValue}
    (ready : Ready reader request) (isBegun : request.isBeginProcessed = true)
    (beforeStream : Interleaved ⟨request.requestId, type, true⟩ before first beforeReplies)
    (query : Query asked pairs) (plain : ∀ pair ∈ pairs, pair.Plain)
    (once : (pairs.map NameValue.name).Nodup)
    (behindStream : Interleaved ⟨request.requestId, type, true⟩ behind second behindReplies)
    (own : Own ⟨request.requestId, type, true⟩ last) (empty : last.content = [])
    (upcomingEq : reader.upcoming request =
      wire (before ++ asked :: behind) ++ (last.bytes ++ more))
    (calls : List InputCall) (toTheEnd : runReachesEOF calls (first ++ second) = true) :
    ∃ response after sent, inputRun fillBuffProc calls (reader.setReaderType type) request =
        some (pieces calls (first ++ second), after, sent) ∧
      sent.ipc.written = request.ipc.written ++
        wire (beforeReplies ++ response :: behindReplies) ∧
      response.type = fcgiGetValuesResult ∧ response.requestId = fcgiNullRequestId ∧
      8 ∣ response.bytes.length ∧
      pairFormat.Parses response.content (answers pairs) [] := by
  obtain ⟨response, answered, isResult, noId, aligned, parses⟩ := valuesResponse_of_query plain once
  have interleaved := beforeStream.append (.query query answered behindStream)
  have carriedEq := interleaved.demultiplex_eof own empty more
  rw [← upcomingEq] at carriedEq
  obtain ⟨after, sent, runEq, closedEq, ended⟩ :=
    input_of_carried ready isBegun type carriedEq calls
  have written := (ended (closedEq.trans toTheEnd)).written
  exact ⟨response, after, sent, runEq, written, isResult, noId, aligned, parses⟩

/-- A query for how many connections there may be, and for an unknown name. -/
def askedPairs : List NameValue :=
  [⟨maxConnsName, []⟩, ⟨[88], []⟩]

theorem askedPairs_le : (askedPairs.flatMap NameValue.bytes).length ≤ fcgiMaxLength := by
  decide

def askedRecord : Record :=
  plainRecord fcgiGetValues 0 (askedPairs.flatMap NameValue.bytes) (by decide) askedPairs_le

/-- The query in front of a standard input. -/
theorem answer_of_two_names :
    ∃ response after sent,
      inputRun fillBuffProc [.getStr 8] ((newReader 32 0).setReaderType fcgiStdin)
        (.begun fcgiResponder (.bringing (wire [askedRecord, twoBytes fcgiStdin] ++
          ((noBytes fcgiStdin).bytes ++ [])))) = some ([[97, 98]], after, sent) ∧
      sent.ipc.written = wire [response] ∧
      pairFormat.Parses response.content [⟨maxConnsName, [49]⟩] [] := by
  have fits : ∀ pair ∈ askedPairs, pair.Fits := by
    simp only [askedPairs, List.mem_cons, List.not_mem_nil, or_false, forall_eq_or_imp, forall_eq]
    exact ⟨by unfold NameValue.Fits; decide, by unfold NameValue.Fits; decide⟩
  have query : Query askedRecord askedPairs := ⟨rfl, rfl, rfl, fits⟩
  have plain : ∀ pair ∈ askedPairs, pair.Plain := by
    simp only [askedPairs, List.mem_cons, List.not_mem_nil, or_false, forall_eq_or_imp, forall_eq]
    exact ⟨⟨by decide, by decide⟩, ⟨by decide, by decide⟩⟩
  have notBegin : fcgiStdin ≠ fcgiBeginRequest := by
    decide
  obtain ⟨response, after, sent, runEq, written, -, -, -, parses⟩ :=
    answer_of_query (ready_begun fcgiResponder _) rfl .nil query plain (by decide)
      (interleaved_twoBytes notBegin) (own_noBytes notBegin) rfl
      (upcoming_begun fcgiResponder _) [.getStr 8] (by decide)
  exact ⟨response, after, sent, runEq, written, parses⟩

/-- A filter reads its standard input to the end, starts on the data and reads
that, with one buffer for both. -/
theorem filter_of_records {data dataReplies : List Record} {dataContent : List UInt8}
    {lastData : Record} (ready : Ready reader request) (isBegun : request.isBeginProcessed = true)
    (isFilter : request.role = fcgiFilter)
    (interleaved : Interleaved ⟨request.requestId, fcgiStdin, true⟩ records content replies)
    (own : Own ⟨request.requestId, fcgiStdin, true⟩ last) (empty : last.content = [])
    (unpadded : last.padding = [])
    (dataStream : Interleaved ⟨request.requestId, fcgiData, true⟩ data dataContent dataReplies)
    (ownData : Own ⟨request.requestId, fcgiData, true⟩ lastData)
    (emptyData : lastData.content = [])
    (upcomingEq : reader.upcoming request =
      wire records ++ (last.bytes ++ (wire data ++ (lastData.bytes ++ more))))
    (calls dataCalls : List InputCall) (toTheEnd : runReachesEOF calls content = true) :
    ∃ middle now next after sent,
      inputRun fillBuffProc calls (reader.setReaderType fcgiStdin) request =
        some (pieces calls content, middle, now) ∧
      middle.startFilterData now = (0, next) ∧
      inputRun fillBuffProc dataCalls next now = some (pieces dataCalls dataContent, after, sent) ∧
      (runReachesEOF dataCalls dataContent = true →
        sent.ipc.written = request.ipc.written ++ wire (replies ++ dataReplies)) := by
  have carriedEq := interleaved.demultiplex_eof own empty
    (wire data ++ (lastData.bytes ++ more))
  rw [← upcomingEq, unpadded, List.nil_append] at carriedEq
  obtain ⟨middle, now, runEq, closedEq, ended⟩ :=
    input_of_carried ready isBegun fcgiStdin carriedEq calls
  have isOver := ended (closedEq.trans toTheEnd)
  obtain ⟨closed, noError, usable, leftEq, typeEq, errorEq, requestEq⟩ := isOver.ends
  have sameId : now.requestId = request.requestId := by
    rw [requestEq]
    rfl
  have begunNow : now.isBeginProcessed = true := by
    rw [requestEq]
    exact isBegun
  have stillFilter : now.role = fcgiFilter := by
    rw [requestEq]
    exact isFilter
  have errorNow : readsError now.ipc.reads = readsError request.ipc.reads := errorEq
  have readyNow : Ready middle now :=
    ⟨usable.room, usable.buff_le, usable.rdNext_le, noError, isOver.sound,
      errorNow ▸ ready.error_ne⟩
  have dataEq := dataStream.demultiplex_eof ownData emptyData more
  rw [← sameId, ← leftEq] at dataEq
  have startEq : middle.startFilterData now = (0, middle.setReaderType fcgiData) := by
    have allowed : ¬ (now.role ≠ fcgiFilter ∨ middle.isClosed = false ∨
        middle.type ≠ fcgiStdin) := by
      have isStdin : middle.type = fcgiStdin := typeEq
      simp [stillFilter, closed, isStdin]
    rw [startFilterData, if_neg allowed]
  obtain ⟨after, sent, dataRunEq, dataClosedEq, dataEnded⟩ :=
    input_of_carried readyNow begunNow fcgiData dataEq dataCalls
  refine ⟨middle, now, _, after, sent, runEq, startEq, dataRunEq, fun reaches => ?_⟩
  have dataOver := dataEnded (dataClosedEq.trans reaches)
  have writtenNow : now.ipc.written = request.ipc.written ++ wire replies := isOver.written
  have writtenAfter : sent.ipc.written = now.ipc.written ++ wire dataReplies := dataOver.written
  rw [writtenAfter, writtenNow, wire_append, List.append_assoc]

/-- What a filter is sent. -/
def filterBytes : List UInt8 :=
  wire [twoBytes fcgiStdin, noBytes fcgiStdin, twoBytes fcgiData, noBytes fcgiData]

/-- A filter reads two bytes of each stream. -/
theorem filter_of_two_streams :
    ∃ middle now next after sent,
      inputRun fillBuffProc [.getStr 8] ((newReader 32 0).setReaderType fcgiStdin)
        (.begun fcgiFilter (.bringing filterBytes)) = some ([[97, 98]], middle, now) ∧
      middle.startFilterData now = (0, next) ∧
      inputRun fillBuffProc [.getStr 8] next now = some ([[97, 98]], after, sent) := by
  obtain ⟨middle, now, next, after, sent, runEq, startEq, dataEq, -⟩ :=
    filter_of_records (ready_begun fcgiFilter filterBytes) rfl rfl
      (interleaved_twoBytes (by decide)) (own_noBytes (by decide)) rfl rfl
      (interleaved_twoBytes (by decide)) (own_noBytes (by decide)) rfl
      (upcoming_begun fcgiFilter filterBytes) [.getStr 8] [.getStr 8] (by decide)
  exact ⟨middle, now, next, after, sent, runEq, startEq, dataEq⟩

/-- A byte that was just read can be pushed back, as any other byte: the calls
that follow see it in front of what comes next. -/
theorem pushBack_of_records (ready : Ready reader request)
    (isBegun : request.isBeginProcessed = true)
    (interleaved : Interleaved ⟨request.requestId, type, true⟩ records content replies)
    (own : Own ⟨request.requestId, type, true⟩ last) (empty : last.content = [])
    (upcomingEq : reader.upcoming request = wire records ++ (last.bytes ++ more))
    (calls : List InputCall) {b : UInt8} {left : List UInt8}
    (leftEq : restAfter calls content = b :: left) (c : UInt8) (later : List InputCall) :
    ∃ middle now next final back after sent,
      inputRun fillBuffProc calls (reader.setReaderType type) request =
        some (pieces calls content, middle, now) ∧
      getChar fillBuffProc middle now = some (some b, next, final) ∧
      next.unGetChar c = some (some c, back) ∧
      inputRun fillBuffProc later back final = some (pieces later (c :: left), after, sent) := by
  have carriedEq := interleaved.demultiplex_eof own empty more
  rw [← upcomingEq] at carriedEq
  obtain ⟨middle, now, runEq, serves, -⟩ := serves_of_calls ready isBegun type carriedEq calls
  change Serves _ _ (restAfter calls content) middle now at serves
  rw [leftEq] at serves
  rcases serves with held | ⟨nothing, -⟩
  · have errorNe : (streamPlan type request
        ⟨content, replies, .eof (last.padding ++ more)⟩).error ≠ 0 := ready.error_ne
    obtain ⟨next, final, back, charEq, backEq, inBack⟩ :=
      held.1.pushBack held.2 errorNe isBegun c
    obtain ⟨after, sent, laterEq, -⟩ :=
      (inStream_supplies errorNe isBegun).inputRun (Or.inl inBack) later
    exact ⟨middle, now, next, final, back, after, sent, runEq, charEq, backEq, laterEq⟩
  · contradiction

/-- The first byte is replaced by another one. -/
theorem pushBack_of_first_byte :
    ∃ middle now next final back after sent,
      inputRun fillBuffProc [] ((newReader 32 0).setReaderType fcgiStdin)
        (.begun fcgiResponder (.bringing (wire [twoBytes fcgiStdin, noBytes fcgiStdin]))) =
          some ([], middle, now) ∧
      getChar fillBuffProc middle now = some (some 97, next, final) ∧
      next.unGetChar 99 = some (some 99, back) ∧
      inputRun fillBuffProc [.getStr 2] back final = some ([[99, 98]], after, sent) :=
  pushBack_of_records (ready_begun fcgiResponder _) rfl (interleaved_twoBytes (by decide))
    (own_noBytes (by decide)) rfl (upcoming_begun fcgiResponder _) [] rfl 99 [.getStr 2]

end Runs

/-! ## Positions -/

section Positions

variable {fill : FillProc} {reader after : Reader} {request sent : Request} {bound : Nat}

end Positions

end Reader

end NginxFastcgi.Fcgi
