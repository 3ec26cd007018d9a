import NginxFastcgi.Fcgi.RecordContent
import NginxFastcgi.Fcgi.Values

/-!
# What a fill makes of a header

`ProcessHeader` with the switch behind it does what `verdict` says: the stream
ends, or the loop goes on behind the header with the reply written.
-/

namespace NginxFastcgi.Fcgi

open Foundation
open Foundation.Loop

/-- What is fixed while a stream is read. -/
structure StreamPlan where
  type : UInt8
  request : Request
  /-- What the library will have answered when the stream is over. -/
  replies : List Record
  ending : Ending

def StreamPlan.channel (plan : StreamPlan) : Channel where
  requestId := plan.request.requestId
  type := plan.type
  isBegun := plan.request.isBeginProcessed

def StreamPlan.error (plan : StreamPlan) : Int :=
  readsError plan.request.ipc.reads

namespace Reader

/-- The parts of the state that stay the same inside a stream. -/
structure Steady (plan : StreamPlan) (reader : Reader) (request : Request) : Prop where
  filling : reader.Filling
  unbounded : reader.eorStop = false
  no_error : reader.fcgiErrno = 0
  type_eq : reader.type = plan.type
  request_eq : request = { plan.request with ipc := request.ipc }
  sound : request.ipc.Sound
  error_eq : readsError request.ipc.reads = plan.error

/-- The request is the same, up to the id of one that was not begun. -/
structure Kept (plan : StreamPlan) (request : Request) : Prop where
  request_eq : request =
    { plan.request with ipc := request.ipc, requestId := request.requestId }
  requestId_eq : plan.request.isBeginProcessed = true →
    request.requestId = plan.request.requestId

/-- The state in which each ending leaves the stream. -/
def EndsWith (plan : StreamPlan) (reader : Reader) (request : Request) : Ending → Prop
  | .eof left => reader.isClosed = true ∧ reader.fcgiErrno = 0 ∧ reader.Usable ∧
      reader.upcoming request = left ∧ reader.type = plan.type ∧
      readsError request.ipc.reads = plan.error ∧
      request = { plan.request with ipc := request.ipc }
  | .begun requestId body left => reader.isClosed = false ∧ reader.fcgiErrno = 0 ∧
      reader.Usable ∧ reader.upcoming request = left ∧ readsError request.ipc.reads = plan.error ∧
      request = { plan.request with
        ipc := request.ipc
        requestId := requestId
        keepConnection := body.flags &&& fcgiKeepConn ≠ 0
        role := joinBytes body.roleB1 body.roleB0
        isBeginProcessed := true }
  | .failed errno => reader.isClosed = true ∧ reader.fcgiErrno = errno ∧ Kept plan request
  | .starved => reader.isClosed = true ∧ reader.fcgiErrno = plan.error ∧ Kept plan request

theorem appStatus_of_endsWith {plan : StreamPlan} {reader : Reader} {request : Request}
    {ending : Ending} (ends : EndsWith plan reader request ending) :
    request.appStatus = plan.request.appStatus := by
  cases ending with
  | eof left => rw [ends.2.2.2.2.2.2]
  | begun requestId body left => rw [ends.2.2.2.2.2]
  | failed errno => rw [ends.2.2.request_eq]
  | starved => rw [ends.2.2.request_eq]

theorem kept_of_endsWith {plan : StreamPlan} {reader : Reader} {request : Request}
    {ending : Ending} (ends : EndsWith plan reader request ending)
    (notBegun : ∀ requestId begun left, ending ≠ .begun requestId begun left) :
    Kept plan request := by
  cases ending with
  | eof left =>
      have requestEq := ends.2.2.2.2.2.2
      constructor
      · rw [requestEq]
      · intro _
        rw [requestEq]
  | begun requestId body left => exact absurd rfl (notBegun requestId body left)
  | failed errno => exact ends.2.2
  | starved => exact ends.2.2

/-- The turn behind a header. -/
def headerTurn (header : FCGIHeader) (reader : Reader) (request : Request) : Option FillTurn :=
  (processHeader header reader.atRecord request).map afterHeader

/-- The stream is over behind a header. -/
def StopsWith (plan : StreamPlan) (header : FCGIHeader) (reader : Reader) (request : Request)
    (ending : Ending) : Prop :=
  ∃ last final, headerTurn header reader request = some (.done (last, final)) ∧
    EndsWith plan last final ending ∧ final.ipc.written = request.ipc.written ∧ final.ipc.Sound

/-- The stream goes on behind a header. -/
def GoesOn (plan : StreamPlan) (header : FCGIHeader) (reader : Reader) (request : Request)
    (skip : Bool) (content : List UInt8) (reply : List Record) : Prop :=
  ∃ next now, headerTurn header reader request = some (.again ([], next, now)) ∧
    Steady plan next now ∧ now.ipc.written = request.ipc.written ++ wire reply ∧
    (next.upcoming now).length ≤ (reader.upcoming request).length ∧
    ∀ later, demultiplex plan.channel skip ((reader.upcoming request).drop
        (header.contentLength + header.paddingLength.toNat)) = some later →
      demultiplexFrom plan.channel next.skip next.contentLen next.paddingLen
        (next.upcoming now) = some (later.behind content [])

/-- Whether the verdict is what happens. -/
def Follows (plan : StreamPlan) (header : FCGIHeader) (reader : Reader) (request : Request) :
    Verdict → Prop
  | .stop ending => StopsWith plan header reader request ending
  | .goOn skip content reply => GoesOn plan header reader request skip content reply
  | .fault => True

variable {plan : StreamPlan} {reader : Reader} {request : Request} {header : FCGIHeader}

/-- The reader in `ProcessHeader`, with the lengths of the header. -/
def inHeader (header : FCGIHeader) (reader : Reader) : Reader :=
  reader.atRecord.counting header.contentLength header.paddingLength.toNat

/-- The reader behind a header whose record is passed over or handed out. -/
def behindHeader (header : FCGIHeader) (skip : Bool) (reader : Reader) : Reader :=
  { reader with
    eorStop := false
    isClosed := false
    stop := reader.rdNext
    contentLen := header.contentLength
    paddingLen := header.paddingLength.toNat
    skip := skip }

/-! ## The switch -/

theorem afterHeader_failed (status : Int) (negative : status < 0) (reader : Reader)
    (request : Request) :
    afterHeader (status, reader, request) =
      .done (reader.pastHeader.setError status, request) := by
  have unlike : ∀ other : Int, 0 ≤ other → status ≠ other := by
    omega
  unfold afterHeader
  dsimp only
  rw [if_neg (unlike streamRecord (by decide)), if_neg (unlike skipRecord (by decide)),
    if_neg (unlike beginRecord (by decide)), if_neg (unlike mgmtRecord (by decide))]

theorem afterHeader_begin (reader : Reader) (request : Request) :
    afterHeader (beginRecord, reader, request) =
      .done (reader.pastHeader, request) :=
  rfl

theorem afterHeader_mgmt (reader : Reader) (request : Request) :
    afterHeader (mgmtRecord, reader, request) =
      .again ([], reader.pastHeader, request) :=
  rfl

theorem respond_of_sound (sound : request.ipc.Sound) (status : Int) (response : List UInt8)
    (reader : Reader) :
    ∃ now, respond status response reader request = (status, reader, now) ∧
      request.Sends now response := by
  obtain ⟨noError, sends⟩ := Request.sends_writeItAll sound response
  refine ⟨_, ?_, sends⟩
  unfold respond
  rcases wrote : request.ipc.writeItAll response with ⟨error, ipc⟩
  rw [wrote] at noError
  cases noError
  rfl

/-! ## Errors and passing over -/

/-- A header that ends the stream with an error.  An error that is set already
is kept. -/
theorem stopsWith_error (steady : Steady plan reader request) {status errno : Int}
    (negative : status < 0) {last : Reader} {final : Request}
    (processEq : processHeader header reader.atRecord request = some (status, last, final))
    (finalEq : final = { request with
      ipc := { request.ipc with reads := final.ipc.reads }, requestId := final.requestId })
    (idEq : request.isBeginProcessed = true → final.requestId = request.requestId)
    (errnoEq : (if last.fcgiErrno = 0 then status else last.fcgiErrno) = errno) {ending : Ending}
    (endingEq : ending = .failed errno ∨ ending = .starved ∧ errno = plan.error) :
    StopsWith plan header reader request ending := by
  have kept : Kept plan final := by
    constructor
    · rw [finalEq, steady.request_eq]
    · intro isBegun
      have begunHere : request.isBeginProcessed = true := by
        rw [steady.request_eq]
        exact isBegun
      rw [idEq begunHere, steady.request_eq]
  refine ⟨last.pastHeader.setError status, final, ?_, ?_, ?_, ?_⟩
  · rw [headerTurn, processEq, Option.map_some, afterHeader_failed status negative]
  · rcases endingEq with rfl | ⟨rfl, starved⟩
    · exact ⟨rfl, errnoEq, kept⟩
    · exact ⟨rfl, errnoEq.trans starved, kept⟩
  · rw [finalEq]
  · intro other
    rw [finalEq]
    exact steady.sound other

/-- A header that is refused. -/
theorem stopsWith_failed (steady : Steady plan reader request) {status : Int}
    (negative : status < 0)
    (processEq : ∃ contentLen paddingLen, processHeader header reader.atRecord request =
      some (status, reader.atRecord.counting contentLen paddingLen, request)) :
    StopsWith plan header reader request (.failed status) := by
  obtain ⟨contentLen, paddingLen, processEq⟩ := processEq
  exact stopsWith_error steady negative processEq rfl (fun _ => rfl) (if_pos steady.no_error)
    (Or.inl rfl)

theorem goesOn (steady : Steady plan reader request) {now : Request} {reply : List Record}
    (sends : request.Sends now (wire reply)) {skip : Bool}
    (turnEq : headerTurn header reader request =
      some (.again ([], reader.behindHeader header skip, now))) :
    GoesOn plan header reader request (skip && header.contentLength == 0)
      (if skip then [] else (reader.upcoming request).take header.contentLength) reply := by
  have upcomingEq : (reader.behindHeader header skip).upcoming now = reader.upcoming request := by
    rw [upcoming, sends.reads]
    rfl
  refine ⟨_, now, turnEq, ⟨⟨steady.filling.room, steady.filling.buff_le,
    steady.filling.rdNext_le, rfl⟩, rfl, steady.no_error, steady.type_eq, ?_, sends.sound, ?_⟩,
    sends.written, ?_, ?_⟩
  · rw [sends.frame, steady.request_eq]
  · rw [sends.reads, steady.error_eq]
  · rw [upcomingEq]
  · intro later laterEq
    rw [demultiplexFrom, upcomingEq]
    exact congrArg (Option.map (Carried.behind (if skip then [] else
      (reader.upcoming request).take header.contentLength) [])) laterEq

/-- A record that is passed over, after a reply. -/
theorem follows_skip (steady : Steady plan reader request) {now : Request} {reply : List Record}
    (sends : request.Sends now (wire reply))
    (processEq : processHeader header reader.atRecord request =
      some (skipRecord, reader.inHeader header, now)) :
    Follows plan header reader request
      (throughRecord true header (reader.upcoming request) reply) := by
  have turnEq : headerTurn header reader request =
      some (.again ([], reader.behindHeader header true, now)) := by
    rw [headerTurn, processEq]
    rfl
  exact goesOn steady sends turnEq

/-- A record whose content is handed out, after a reply. -/
theorem follows_mgmt (steady : Steady plan reader request) {now : Request} {reply : List Record}
    (sends : request.Sends now (wire reply))
    (processEq : processHeader header reader.atRecord request =
      some (mgmtRecord, reader.inHeader header, now)) :
    Follows plan header reader request
      (throughRecord reader.skip header (reader.upcoming request) reply) := by
  apply goesOn steady sends
  rw [headerTurn, processEq]
  rfl

theorem afterHeader_stream (some_content : reader.contentLen ≠ 0) :
    afterHeader (streamRecord, reader, request) = .again ([], reader.pastHeader, request) :=
  if_neg some_content

theorem afterHeader_eof (request : Request) (noContent : reader.contentLen = 0) :
    afterHeader (streamRecord, reader, request) =
      .done ({ reader.pastHeader with stop := reader.rdNext, isClosed := true }, request) :=
  if_pos noContent

/-- A record of the stream. -/
theorem follows_stream (steady : Steady plan reader request)
    (processEq : processHeader header reader.atRecord request =
      some (streamRecord, reader.inHeader header, request)) :
    Follows plan header reader request
      (if header.contentLength = 0 then .stop (.eof (reader.upcoming request))
        else throughRecord reader.skip header (reader.upcoming request) []) := by
  have turnEq : headerTurn header reader request =
      some (afterHeader (streamRecord, reader.inHeader header, request)) := by
    rw [headerTurn, processEq, Option.map_some]
  by_cases noContent : header.contentLength = 0
  · rw [if_pos noContent]
    have isOver := turnEq.trans (congrArg some
      (afterHeader_eof request (show (reader.inHeader header).contentLen = 0 from noContent)))
    refine ⟨_, request, isOver, ⟨rfl, steady.no_error, ⟨steady.filling.room,
      steady.filling.buff_le, steady.filling.rdNext_le, fun isOpen => ?_⟩, rfl,
      steady.type_eq, steady.error_eq, steady.request_eq⟩, rfl, steady.sound⟩
    contradiction
  · rw [if_neg noContent]
    apply goesOn steady (Request.Sends.refl steady.sound)
    exact turnEq.trans (congrArg some
      (afterHeader_stream (show (reader.inHeader header).contentLen ≠ 0 from noContent)))

/-! ## Records whose content is read -/

theorem contentLeft_inHeader (header : FCGIHeader) (reader : Reader) :
    (reader.inHeader header).contentLeft = header.contentLength := by
  change reader.rdNext - reader.rdNext + header.contentLength = _
  rw [Nat.sub_self, Nat.zero_add]

/-- The record is a bounded stream, for any request with this connection. -/
theorem inRecord_inHeader (steady : Steady plan reader request) (header : FCGIHeader)
    (other : Request) :
    InRecord (recordPlan (reader.inHeader header) other)
      (if reader.skip then [] else (reader.upcoming other).take header.contentLength)
      (reader.inHeader header) other := by
  have usable : (reader.inHeader header).Usable :=
    ⟨steady.filling.room, steady.filling.buff_le, steady.filling.rdNext_le,
      fun _ => ⟨Nat.le_refl _, steady.filling.rdNext_le⟩⟩
  have start := inRecord_start other usable steady.filling.not_closed rfl
    steady.no_error fun _ => rfl
  rwa [contentLeft_inHeader] at start

theorem seen_inHeader (header : FCGIHeader) (reader : Reader) (other : Request) :
    (recordPlan (reader.inHeader header) other).seen =
      seesEnd reader.skip header.contentLength header.paddingLength.toNat
        (reader.upcoming other).length := by
  rw [recordPlan, contentLeft_inHeader]
  rfl

theorem skip_inHeader (header : FCGIHeader) (reader : Reader) (other : Request) :
    (recordPlan (reader.inHeader header) other).skip =
      (reader.skip && header.contentLength == 0) := by
  rw [recordPlan, contentLeft_inHeader]
  rfl

theorem left_inHeader (header : FCGIHeader) (reader : Reader) (other : Request) :
    (recordPlan (reader.inHeader header) other).left =
      (reader.upcoming other).drop (header.contentLength + header.paddingLength.toNat) := by
  rw [recordPlan, contentLeft_inHeader]
  rfl

/-- A record that was read up to its end and answered. -/
theorem goesOn_answered (steady : Steady plan reader request) {last : Reader} {final : Request}
    (isOver : RecordOver (recordPlan (reader.inHeader header) request) last final)
    (seen : (recordPlan (reader.inHeader header) request).seen = true) (response : Record)
    (processEq : processHeader header reader.atRecord request =
      some (respond mgmtRecord response.bytes last final)) :
    GoesOn plan header reader request (reader.skip && header.contentLength == 0) []
      [response] := by
  obtain ⟨usable, noError, noContent, noPadding, skipEq, upcomingEq, same⟩ := isOver.ended seen
  rw [skip_inHeader] at skipEq
  rw [left_inHeader] at upcomingEq
  have finalEq : final = { request with ipc := { request.ipc with reads := final.ipc.reads } } :=
    isOver.request_eq
  have writesEq : final.ipc.writes = request.ipc.writes := by
    rw [finalEq]
  have writtenEq : final.ipc.written = request.ipc.written := by
    rw [finalEq]
  have sound : final.ipc.Sound := by
    intro errno
    rw [writesEq]
    exact steady.sound errno
  obtain ⟨now, responseEq, sends⟩ := respond_of_sound sound mgmtRecord response.bytes last
  have upcomingNow : last.pastHeader.upcoming now = (reader.upcoming request).drop
      (header.contentLength + header.paddingLength.toNat) := by
    rw [← upcomingEq, upcoming, sends.reads]
    rfl
  refine ⟨last.pastHeader, now, ?_, ⟨⟨usable.room, usable.buff_le, usable.rdNext_le, rfl⟩, rfl,
    noError, ?_, ?_, sends.sound, ?_⟩, ?_, ?_, ?_⟩
  · rw [headerTurn, processEq, responseEq, Option.map_some, afterHeader_mgmt]
  · exact same.type_eq.trans steady.type_eq
  · rw [sends.frame, finalEq, steady.request_eq]
  · rw [sends.reads, same.error_eq]
    exact steady.error_eq
  · rw [sends.written, writtenEq, wire_singleton]
  · rw [upcomingNow, List.length_drop]
    exact Nat.sub_le _ _
  · intro later laterEq
    change demultiplexFrom _ last.skip last.contentLen last.paddingLen _ = _
    rw [noContent, noPadding, demultiplexFrom_zero, upcomingNow, skipEq, laterEq,
      Carried.behind_nil]

theorem final_of_over {other final : Request} {closed : Reader}
    (otherEq : other = { request with requestId := other.requestId })
    (isOver : RecordOver (recordPlan (reader.inHeader header) other) closed final) :
    final = { request with
      ipc := { request.ipc with reads := final.ipc.reads }, requestId := final.requestId } := by
  have finalEq : final = { other with ipc := { other.ipc with reads := final.ipc.reads } } :=
    isOver.request_eq
  rw [finalEq, otherEq]

/-- A record whose content runs out with the connection. -/
theorem stopsWith_starved (steady : Steady plan reader request) (errorNe : plan.error ≠ 0)
    {other final : Request} (otherEq : other = { request with requestId := other.requestId })
    (idEq : request.isBeginProcessed = true → other.requestId = request.requestId)
    {closed last : Reader} {status : Int} (negative : status < 0)
    (isOver : RecordOver (recordPlan (reader.inHeader header) other) closed final)
    (unseen : (recordPlan (reader.inHeader header) other).seen = false)
    (errnoEq : closed.fcgiErrno ≠ 0 → last.fcgiErrno = closed.fcgiErrno)
    (processEq : processHeader header reader.atRecord request = some (status, last, final)) :
    StopsWith plan header reader request .starved := by
  have closedErrno : closed.fcgiErrno = plan.error := by
    rw [isOver.starved unseen, recordPlan, otherEq, steady.error_eq]
  have lastErrno : last.fcgiErrno = plan.error := by
    rw [errnoEq (closedErrno ▸ errorNe), closedErrno]
  have kept : (if last.fcgiErrno = 0 then status else last.fcgiErrno) = plan.error := by
    rw [lastErrno, if_neg errorNe]
  have finalId : final.requestId = other.requestId := by
    rw [isOver.request_eq]
    rfl
  exact stopsWith_error steady negative processEq (final_of_over otherEq isOver)
    (fun isBegun => finalId.trans (idEq isBegun)) kept (Or.inr ⟨rfl, rfl⟩)

/-- `FCGI_GET_VALUES`. -/
theorem follows_values (steady : Steady plan reader request) (errorNe : plan.error ≠ 0)
    (processEq : processHeader header reader.atRecord request =
      processManagementRecord fcgiGetValues (reader.inHeader header) request) :
    Follows plan header reader request
      (valuesVerdict reader.skip header (reader.upcoming request)) := by
  have held := inRecord_inHeader steady header request
  have reads := (inRecord_supplies _).readParams (Params.newParams 3 (by decide)) held
    (Foundation.Framing.Format.parses_cut _)
  unfold valuesVerdict
  generalize pairFormat.cut (if reader.skip then [] else
    (reader.upcoming request).take header.contentLength) = cut at reads
  rcases cut with ⟨pairs, left⟩
  dsimp only at reads
  rw [processManagementRecord, if_pos rfl] at processEq
  rw [← seen_inHeader]
  dsimp only
  rcases readEq : readParams fillContent (Params.newParams 3 (by decide)) (reader.inHeader header)
    request with _ | ⟨status, params, last, final⟩
  · rw [readEq] at reads
    have malformed : cutPair left = .malformed := reads
    rw [if_pos malformed]
    exact trivial
  · rw [readEq] at reads processEq
    obtain ⟨entriesEq, next⟩ := reads
    rw [Option.bind_some] at processEq
    dsimp only at processEq
    rw [Params.entries_newParams, List.nil_append] at entriesEq
    rcases next with ⟨leftNil, -, isOver⟩ | ⟨leftNe, incomplete, -, closed, isOver, lastEq⟩
    · have notMalformed : cutPair left ≠ .malformed := by
        rw [leftNil]
        exact fun same => by cases same
      rw [if_neg notMalformed]
      cases seen : (recordPlan (reader.inHeader header) request).seen with
      | false =>
          have lastNe : last.fcgiErrno ≠ 0 := by
            rw [isOver.starved seen, recordPlan, steady.error_eq]
            exact errorNe
          rw [if_pos (Or.inl lastNe)] at processEq
          rw [if_pos Bool.false_ne_true]
          exact stopsWith_starved steady errorNe rfl (fun _ => rfl) (by decide) isOver seen
            (fun _ => rfl) processEq
      | true =>
          obtain ⟨-, noError, noContent, -⟩ := isOver.ended seen
          rw [if_neg (by simp [noError, noContent])] at processEq
          rw [if_neg (not_not_intro rfl), if_neg (not_not_intro leftNil), ← entriesEq]
          cases responseEq : valuesResponse params.entries with
          | none => exact trivial
          | some response =>
              rw [responseEq, Option.map_some, ← bytes_ofFront_valuesResponse responseEq]
                at processEq
              exact goesOn_answered steady isOver seen (Record.ofFront response) processEq
    · have notMalformed : cutPair left ≠ .malformed := by
        rw [incomplete]
        exact fun same => by cases same
      rw [if_neg notMalformed]
      have lastErrno : closed.fcgiErrno ≠ 0 → last.fcgiErrno = closed.fcgiErrno := by
        intro isSet
        rw [lastEq]
        exact if_neg isSet
      have lastNe : last.fcgiErrno ≠ 0 := by
        rw [lastEq, setError]
        dsimp only
        split
        · decide
        · assumption
      rw [if_pos (Or.inl lastNe)] at processEq
      cases seen : (recordPlan (reader.inHeader header) request).seen with
      | false =>
          rw [if_pos Bool.false_ne_true]
          exact stopsWith_starved steady errorNe rfl (fun _ => rfl) (by decide) isOver seen
            lastErrno processEq
      | true =>
          obtain ⟨-, noError, -⟩ := isOver.ended seen
          rw [if_neg (not_not_intro rfl), if_pos leftNe]
          have kept : (if last.fcgiErrno = 0 then fcgxProtocolError else last.fcgiErrno) =
              fcgxParamsError := by
            rw [if_neg lastNe, lastEq]
            exact if_pos noError
          have finalId : final.requestId = request.requestId := by
            rw [isOver.request_eq]
            rfl
          exact stopsWith_error steady (by decide) processEq (final_of_over rfl isOver)
            (fun _ => finalId) kept (Or.inl rfl)

/-- The body of the record that begins a request was read. -/
theorem stopsWith_begun (steady : Steady plan reader request) (wanted : reader.skip = false)
    (eight : header.contentLength = 8) (enough : 8 ≤ (reader.upcoming request).length)
    {last : Reader} {final : Request}
    (inside : InRecord (recordPlan (reader.inHeader header)
      { request with requestId := header.requestId }) [] last final)
    (body : FCGIBeginRequestBody)
    (processEq : processHeader header reader.atRecord request =
      some (beginRecord, last, { final with
        keepConnection := body.flags &&& fcgiKeepConn ≠ 0
        role := joinBytes body.roleB1 body.roleB0
        isBeginProcessed := true })) :
    StopsWith plan header reader request
      (.begun header.requestId body ((reader.upcoming request).drop 8)) := by
  have requestEq : final = { request with
      ipc := { request.ipc with reads := final.ipc.reads }, requestId := header.requestId } :=
    inside.same.request_eq
  have upcomingEq : last.upcoming final = (reader.upcoming request).drop 8 := by
    obtain ⟨count, countEq, takenEq⟩ := inside.taken
    rw [recordPlan, contentLeft_inHeader, eight] at countEq
    have takenHere : last.upcoming final = (reader.upcoming request).drop count := takenEq
    have skipEq : last.skip = false := inside.skip_same.trans wanted
    have noneLeft := inside.data_eq
    rw [skipEq, takenHere] at noneLeft
    have lengths := congrArg List.length noneLeft
    simp only [Bool.false_eq_true, if_false, List.length_nil, List.length_take,
      List.length_drop] at lengths
    have all : count = 8 := by
      omega
    rw [takenHere, all]
  have turnEq := congrArg (Option.map afterHeader) processEq
  rw [Option.map_some, afterHeader_begin] at turnEq
  refine ⟨_, _, turnEq, ⟨rfl, inside.no_error, ⟨inside.usable.room,
    inside.usable.buff_le, inside.usable.rdNext_le, fun _ => inside.usable.window inside.is_open⟩,
    upcomingEq, ?_, ?_⟩, ?_, ?_⟩
  · exact inside.same.error_eq.trans steady.error_eq
  · rw [requestEq, steady.request_eq]
  · rw [requestEq]
  · intro errno
    rw [requestEq]
    exact steady.sound errno

/-- `FCGI_BEGIN_REQUEST`. -/
theorem follows_begin (steady : Steady plan reader request) (errorNe : plan.error ≠ 0)
    (processEq : processHeader header reader.atRecord request =
      processBeginRecord header.requestId (reader.inHeader header) request) :
    Follows plan header reader request
      (beginVerdict plan.channel reader.skip header (reader.upcoming request)) := by
  unfold beginVerdict
  unfold processBeginRecord at processEq
  by_cases wrong : header.requestId = 0 ∨ header.contentLength ≠ 8
  · have wrongHere : header.requestId = 0 ∨ (reader.inHeader header).contentLen ≠ 8 := wrong
    rw [if_pos wrong]
    rw [if_pos wrongHere] at processEq
    exact stopsWith_failed steady (by decide) ⟨_, _, processEq⟩
  · have eight : header.contentLength = 8 := Decidable.not_not.mp (not_or.mp wrong).2
    have rightHere : ¬ (header.requestId = 0 ∨ (reader.inHeader header).contentLen ≠ 8) := wrong
    have begunEq : request.isBeginProcessed = plan.channel.isBegun := by
      rw [steady.request_eq]
      rfl
    rw [if_neg wrong, ← begunEq]
    rw [if_neg rightHere] at processEq
    by_cases begun : request.isBeginProcessed = true
    · rw [if_pos begun]
      rw [if_pos begun] at processEq
      obtain ⟨now, responseEq, sends⟩ := respond_of_sound steady.sound skipRecord
        (cantMpx header.requestId (requestId_lt header)).bytes (reader.inHeader header)
      rw [← wire_singleton] at sends
      exact follows_skip steady sends (processEq.trans (congrArg some responseEq))
    · rw [if_neg begun]
      rw [if_neg begun] at processEq
      have held := inRecord_inHeader steady header { request with requestId := header.requestId }
      obtain ⟨memory, last, final, getEq, memoryEq, next⟩ := (inRecord_supplies _).getStr held 8
      rw [getEq, Option.map_some] at processEq
      dsimp only at processEq
      have seenEq := seen_inHeader header reader { request with requestId := header.requestId }
      cases skips : reader.skip with
      | true =>
          rw [skips, if_pos rfl] at memoryEq next
          rw [skips] at seenEq
          rcases next with ⟨enough, -⟩ | ⟨-, isOver⟩
          · contradiction
          · rw [memoryEq, if_pos (by decide)] at processEq
            rw [if_pos rfl]
            by_cases seen : seesEnd true header.contentLength header.paddingLength.toNat
              (reader.upcoming request).length = true
            · rw [if_pos seen]
              obtain ⟨-, noError, -⟩ := isOver.ended (seenEq.trans seen)
              exact stopsWith_error steady (by decide) processEq (final_of_over rfl isOver)
                (fun isBegun => absurd isBegun begun) (if_pos noError) (Or.inl rfl)
            · rw [if_neg seen]
              exact stopsWith_starved steady errorNe rfl (fun isBegun => absurd isBegun begun)
                (by decide) isOver (seenEq.trans (Bool.eq_false_of_not_eq_true seen)) (fun _ => rfl)
                processEq
      | false =>
          rw [skips, if_neg Bool.false_ne_true, eight] at memoryEq next
          rw [skips, eight] at seenEq
          rw [if_neg Bool.false_ne_true]
          have upcomingEq : reader.upcoming { request with requestId := header.requestId } =
              reader.upcoming request := rfl
          rw [upcomingEq] at memoryEq next
          rw [List.length_take] at next
          rcases next with ⟨enough, inside⟩ | ⟨few, isOver⟩
          · rw [if_neg (by omega)]
            have whole : memory.length = 8 := by
              rw [memoryEq, List.length_take, List.length_take]
              omega
            rw [if_neg (not_not_intro whole)] at processEq
            rw [List.drop_of_length_le (List.length_take_le _ _)] at inside
            have stops := stopsWith_begun steady skips eight (by omega) inside _ processEq
            rwa [memoryEq, List.take_take, Nat.min_self] at stops
          · rw [if_pos (by omega)]
            have short : memory.length ≠ 8 := by
              rw [memoryEq, List.length_take, List.length_take]
              omega
            rw [if_pos short] at processEq
            have unseen : seesEnd false 8 header.paddingLength.toNat
                (reader.upcoming request).length = false := by
              apply decide_eq_false
              omega
            exact stopsWith_starved steady errorNe rfl (fun isBegun => absurd isBegun begun)
              (by decide) isOver (seenEq.trans unseen) (fun _ => rfl) processEq

/-! ## All headers -/

/-- Every header does what its verdict says. -/
theorem follows_verdict (steady : Steady plan reader request) (errorNe : plan.error ≠ 0)
    (header : FCGIHeader) :
    Follows plan header reader request
      (verdict plan.channel reader.skip header (reader.upcoming request)) := by
  have requestIdEq : plan.channel.requestId = request.requestId := by
    rw [steady.request_eq]
    rfl
  have typeEq : plan.channel.type = reader.type := steady.type_eq.symm
  unfold verdict
  by_cases version : header.version ≠ fcgiVersion1
  · rw [if_pos version]
    apply stopsWith_failed steady (by decide)
    exact ⟨reader.contentLen, reader.paddingLen, if_pos version⟩
  · rw [if_neg version]
    have processEq : processHeader header reader.atRecord request =
        if header.type = fcgiBeginRequest then
          processBeginRecord header.requestId (reader.inHeader header) request
        else if header.requestId = fcgiNullRequestId then
          processManagementRecord header.type (reader.inHeader header) request
        else if header.requestId ≠ request.requestId then
          some (skipRecord, reader.inHeader header, request)
        else if header.type ≠ reader.type then
          some (fcgxProtocolError, reader.inHeader header, request)
        else
          some (streamRecord, reader.inHeader header, request) := if_neg version
    by_cases begins : header.type = fcgiBeginRequest
    · rw [if_pos begins] at processEq ⊢
      exact follows_begin steady errorNe processEq
    · rw [if_neg begins] at processEq ⊢
      by_cases management : header.requestId = fcgiNullRequestId
      · rw [if_pos management] at processEq ⊢
        by_cases asks : header.type = fcgiGetValues
        · rw [asks] at processEq
          rw [if_pos asks]
          exact follows_values steady errorNe processEq
        · rw [if_neg asks]
          obtain ⟨now, responseEq, sends⟩ := respond_of_sound steady.sound mgmtRecord
            (unknownTypeRecord header.type).bytes (reader.inHeader header)
          rw [← wire_singleton] at sends
          rw [processManagementRecord, if_neg asks] at processEq
          exact follows_mgmt steady sends (processEq.trans (congrArg some responseEq))
      · rw [if_neg management] at processEq ⊢
        rw [requestIdEq, typeEq]
        by_cases foreign : header.requestId ≠ request.requestId
        · rw [if_pos foreign] at processEq ⊢
          exact follows_skip steady (Request.Sends.refl steady.sound) processEq
        · rw [if_neg foreign] at processEq ⊢
          by_cases unexpected : header.type ≠ reader.type
          · rw [if_pos unexpected] at processEq ⊢
            exact stopsWith_failed steady (by decide) ⟨_, _, processEq⟩
          · rw [if_neg unexpected] at processEq ⊢
            exact follows_stream steady processEq

end Reader

end NginxFastcgi.Fcgi
