import NginxFastcgi.Fcgi.HeaderVerdicts

/-!
# Input streams

`FillBuffProc` brings the content that `demultiplex` finds in the bytes of the
connection, however the kernel cuts them into reads and however the client
takes them.
-/

namespace NginxFastcgi.Fcgi

open Foundation
open Foundation.Loop
open Foundation.Memory

namespace Reader

/-- The stream is over as planned. -/
structure StreamOver (plan : StreamPlan) (reader : Reader) (request : Request) : Prop where
  ends : EndsWith plan reader request plan.ending
  written : request.ipc.written = plan.request.ipc.written ++ wire plan.replies
  sound : request.ipc.Sound

/-- What is carried is what the plan says. -/
structure Carries (plan : StreamPlan) (carried : Carried) (request : Request) : Prop where
  answered : ∃ sent, request.ipc.written = plan.request.ipc.written ++ wire sent ∧
    sent ++ carried.replies = plan.replies
  ending : carried.ending = plan.ending

/-- The stream still brings `data`. -/
structure InStream (plan : StreamPlan) (data : List UInt8) (reader : Reader)
    (request : Request) : Prop where
  usable : reader.Usable
  steady : Steady plan reader request
  skip_window : reader.skip = true → reader.rdNext = reader.stop
  carried : ∃ carried, demultiplexFrom plan.channel reader.skip reader.contentLeft
      reader.paddingLen (reader.upcoming request) = some carried ∧
    carried.content = data ∧ Carries plan carried request

/-- How a fill may return. -/
def Brings (plan : StreamPlan) (data : List UInt8) : Reader × Request → Prop
  | (after, sent) => (InStream plan data after sent ∧ after.rdNext ≠ after.stop) ∨
      (data = [] ∧ StreamOver plan after sent)

variable {plan : StreamPlan} {reader after : Reader} {request sent : Request}
  {data : List UInt8} {carried : Carried} {count : Nat}

theorem Carries.of_written (carries : Carries plan carried request)
    (written : sent.ipc.written = request.ipc.written) : Carries plan carried sent := by
  refine ⟨?_, carries.ending⟩
  rw [written]
  exact carries.answered

/-- Once no answers are left, all were written. -/
theorem Carries.written_of_over (carries : Carries plan carried request)
    (nothing : carried.replies = []) :
    request.ipc.written = plan.request.ipc.written ++ wire plan.replies := by
  obtain ⟨sent, sentEq, repliesEq⟩ := carries.answered
  rw [sentEq, ← repliesEq, nothing, List.append_nil]

theorem demultiplexFrom_of_short {channel : Channel} {skip : Bool} {contentLen paddingLen : Nat}
    {input : List UInt8} (short : (input.drop (contentLen + paddingLen)).length < fcgiHeaderLen)
    (nothing : (if skip then [] else input.take contentLen) = []) :
    demultiplexFrom channel skip contentLen paddingLen input = some (Carried.atEnd .starved) := by
  rw [demultiplexFrom, demultiplex_of_short short, nothing]
  rfl

theorem Steady.moved (steady : Steady plan reader request)
    (moved : Moved count reader request after sent) : Steady plan after sent := by
  have requestEq := moved.request_eq
  constructor
  · exact moved.filling
  · rw [moved.reader_eq]
    exact steady.unbounded
  · rw [moved.reader_eq]
    exact steady.no_error
  · rw [moved.reader_eq]
    exact steady.type_eq
  · rw [requestEq, steady.request_eq]
  · intro errno
    rw [requestEq]
    exact steady.sound errno
  · rw [moved.error_eq, steady.error_eq]

theorem streamOver_of_starved {last : Reader} {final : Request}
    (steady : Steady plan reader request) (starved : Starved reader request last final)
    (carries : Carries plan (Carried.atEnd .starved) request) : StreamOver plan last final := by
  have finalEq := starved.request_eq
  constructor
  · rw [← carries.ending]
    refine ⟨starved.closed, ?_, ?_, fun _ => ?_⟩
    · rw [starved.errno_eq, setError, if_pos steady.no_error, steady.error_eq]
    · rw [finalEq, steady.request_eq]
    · rw [finalEq, steady.request_eq]
  · rw [finalEq]
    exact carries.written_of_over rfl
  · intro errno
    rw [finalEq]
    exact steady.sound errno

theorem inStream_handOut {next : Reader} {now : Request} (steady : Steady plan reader request)
    (wanted : reader.skip = false)
    (carriedEq : demultiplexFrom plan.channel reader.skip reader.contentLen reader.paddingLen
      (reader.upcoming request) = some carried)
    (carries : Carries plan carried request) (moved : Moved 0 reader request next now)
    (nonempty : next.rdNext ≠ next.buff.length) (some_content : 0 < reader.contentLen) :
    InStream plan carried.content next.handOut now ∧ next.handOut.rdNext ≠ next.handOut.stop := by
  have steadyNext := steady.moved moved
  have inBuffer := moved.filling.rdNext_le
  have contentEq : next.contentLen = reader.contentLen := by
    rw [moved.reader_eq]
  have skipEq : next.handOut.skip = reader.skip := by
    rw [handOut, moved.reader_eq]
  have paddingEq : next.handOut.paddingLen = reader.paddingLen := by
    rw [handOut, moved.reader_eq]
  have leftEq : next.handOut.contentLeft = reader.contentLen := by
    simp only [contentLeft, handOut]
    omega
  have upcomingEq : next.handOut.upcoming now = reader.upcoming request := moved.upcoming_eq
  refine ⟨⟨⟨moved.filling.room, moved.filling.buff_le, inBuffer, fun _ =>
    ⟨Nat.le_add_right _ _, ?_⟩⟩, ⟨⟨moved.filling.room, moved.filling.buff_le, inBuffer,
    moved.filling.not_closed⟩, steadyNext.unbounded, steadyNext.no_error, steadyNext.type_eq,
    steadyNext.request_eq, steadyNext.sound, steadyNext.error_eq⟩, ?_, carried, ?_, rfl,
    carries.of_written ?_⟩, ?_⟩
  · simp only [handOut]
    omega
  · intro skips
    rw [skipEq, wanted] at skips
    contradiction
  · rw [skipEq, leftEq, paddingEq, upcomingEq, carriedEq]
  · rw [moved.request_eq]
  · simp only [handOut]
    omega

/-- What comes behind a header, if the loop goes on as it should. -/
theorem leads_verdict (errorNe : plan.error ≠ 0) (steady : Steady plan reader request)
    {header : FCGIHeader}
    (carriedEq : (match verdict plan.channel reader.skip header (reader.upcoming request) with
      | .stop ending => some (Carried.atEnd ending)
      | .fault => none
      | .goOn skip content reply => (demultiplex plan.channel skip ((reader.upcoming request).drop
          (header.contentLength + header.paddingLength.toNat))).map
            (Carried.behind content reply)) = some carried)
    (carries : Carries plan carried request)
    (goesOn : ∀ next now later, Steady plan next now →
      (next.upcoming now).length ≤ (reader.upcoming request).length →
      demultiplexFrom plan.channel next.skip next.contentLen next.paddingLen
        (next.upcoming now) = some later → Carries plan later now →
      Leads (fillTurn processHeader) (fillTurn processHeader ([], next, now))
        (Brings plan later.content)) :
    Leads (fillTurn processHeader) (headerTurn header reader request)
      (Brings plan carried.content) := by
  have follows := follows_verdict steady errorNe header
  cases verdictEq : verdict plan.channel reader.skip header (reader.upcoming request) with
  | stop ending =>
      rw [verdictEq] at carriedEq follows
      cases carriedEq
      obtain ⟨last, final, turnEq, ends, writtenEq, sound⟩ := follows
      rw [turnEq]
      refine .done (Or.inr ⟨rfl, ?_, ?_, sound⟩)
      · rw [← carries.ending]
        exact ends
      · rw [writtenEq]
        exact carries.written_of_over rfl
  | fault =>
      rw [verdictEq] at carriedEq
      contradiction
  | goOn skip content reply =>
      rw [verdictEq] at carriedEq follows
      obtain ⟨later, laterEq, rfl⟩ := Option.map_eq_some_iff.mp carriedEq
      obtain ⟨next, now, turnEq, steadyNext, writtenEq, shorter, carriedNext⟩ := follows
      rw [turnEq]
      apply Leads.again
      apply goesOn next now _ steadyNext shorter (carriedNext later laterEq)
      obtain ⟨sent, sentEq, repliesEq⟩ := carries.answered
      refine ⟨⟨sent ++ reply, ?_, ?_⟩, carries.ending⟩
      · rw [writtenEq, sentEq, wire_append, List.append_assoc]
      · rw [List.append_assoc]
        exact repliesEq

theorem ofBytes_take {input : List UInt8} (enough : fcgiHeaderLen ≤ input.length) :
    FCGIHeader.ofBytes (input.take fcgiHeaderLen) = FCGIHeader.ofBytes input := by
  have whole : 8 ≤ (input.take fcgiHeaderLen).length := by
    rw [List.length_take]
    exact le_min (Nat.le_refl _) enough
  have same := ofBytes_append whole (input.drop fcgiHeaderLen)
  rw [List.take_append_drop] at same
  exact same.symm

/-- A fill brings what is carried next. -/
theorem leads_stream (errorNe : plan.error ≠ 0) (steady : Steady plan reader request)
    (carriedEq : demultiplexFrom plan.channel reader.skip reader.contentLen reader.paddingLen
      (reader.upcoming request) = some carried)
    (carries : Carries plan carried request) :
    Leads (fillTurn processHeader) (fillTurn processHeader ([], reader, request))
      (Brings plan carried.content) := by
  induction boundEq : (reader.upcoming request).length using Nat.strong_induction_on
    generalizing reader request carried with
  | _ bound inductionHypothesis =>
      by_cases wanted : reader.skip = false ∧ 0 < reader.contentLen
      · obtain ⟨wanted, some_content⟩ := wanted
        apply leads_content steady.filling some_content wanted
        · intro nothing last final starved
          have noInput : (if reader.skip then [] else
              (reader.upcoming request).take reader.contentLen) = [] := by
            rw [nothing, List.take_nil, ite_self]
          rw [demultiplexFrom_of_short (by rw [nothing, List.drop_nil]; decide) noInput]
            at carriedEq
          cases carriedEq
          exact Or.inr ⟨rfl, streamOver_of_starved steady starved carries⟩
        · intro next now moved nonempty
          exact Or.inl (inStream_handOut steady wanted carriedEq carries moved nonempty
            some_content)
      · have passes : reader.skip = true ∨ reader.contentLen = 0 := by
          cases skips : reader.skip with
          | true => exact Or.inl rfl
          | false => exact Or.inr (Nat.eq_zero_of_not_pos fun positive => wanted ⟨skips, positive⟩)
        have noContent : (if reader.skip then [] else
            (reader.upcoming request).take reader.contentLen) = [] := by
          rcases passes with skips | noContent
          · rw [if_pos skips]
          · rw [noContent, List.take_zero, ite_self]
        apply leads_discard steady.filling passes
        · intro few last final starved
          have short : ((reader.upcoming request).drop
              (reader.contentLen + reader.paddingLen)).length < fcgiHeaderLen := by
            rw [List.length_drop]
            change _ < 8
            omega
          rw [demultiplexFrom_of_short short noContent] at carriedEq
          cases carriedEq
          exact Or.inr ⟨rfl, streamOver_of_starved steady starved carries⟩
        · intro enough after sent moved
          have base : Steady plan { reader with
              contentLen := 0, paddingLen := 0,
              skip := reader.skip && reader.contentLen == 0 } request :=
            ⟨⟨steady.filling.room, steady.filling.buff_le, steady.filling.rdNext_le,
              steady.filling.not_closed⟩, steady.unbounded, steady.no_error, steady.type_eq,
              steady.request_eq, steady.sound, steady.error_eq⟩
          have steadyAfter := base.moved moved
          have skipEq : after.skip = (reader.skip && reader.contentLen == 0) := by
            rw [moved.reader_eq]
          have inputEq : after.upcoming sent =
              (reader.upcoming request).drop (reader.contentLen + reader.paddingLen) :=
            moved.upcoming_eq
          have carriesAfter : Carries plan carried sent := by
            apply carries.of_written
            rw [moved.request_eq]
          have carriedHere : demultiplex plan.channel after.skip (after.upcoming sent) =
              some carried := by
            rw [demultiplexFrom, noContent, ← skipEq, ← inputEq] at carriedEq
            obtain ⟨same, sameEq, rfl⟩ := Option.map_eq_some_iff.mp carriedEq
            exact sameEq
          apply leads_header steadyAfter.filling steadyAfter.unbounded
          · rw [moved.reader_eq]
          · rw [moved.reader_eq]
          · intro few last final starved
            rw [demultiplex_of_short few] at carriedHere
            cases carriedHere
            exact Or.inr ⟨rfl, streamOver_of_starved steadyAfter starved carriesAfter⟩
          · intro enoughHeader next now movedNext
            have steadyNext := steadyAfter.moved movedNext
            have skipNext : next.skip = after.skip := by
              rw [movedNext.reader_eq]
            have upcomingNext := movedNext.upcoming_eq
            rw [demultiplex, dif_neg (Nat.not_lt_of_le enoughHeader)] at carriedHere
            have upcomingLength := congrArg List.length upcomingNext
            rw [List.length_drop] at upcomingLength
            have inputLength := congrArg List.length inputEq
            rw [List.length_drop] at inputLength
            have positive : 0 < fcgiHeaderLen := by
              decide
            rw [ofBytes_take enoughHeader]
            apply leads_verdict errorNe steadyNext
            · rw [skipNext, upcomingNext, List.drop_drop]
              exact carriedHere
            · apply carriesAfter.of_written
              rw [movedNext.request_eq]
            · intro final last later steadyLater shorter laterEq carriesLater
              exact inductionHypothesis _ (by omega) steadyLater laterEq carriesLater rfl

/-- `FillBuffProc` for a stream whose window is used up. -/
theorem InStream.fillBuffProc (errorNe : plan.error ≠ 0)
    (inStream : InStream plan data reader request) (used : reader.rdNext = reader.stop) :
    ∃ after sent, Reader.fillBuffProc reader request = some (after, sent) ∧
      Brings plan data (after, sent) := by
  obtain ⟨carried, carriedEq, rfl, carries⟩ := inStream.carried
  have leftEq : reader.contentLeft = reader.contentLen := by
    rw [contentLeft, used, Nat.sub_self, Nat.zero_add]
  rw [leftEq] at carriedEq
  obtain ⟨⟨after, sent⟩, ends, brings⟩ :=
    (leads_stream errorNe inStream.steady carriedEq carries).ends
  exact ⟨after, sent, fillWith_of_ends headerBounded_processHeader inStream.steady.filling ends,
    brings⟩

theorem InStream.take (inStream : InStream plan data reader request)
    (within : count ≤ reader.stop - reader.rdNext) :
    InStream plan (data.drop count) (reader.advance count) request := by
  have usable := inStream.usable
  have steady := inStream.steady
  have isOpen := steady.filling.not_closed
  have upcomingEq := upcoming_take request usable isOpen within
  have leftEq := contentLeft_advance within
  have windowLe := windowLength_le request usable isOpen
  have advanced := usable.advance isOpen within
  obtain ⟨carried, carriedEq, rfl, carries⟩ := inStream.carried
  refine ⟨advanced, ⟨⟨advanced.room, advanced.buff_le, advanced.rdNext_le, isOpen⟩,
    steady.unbounded, steady.no_error, steady.type_eq, steady.request_eq, steady.sound,
    steady.error_eq⟩, ?_, { carried with content := carried.content.drop count }, ?_, rfl,
    carries.answered, carries.ending⟩
  · intro skips
    have used := inStream.skip_window skips
    simp only [advance]
    omega
  · rw [leftEq, upcomingEq]
    cases skips : reader.skip with
    | true =>
        have used := inStream.skip_window skips
        have none : count = 0 := by
          omega
        rw [skips] at carriedEq
        simp only [advance, skips, none, Nat.sub_zero, List.drop_zero, carriedEq]
    | false =>
        rw [skips] at carriedEq
        have countLe : count ≤ reader.contentLeft := within.trans (Nat.le_add_right _ _)
        have dropped := demultiplexFrom_drop countLe (within.trans windowLe) carriedEq
        simpa only [advance, skips] using dropped

theorem InStream.window_isPrefix (inStream : InStream plan data reader request) :
    reader.window <+: data := by
  obtain ⟨carried, carriedEq, rfl, -⟩ := inStream.carried
  cases skips : reader.skip with
  | true =>
      have used := inStream.skip_window skips
      rw [window, used, Nat.sub_self, slice_zero_length]
      exact List.nil_prefix
  | false =>
      rw [skips] at carriedEq
      rw [window_eq request inStream.usable inStream.steady.filling.not_closed]
      exact (List.take_prefix_take_left (Nat.le_add_right _ _)).trans
        (take_isPrefix_of_demultiplexFrom carriedEq)

theorem InStream.length_le (inStream : InStream plan data reader request) :
    data.length ≤ reader.pending request := by
  obtain ⟨carried, carriedEq, rfl, -⟩ := inStream.carried
  exact (length_content_from_le carriedEq).trans (length_upcoming_le reader request)

/-- The stream ends inside the request. -/
theorem InStream.not_begun (inStream : InStream plan data reader request)
    (isBegun : plan.request.isBeginProcessed = true) (requestId : Nat)
    (begun : FCGIBeginRequestBody) (left : List UInt8) :
    plan.ending ≠ .begun requestId begun left := by
  obtain ⟨carried, carriedEq, -, carries⟩ := inStream.carried
  obtain ⟨later, laterEq, rfl⟩ := Option.map_eq_some_iff.mp carriedEq
  rw [← carries.ending]
  have begunHere : plan.channel.isBegun = true := isBegun
  have notBegun := not_begun_of_demultiplex begunHere laterEq requestId begun left
  exact notBegun

theorem StreamOver.closed (isOver : StreamOver plan reader request)
    (notBegun : ∀ requestId begun left, plan.ending ≠ .begun requestId begun left) :
    reader.isClosed = true := by
  have ends := isOver.ends
  cases endingEq : plan.ending with
  | begun requestId begun left => exact absurd endingEq (notBegun requestId begun left)
  | _ =>
      rw [endingEq] at ends
      exact ends.1

theorem InStream.mark (inStream : InStream plan data reader request) :
    InStream plan data { reader with stopUnget := reader.rdNext } request := by
  have usable := inStream.usable
  have steady := inStream.steady
  exact ⟨⟨usable.room, usable.buff_le, usable.rdNext_le, usable.window⟩,
    ⟨⟨usable.room, usable.buff_le, usable.rdNext_le, steady.filling.not_closed⟩,
      steady.unbounded, steady.no_error, steady.type_eq, steady.request_eq, steady.sound,
      steady.error_eq⟩, inStream.skip_window, inStream.carried⟩

/-- A stream of a request, for its clients. -/
theorem inStream_supplies (errorNe : plan.error ≠ 0)
    (isBegun : plan.request.isBeginProcessed = true) :
    Supplies Reader.fillBuffProc (InStream plan)
      (fun reader request => StreamOver plan reader request ∧ reader.isClosed = true) where
  is_open inStream := inStream.steady.filling.not_closed
  inside inStream := inStream.usable.window inStream.steady.filling.not_closed
  window := InStream.window_isPrefix
  length_le := InStream.length_le
  take := InStream.take
  ended_closed isOver := isOver.2
  fill_spec inStream used := by
    obtain ⟨after, sent, fillEq, ⟨inAfter, window⟩ | ⟨empty, isOver⟩⟩ :=
      inStream.fillBuffProc errorNe used
    · exact ⟨after, sent, fillEq,
        Or.inl ⟨inAfter.steady.filling.not_closed, inAfter.mark, window⟩⟩
    · exact ⟨after, sent, fillEq,
        Or.inr ⟨empty, isOver, isOver.closed (inStream.not_begun isBegun)⟩⟩

/-! ## Starting a stream -/

/-- What a stream comes to if it starts here. -/
def streamPlan (type : UInt8) (request : Request) (carried : Carried) : StreamPlan where
  type := type
  request := request
  replies := carried.replies
  ending := carried.ending

/-- A connection on which a stream can start. -/
structure Ready (reader : Reader) (request : Request) : Prop where
  room : 0 < reader.bufflen
  buff_le : reader.buff.length ≤ reader.bufflen
  rdNext_le : reader.rdNext ≤ reader.buff.length
  no_error : reader.fcgiErrno = 0
  sound : request.ipc.Sound
  error_ne : readsError request.ipc.reads ≠ 0

theorem ready_newReader {bufflen : Nat} (room : 0 < bufflen) (sound : request.ipc.Sound)
    (errorNe : readsError request.ipc.reads ≠ 0) (type : UInt8) :
    Ready (newReader bufflen type) request :=
  ⟨room, Nat.zero_le _, Nat.le_refl _, rfl, sound, errorNe⟩

/-- `SetReaderType` starts a stream at the next byte. -/
theorem inStream_setReaderType (ready : Ready reader request) (type : UInt8)
    (carriedEq : demultiplex ⟨request.requestId, type, request.isBeginProcessed⟩ false
      (reader.upcoming request) = some carried) :
    InStream (streamPlan type request carried) carried.content (reader.setReaderType type)
      request := by
  refine ⟨⟨ready.room, ready.buff_le, ready.rdNext_le, fun _ =>
    ⟨Nat.le_refl _, ready.rdNext_le⟩⟩, ⟨⟨ready.room, ready.buff_le, ready.rdNext_le, rfl⟩, rfl,
    ready.no_error, rfl, rfl, ready.sound, rfl⟩, fun _ => rfl, carried, ?_, rfl,
    ⟨[], (List.append_nil _).symm, rfl⟩, rfl⟩
  have noneLeft : (reader.setReaderType type).contentLeft = 0 := by
    change reader.rdNext - reader.rdNext + 0 = 0
    rw [Nat.sub_self]
  rw [noneLeft]
  exact demultiplexFrom_zero.trans carriedEq

end Reader

end NginxFastcgi.Fcgi
