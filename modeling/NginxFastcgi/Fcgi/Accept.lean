import NginxFastcgi.Fcgi.StreamRecords

/-!
# Accepting a request

`FCGX_Accept_r` takes connections until one brings a request.  Which request
that is, is read off the bytes of the connection by `opening`.
-/

namespace NginxFastcgi.Fcgi

open Foundation
open Foundation.Framing

/-- The parameter that tells the role. -/
def roleString (role : Nat) : Option (List UInt8) :=
  if role = fcgiResponder then some (textBytes "FCGI_ROLE=RESPONDER")
  else if role = fcgiAuthorizer then some (textBytes "FCGI_ROLE=AUTHORIZER")
  else if role = fcgiFilter then some (textBytes "FCGI_ROLE=FILTER")
  else none

/-- The part of `FCGX_Accept_r` for an open connection.  The result is `none`
for the connections that are closed to try again. -/
def tryConnection (bufflen : Nat) (request : Request) :
    Option (Option (Params × Reader) × Request) := do
  let (input, request) ←
    Reader.fillBuffProc (newReader bufflen 0) { request with isBeginProcessed := false }
  if request.isBeginProcessed = false then
    some (none, request)
  else
    match roleString request.role with
    | none => some (none, request)
    | some roleStr =>
        let params := (Params.newParams 30 (by decide)).putParam roleStr
        let (status, params, input, request) ←
          Reader.readParams Reader.fillBuffProc params (input.setReaderType fcgiParams) request
        if status ≥ 0 then
          some (some (params, input), request)
        else
          some (none, request)

/-- The input side of a request that was accepted.  `Session.start` is its
output side. -/
structure Accepted where
  request : Request
  input : Reader
  params : Params

/-- The loop of `FCGX_Accept_r`.  The connections are those that `OS_Accept`
returns one after the other before it fails; a connection that was kept open is
the first of them.  The connections behind the accepted one are left. -/
def acceptR (bufflen : Nat) : List Ipc → Request → Option (Option Accepted × List Ipc)
  | [], _ => some (none, [])
  | ipc :: ipcs, request => do
      match ← tryConnection bufflen { request with ipc := ipc } with
      | (none, request) => acceptR bufflen ipcs request
      | (some (params, input), request) =>
          some (some ⟨{ request with nWriters := 2 }, input.setReaderType fcgiStdin, params⟩, ipcs)

/-! ## The request on a connection -/

/-- A request with its environment. -/
structure Opened where
  requestId : Nat
  body : FCGIBeginRequestBody
  entries : List (List UInt8)
  /-- What the library answered meanwhile. -/
  replies : List Record
  ending : Ending

/-- The environment on the bytes behind the record that begins a request. -/
def environment (requestId : Nat) (body : FCGIBeginRequestBody) (replies : List Record)
    (left roleStr : List UInt8) : Option (Option Opened) :=
  (demultiplex ⟨requestId, fcgiParams, true⟩ false left).bind fun carried =>
    let (pairs, rest) := pairFormat.cut carried.content
    if cutPair rest = .malformed then
      none
    else if rest ≠ [] then
      some none
    else
      some (some ⟨requestId, body, roleStr :: pairs.map NameValue.entry,
        replies ++ carried.replies, carried.ending⟩)

/-- The request that the bytes of a connection open, after a request with the
id `own`.  There is no outer result where the library faults. -/
def opening (own : Nat) (bytes : List UInt8) : Option (Option Opened) :=
  (demultiplex ⟨own, 0, false⟩ false bytes).bind fun carried =>
    if carried.content ≠ [] then
      some none
    else
      match carried.ending with
      | .begun requestId body left =>
          match roleString (joinBytes body.roleB1 body.roleB0) with
          | none => some none
          | some roleStr => environment requestId body carried.replies left roleStr
      | _ => some none

open Reader in
/-- How the stream of parameters leaves the input. -/
def LeftBy (error : Int) (input : Reader) (sent : Request) : Ending → Prop
  | .eof left => Ready input sent ∧ input.upcoming sent = left
  | .failed errno => input.fcgiErrno = errno
  | .starved => input.fcgiErrno = error
  | .begun _ _ _ => False

/-- The state that a request is accepted in. -/
structure Serves (before : Request) (opened : Opened) (params : Params) (input : Reader)
    (sent : Request) : Prop where
  entries : params.entries = opened.entries
  requestId : sent.requestId = opened.requestId
  role : sent.role = joinBytes opened.body.roleB1 opened.body.roleB0
  keepConnection : sent.keepConnection = decide (opened.body.flags &&& fcgiKeepConn ≠ 0)
  isBegun : sent.isBeginProcessed = true
  appStatus : sent.appStatus = before.appStatus
  written : sent.ipc.written = before.ipc.written ++ wire opened.replies
  sound : sent.ipc.Sound
  left : LeftBy (readsError before.ipc.reads) input sent opened.ending

/-- What `tryConnection` comes to. -/
def Tries (before : Request) (result : Option (Params × Reader)) (sent : Request) :
    Option Opened → Prop
  | none => result = none ∧ sent.appStatus = before.appStatus
  | some opened => ∃ params input, result = some (params, input) ∧
      Serves before opened params input sent

namespace Reader

variable {bufflen : Nat} {before request : Request} {reader : Reader}

/-- A window that is not empty has some of the data. -/
theorem InStream.ne_nil {plan : StreamPlan} {data : List UInt8}
    (inStream : InStream plan data reader request) (window : reader.rdNext ≠ reader.stop) :
    data ≠ [] := by
  obtain ⟨low, high⟩ := inStream.usable.window inStream.steady.filling.not_closed
  have windowLe := inStream.window_isPrefix.length_le
  rw [Reader.window, Memory.length_slice _ (by omega)] at windowLe
  apply List.ne_nil_of_length_pos
  omega

/-- The first stream of a connection, which is over with the record that begins
a request. -/
theorem fillBuffProc_newReader (room : 0 < bufflen) (sound : request.ipc.Sound)
    (errorNe : readsError request.ipc.reads ≠ 0) (notBegun : request.isBeginProcessed = false)
    {carried : Carried}
    (carriedEq : demultiplex ⟨request.requestId, 0, false⟩ false (readsBytes request.ipc.reads) =
      some carried) :
    ∃ after sent, fillBuffProc (newReader bufflen 0) request = some (after, sent) ∧
      ((carried.content ≠ [] ∧ sent = { request with ipc := sent.ipc }) ∨
        (carried.content = [] ∧ StreamOver (streamPlan 0 request carried) after sent)) := by
  have ready := ready_newReader room sound errorNe 0
  have carriedHere : demultiplex ⟨request.requestId, 0, request.isBeginProcessed⟩ false
      ((newReader bufflen 0).upcoming request) = some carried := by
    rw [notBegun]
    exact carriedEq
  have inStream : InStream (streamPlan 0 request carried) carried.content (newReader bufflen 0)
      request := inStream_setReaderType ready 0 carriedHere
  have errorHere : (streamPlan 0 request carried).error ≠ 0 := errorNe
  obtain ⟨after, sent, fillEq, ⟨inAfter, window⟩ | ⟨empty, isOver⟩⟩ :=
    inStream.fillBuffProc errorHere rfl
  · exact ⟨after, sent, fillEq, Or.inl ⟨inAfter.ne_nil window, inAfter.steady.request_eq⟩⟩
  · exact ⟨after, sent, fillEq, Or.inr ⟨empty, isOver⟩⟩

/-- How the input is left where the parameters end. -/
theorem leftBy_of_over {plan : StreamPlan} {after : Reader} {sent : Request} {error : Int}
    (errorNe : error ≠ 0) (errorEq : plan.error = error) (isOver : StreamOver plan after sent)
    (notBegun : ∀ requestId begun left, plan.ending ≠ .begun requestId begun left) :
    LeftBy error after sent plan.ending := by
  have ends := isOver.ends
  cases endingEq : plan.ending with
  | begun requestId begun left => exact absurd endingEq (notBegun requestId begun left)
  | eof left =>
      rw [endingEq] at ends
      obtain ⟨-, noError, usable, upcomingEq, -, sentError, -⟩ := ends
      refine ⟨⟨usable.room, usable.buff_le, usable.rdNext_le, noError, isOver.sound, ?_⟩,
        upcomingEq⟩
      rw [sentError, errorEq]
      exact errorNe
  | failed errno =>
      rw [endingEq] at ends
      exact ends.2.1
  | starved =>
      rw [endingEq] at ends
      exact ends.2.1.trans errorEq

/-- The environment of a request. -/
theorem readParams_environment (ready : Ready reader request)
    (isBegun : request.isBeginProcessed = true) (params : Params) {carried : Carried}
    (carriedEq : demultiplex ⟨request.requestId, fcgiParams, true⟩ false
      (reader.upcoming request) = some carried) {pairs : List NameValue} {rest : List UInt8}
    (parses : pairFormat.Parses carried.content pairs rest)
    (notMalformed : cutPair rest ≠ .malformed) :
    ∃ status after last sent, readParams fillBuffProc params
        (reader.setReaderType fcgiParams) request = some (status, after, last, sent) ∧
      after.entries = params.entries ++ pairs.map NameValue.entry ∧
      ((rest = [] ∧ status = 0 ∧ StreamOver (streamPlan fcgiParams request carried) last sent) ∨
        (rest ≠ [] ∧ status = -1 ∧ sent.appStatus = request.appStatus)) := by
  rw [← isBegun] at carriedEq
  have inStream := inStream_setReaderType ready fcgiParams carriedEq
  have errorHere : (streamPlan fcgiParams request carried).error ≠ 0 := ready.error_ne
  have reads := (inStream_supplies errorHere isBegun).readParams params inStream parses
  rcases readEq : readParams fillBuffProc params (reader.setReaderType fcgiParams) request with
    _ | ⟨status, after, last, sent⟩
  · rw [readEq] at reads
    exact absurd reads notMalformed
  · rw [readEq] at reads
    obtain ⟨entriesEq, ⟨empty, statusEq, isOver, -⟩ | ⟨nonempty, -, statusEq, closed, isOver, -⟩⟩ :=
      reads
    · exact ⟨status, after, last, sent, rfl, entriesEq, Or.inl ⟨empty, statusEq, isOver⟩⟩
    · exact ⟨status, after, last, sent, rfl, entriesEq,
        Or.inr ⟨nonempty, statusEq, appStatus_of_endsWith isOver.1.ends⟩⟩

end Reader

section TryConnection

variable {bufflen : Nat} {request : Request} {result : Option Opened}

/-- The stage behind the record that begins a request. -/
theorem tryConnection_of_begun {input : Reader} {sent : Request} {roleStr : List UInt8}
    (fillEq : Reader.fillBuffProc (newReader bufflen 0) { request with isBeginProcessed := false } =
      some (input, sent))
    (isBegun : sent.isBeginProcessed = true) (roleEq : roleString sent.role = some roleStr) :
    tryConnection bufflen request =
      (Reader.readParams Reader.fillBuffProc
        ((Params.newParams 30 (by decide)).putParam roleStr) (input.setReaderType fcgiParams)
        sent).map fun (status, params, input, sent) =>
          (if status ≥ 0 then some (params, input) else none, sent) := by
  unfold tryConnection
  simp only [fillEq, isBegun, roleEq, Option.bind_eq_bind, Option.bind_some, Bool.true_eq_false,
    if_false]
  rcases Reader.readParams Reader.fillBuffProc
    ((Params.newParams 30 (by decide)).putParam roleStr) (input.setReaderType fcgiParams)
    sent with _ | ⟨status, params, input, sent⟩
  · rfl
  · simp only [Option.bind_some, Option.map_some]
    split <;> rfl

theorem tryConnection_of_notBegun {input : Reader} {sent : Request}
    (fillEq : Reader.fillBuffProc (newReader bufflen 0) { request with isBeginProcessed := false } =
      some (input, sent))
    (notBegun : sent.isBeginProcessed = false) :
    tryConnection bufflen request = some (none, sent) := by
  unfold tryConnection
  simp only [fillEq, notBegun, Option.bind_eq_bind, Option.bind_some, if_true]

theorem tryConnection_of_noRole {input : Reader} {sent : Request}
    (fillEq : Reader.fillBuffProc (newReader bufflen 0) { request with isBeginProcessed := false } =
      some (input, sent))
    (isBegun : sent.isBeginProcessed = true) (noRole : roleString sent.role = none) :
    tryConnection bufflen request = some (none, sent) := by
  unfold tryConnection
  simp only [fillEq, isBegun, noRole, Option.bind_eq_bind, Option.bind_some, Bool.true_eq_false,
    if_false]

open Reader in
/-- The environment behind the record that begins a request. -/
theorem tries_of_environment {input : Reader} {begun : Request} {requestId : Nat}
    {body : FCGIBeginRequestBody} {replies : List Record} {left roleStr : List UInt8}
    (fillEq : fillBuffProc (newReader bufflen 0) { request with isBeginProcessed := false } =
      some (input, begun))
    (ready : Ready input begun) (upcomingEq : input.upcoming begun = left)
    (errorEq : readsError begun.ipc.reads = readsError request.ipc.reads)
    (begunEq : begun = { request with
      ipc := begun.ipc
      requestId := requestId
      keepConnection := body.flags &&& fcgiKeepConn ≠ 0
      role := joinBytes body.roleB1 body.roleB0
      isBeginProcessed := true })
    (writtenEq : begun.ipc.written = request.ipc.written ++ wire replies)
    (roleEq : roleString (joinBytes body.roleB1 body.roleB0) = some roleStr)
    (environmentEq : environment requestId body replies left roleStr = some result) :
    ∃ tried sent, tryConnection bufflen request = some (tried, sent) ∧
      Tries request tried sent result := by
  have isBegun : begun.isBeginProcessed = true := by
    rw [begunEq]
  have roleHere : roleString begun.role = some roleStr := by
    rw [begunEq]
    exact roleEq
  have requestIdEq : begun.requestId = requestId := by
    rw [begunEq]
  obtain ⟨carried, carriedEq, resultEq⟩ := Option.bind_eq_some_iff.mp environmentEq
  rw [← requestIdEq, ← upcomingEq] at carriedEq
  have parses : pairFormat.Parses carried.content (pairFormat.cut carried.content).1
      (pairFormat.cut carried.content).2 := Format.parses_cut carried.content
  generalize pairFormat.cut carried.content = cut at parses resultEq
  rcases cut with ⟨pairs, rest⟩
  dsimp only at parses resultEq
  by_cases malformed : cutPair rest = .malformed
  · rw [if_pos malformed] at resultEq
    contradiction
  · rw [if_neg malformed] at resultEq
    obtain ⟨status, after, last, sent, readEq, entriesEq, next⟩ :=
      readParams_environment ready isBegun ((Params.newParams 30 (by decide)).putParam roleStr)
        carriedEq parses malformed
    have triedEq := tryConnection_of_begun fillEq isBegun roleHere
    rw [readEq, Option.map_some] at triedEq
    rcases next with ⟨empty, rfl, isOver⟩ | ⟨nonempty, rfl, statusEq⟩
    · rw [if_neg (not_not_intro empty)] at resultEq
      cases resultEq
      have notBegun : ∀ requestId begun left, carried.ending ≠ .begun requestId begun left :=
        not_begun_of_demultiplex rfl carriedEq
      have kept := kept_of_endsWith isOver.ends notBegun
      have sentEq : sent = { begun with ipc := sent.ipc } := by
        rw [kept.request_eq, kept.requestId_eq isBegun]
        rfl
      have writtenHere : sent.ipc.written = begun.ipc.written ++ wire carried.replies :=
        isOver.written
      have errorHere : (streamPlan fcgiParams begun carried).error =
          readsError request.ipc.reads := errorEq
      have left := leftBy_of_over (errorEq ▸ ready.error_ne) errorHere isOver notBegun
      refine ⟨_, sent, triedEq, after, last, rfl, ?_, ?_, ?_, ?_, ?_, ?_, ?_, isOver.sound, left⟩
      · rw [entriesEq, Params.entries_putParam, Params.entries_newParams]
        rfl
      · rw [sentEq, requestIdEq]
      · rw [sentEq, begunEq]
      · rw [sentEq, begunEq]
      · rw [sentEq, isBegun]
      · rw [sentEq, begunEq]
      · rw [writtenHere, writtenEq, List.append_assoc, ← wire_append]
    · rw [if_pos nonempty] at resultEq
      cases resultEq
      refine ⟨_, sent, triedEq, rfl, ?_⟩
      rw [statusEq, begunEq]

/-- `FCGX_Accept_r` finds the request that the bytes open. -/
theorem tryConnection_of_opening (room : 0 < bufflen) (sound : request.ipc.Sound)
    (errorNe : readsError request.ipc.reads ≠ 0)
    (openingEq : opening request.requestId (readsBytes request.ipc.reads) = some result) :
    ∃ tried sent, tryConnection bufflen request = some (tried, sent) ∧
      Tries request tried sent result := by
  obtain ⟨carried, carriedEq, resultEq⟩ := Option.bind_eq_some_iff.mp openingEq
  have soundHere : ({ request with isBeginProcessed := false } : Request).ipc.Sound := sound
  obtain ⟨input, sent, fillEq, ⟨nonempty, sentEq⟩ | ⟨empty, isOver⟩⟩ :=
    Reader.fillBuffProc_newReader room soundHere errorNe rfl carriedEq
  · rw [if_pos nonempty] at resultEq
    cases resultEq
    refine ⟨none, sent, tryConnection_of_notBegun fillEq ?_, rfl, ?_⟩
    · rw [sentEq]
    · rw [sentEq]
  · rw [if_neg (not_not_intro empty)] at resultEq
    have ends : Reader.EndsWith _ input sent carried.ending := isOver.ends
    have statusEq := Reader.appStatus_of_endsWith ends
    cases endingEq : carried.ending with
    | begun requestId body left =>
        rw [endingEq] at ends resultEq
        obtain ⟨isOpen, noError, usable, upcomingEq, errorEq, sentEq⟩ := ends
        have isBegun : sent.isBeginProcessed = true := by
          rw [sentEq]
        have roleEq : sent.role = joinBytes body.roleB1 body.roleB0 := by
          rw [sentEq]
        dsimp only at resultEq
        cases roleStrEq : roleString (joinBytes body.roleB1 body.roleB0) with
        | none =>
            rw [roleStrEq] at resultEq
            cases resultEq
            exact ⟨none, sent, tryConnection_of_noRole fillEq isBegun (roleEq ▸ roleStrEq), rfl,
              statusEq⟩
        | some roleStr =>
            rw [roleStrEq] at resultEq
            have sentError : readsError sent.ipc.reads = readsError request.ipc.reads := errorEq
            exact tries_of_environment fillEq ⟨usable.room, usable.buff_le, usable.rdNext_le,
              noError, isOver.sound, sentError ▸ errorNe⟩ upcomingEq sentError sentEq isOver.written
              roleStrEq resultEq
    | _ =>
        rw [endingEq] at ends resultEq
        cases resultEq
        have kept := Reader.kept_of_endsWith ends fun _ _ _ same => by cases same
        have notBegun : sent.isBeginProcessed = false := by
          rw [kept.request_eq]
          rfl
        exact ⟨none, sent, tryConnection_of_notBegun fillEq notBegun, rfl, statusEq⟩

end TryConnection

/-! ## The loop -/

/-- The bytes open a request, whichever was served before. -/
def Opens (bytes : List UInt8) (opened : Opened) : Prop :=
  ∀ own, opening own bytes = some (some opened)

/-- The bytes open no request. -/
def Barren (bytes : List UInt8) : Prop :=
  ∀ own, opening own bytes = some none

/-- A connection on which the writes succeed and every failed read has an
error number. -/
structure Ipc.Live (ipc : Ipc) : Prop where
  sound : ipc.Sound
  error_ne : readsError ipc.reads ≠ 0

section AcceptR

variable {bufflen : Nat} {request : Request} {ipc : Ipc} {ipcs : List Ipc}

/-- A connection that opens no request is closed, and the next one is taken. -/
theorem acceptR_of_barren (request : Request) (ipcs : List Ipc) (room : 0 < bufflen)
    (live : ipc.Live) (barren : Barren (readsBytes ipc.reads)) :
    ∃ next : Request, acceptR bufflen (ipc :: ipcs) request = acceptR bufflen ipcs next ∧
      next.appStatus = request.appStatus := by
  have openingEq : opening ({ request with ipc := ipc } : Request).requestId
      (readsBytes ({ request with ipc := ipc } : Request).ipc.reads) = some none := barren _
  obtain ⟨tried, sent, triedEq, rfl, statusEq⟩ :=
    tryConnection_of_opening room live.sound live.error_ne openingEq
  refine ⟨sent, ?_, statusEq⟩
  rw [acceptR]
  simp only [triedEq, Option.bind_eq_bind, Option.bind_some]

/-- A connection that opens a request is served. -/
theorem acceptR_of_opens (room : 0 < bufflen) (live : ipc.Live) {opened : Opened}
    (opens : Opens (readsBytes ipc.reads) opened) :
    ∃ params input sent,
      acceptR bufflen (ipc :: ipcs) request =
        some (some ⟨{ sent with nWriters := 2 }, input.setReaderType fcgiStdin, params⟩, ipcs) ∧
      Serves { request with ipc := ipc } opened params input sent := by
  have openingEq : opening ({ request with ipc := ipc } : Request).requestId
      (readsBytes ({ request with ipc := ipc } : Request).ipc.reads) = some (some opened) :=
    opens _
  obtain ⟨tried, sent, triedEq, params, input, rfl, serves⟩ :=
    tryConnection_of_opening room live.sound live.error_ne openingEq
  refine ⟨params, input, sent, ?_, serves⟩
  rw [acceptR]
  simp only [triedEq, Option.bind_eq_bind, Option.bind_some]

end AcceptR

end NginxFastcgi.Fcgi
