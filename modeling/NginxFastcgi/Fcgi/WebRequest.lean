import NginxFastcgi.Fcgi.Accept
import NginxFastcgi.Fcgi.Finish

/-!
# Requests as a web server sends them

A request on the wire: the record that begins it, the stream of parameters and
the standard input.  An application gets the parameters and the input of the
first such request, and what it writes goes back on the same connection.

The record that begins the request and the one that ends the parameters have no
padding here, because the library would take it for the next header.
-/

namespace NginxFastcgi.Fcgi

open Foundation
open Foundation.Framing

/-- The records of a request, and what they mean. -/
structure WebRequest where
  requestId : Nat
  /-- Management records before the request. -/
  opening : List Record
  openingReplies : List Record
  begin : Record
  params : List Record
  pairs : List NameValue
  paramsReplies : List Record
  lastParams : Record
  stdin : List Record
  content : List UInt8
  stdinReplies : List Record
  lastStdin : Record
  id_ne : requestId ≠ fcgiNullRequestId
  opening_stream : ∀ own, Interleaved ⟨own, 0, false⟩ opening [] openingReplies
  begin_type : begin.type = fcgiBeginRequest
  begin_id : begin.requestId = requestId
  begin_whole : begin.content.length = 8
  begin_unpadded : begin.padding = []
  params_stream : Interleaved ⟨requestId, fcgiParams, true⟩ params
    (pairs.flatMap NameValue.bytes) paramsReplies
  pairs_fit : ∀ pair ∈ pairs, pair.Fits
  lastParams_own : Own ⟨requestId, fcgiParams, true⟩ lastParams
  lastParams_empty : lastParams.content = []
  lastParams_unpadded : lastParams.padding = []
  stdin_stream : Interleaved ⟨requestId, fcgiStdin, true⟩ stdin content stdinReplies
  lastStdin_own : Own ⟨requestId, fcgiStdin, true⟩ lastStdin
  lastStdin_empty : lastStdin.content = []

namespace WebRequest

/-- The body of the record that begins the request. -/
def body (web : WebRequest) : FCGIBeginRequestBody :=
  FCGIBeginRequestBody.ofBytes web.begin.content

def role (web : WebRequest) : Nat :=
  joinBytes web.body.roleB1 web.body.roleB0

def stdinBytes (web : WebRequest) : List UInt8 :=
  wire web.stdin ++ web.lastStdin.bytes

def bytes (web : WebRequest) : List UInt8 :=
  wire web.opening ++ (web.begin.bytes ++ (wire web.params ++ (web.lastParams.bytes ++
    web.stdinBytes)))

end WebRequest

section Opening

variable {channel : Channel} {record : Record} {more : List UInt8}

/-- The record that begins a request. -/
theorem demultiplex_begin (begins : record.type = fcgiBeginRequest)
    (someId : record.requestId ≠ fcgiNullRequestId) (whole : record.content.length = 8)
    (notBegun : channel.isBegun = false) :
    demultiplex channel false (record.bytes ++ more) =
      some (Carried.atEnd (.begun record.requestId
        (FCGIBeginRequestBody.ofBytes record.content) (record.padding ++ more))) := by
  have right : ¬ (record.header.requestId = 0 ∨ record.header.contentLength ≠ 8) := by
    rw [Record.requestId_header, Record.contentLength_header]
    simp [whole]
    exact someId
  have isBegin : record.header.type = fcgiBeginRequest := begins
  have enough : ¬ (record.content ++ (record.padding ++ more)).length < 8 := by
    rw [List.length_append, whole]
    omega
  have notBegunHere : ¬ channel.isBegun = true := by
    rw [notBegun]
    exact Bool.false_ne_true
  have front : (record.content ++ (record.padding ++ more)).take 8 = record.content := by
    rw [← whole, List.take_left]
  have behind : (record.content ++ (record.padding ++ more)).drop 8 = record.padding ++ more := by
    rw [← whole, List.drop_left]
  rw [demultiplex_bytes]
  unfold verdict beginVerdict
  rw [if_neg (not_not_intro (Record.version_header record)), if_pos isBegin, if_neg right,
    if_neg notBegunHere, if_neg Bool.false_ne_true, if_neg enough, front, behind,
    Record.requestId_header]

/-- The environment of a request on the wire. -/
theorem environment_of_params {requestId : Nat} {replies paramsReplies : List Record}
    {content : List UInt8} {body : FCGIBeginRequestBody} {roleStr left : List UInt8}
    {ending : Ending} (carriedEq : demultiplex ⟨requestId, fcgiParams, true⟩ false left =
      some ⟨content, paramsReplies, ending⟩) {pairs : List NameValue}
    (parses : pairFormat.Parses content pairs []) :
    environment requestId body replies left roleStr =
      some (some ⟨requestId, body, roleStr :: pairs.map NameValue.entry,
        replies ++ paramsReplies, ending⟩) := by
  have cutEq : pairFormat.cut content = (pairs, []) := Format.cut_eq_of_parses parses
  have notMalformed : cutPair [] ≠ .malformed := fun same => by cases same
  rw [environment, carriedEq, Option.bind_some]
  simp only [cutEq]
  rw [if_neg notMalformed, if_neg (not_not_intro rfl)]

/-- Parameters that end inside of a pair. -/
theorem environment_of_rest {requestId : Nat} {replies paramsReplies : List Record}
    {content : List UInt8} {body : FCGIBeginRequestBody} {roleStr left rest : List UInt8}
    {ending : Ending} (carriedEq : demultiplex ⟨requestId, fcgiParams, true⟩ false left =
      some ⟨content, paramsReplies, ending⟩) {pairs : List NameValue}
    (parses : pairFormat.Parses content pairs rest) (fits : cutPair rest ≠ .malformed)
    (nonempty : rest ≠ []) : environment requestId body replies left roleStr = some none := by
  have cutEq : pairFormat.cut content = (pairs, rest) := Format.cut_eq_of_parses parses
  rw [environment, carriedEq, Option.bind_some]
  simp only [cutEq]
  rw [if_neg fits, if_pos nonempty]

/-- What a connection opens is decided behind the record that begins the
request. -/
theorem opening_of_begin {own : Nat} {before replies : List Record}
    (interleaved : Interleaved ⟨own, 0, false⟩ before [] replies)
    (begins : record.type = fcgiBeginRequest) (someId : record.requestId ≠ fcgiNullRequestId)
    (whole : record.content.length = 8) {roleStr : List UInt8}
    (roleEq : roleString (joinBytes (FCGIBeginRequestBody.ofBytes record.content).roleB1
      (FCGIBeginRequestBody.ofBytes record.content).roleB0) = some roleStr) :
    opening own (wire before ++ (record.bytes ++ more)) =
      environment record.requestId (FCGIBeginRequestBody.ofBytes record.content) replies
        (record.padding ++ more) roleStr := by
  have behind := bytes_append_ne_nil record more
  have carriedEq : demultiplex ⟨own, 0, false⟩ false (wire before ++ (record.bytes ++ more)) =
      some ⟨[], replies, .begun record.requestId (FCGIBeginRequestBody.ofBytes record.content)
        (record.padding ++ more)⟩ := by
    rw [interleaved.demultiplex_append fun _ => behind, demultiplex_begin begins someId whole rfl]
    simp [Carried.behind, Carried.atEnd]
  rw [opening, carriedEq, Option.bind_some]
  dsimp only
  rw [if_neg (not_not_intro rfl), roleEq]

end Opening

namespace WebRequest

variable (web : WebRequest) {roleStr : List UInt8}

/-- The bytes of a request open it, and the input is left. -/
theorem opens (roleEq : roleString web.role = some roleStr) (more : List UInt8) :
    Opens (web.bytes ++ more)
      ⟨web.requestId, web.body, roleStr :: web.pairs.map NameValue.entry,
        web.openingReplies ++ web.paramsReplies, .eof (web.stdinBytes ++ more)⟩ := by
  intro own
  have someId : web.begin.requestId ≠ fcgiNullRequestId := by
    rw [web.begin_id]
    exact web.id_ne
  have carriedEq := web.params_stream.demultiplex_eof web.lastParams_own web.lastParams_empty
    (web.stdinBytes ++ more)
  rw [web.lastParams_unpadded, List.nil_append] at carriedEq
  have bytesEq : web.bytes ++ more = wire web.opening ++ (web.begin.bytes ++
      (wire web.params ++ (web.lastParams.bytes ++ (web.stdinBytes ++ more)))) := by
    simp only [bytes, List.append_assoc]
  rw [bytesEq, opening_of_begin (web.opening_stream own) web.begin_type someId web.begin_whole
    roleEq, web.begin_unpadded, List.nil_append, web.begin_id]
  exact environment_of_params carriedEq (parses_pairs web.pairs_fit)

theorem requestId_lt : web.requestId < 65536 := by
  rw [← web.begin_id]
  exact web.begin.requestId_lt

end WebRequest

theorem shortRequest_begin_le : [0, 1, 0, 0, 0, 0, 0, 0].length ≤ fcgiMaxLength := by
  decide

theorem shortRequest_pair_le : [1, 1, 65, 66].length ≤ fcgiMaxLength := by
  decide

theorem shortRequest_fits : NameValue.Fits ⟨[65], [66]⟩ := by
  unfold NameValue.Fits
  decide

/-- A request to a responder with one parameter and two bytes of input. -/
def shortRequest : WebRequest where
  requestId := 1
  opening := []
  openingReplies := []
  begin := plainRecord fcgiBeginRequest 1 [0, 1, 0, 0, 0, 0, 0, 0] shortStream_lt
    shortRequest_begin_le
  params := [plainRecord fcgiParams 1 [1, 1, 65, 66] shortStream_lt shortRequest_pair_le]
  pairs := [⟨[65], [66]⟩]
  paramsReplies := []
  lastParams := noBytes fcgiParams
  stdin := [twoBytes fcgiStdin]
  content := [97, 98]
  stdinReplies := []
  lastStdin := noBytes fcgiStdin
  id_ne := Nat.one_ne_zero
  opening_stream := fun _ => .nil
  begin_type := rfl
  begin_id := rfl
  begin_whole := rfl
  begin_unpadded := rfl
  params_stream := interleaved_of_own (List.forall_mem_singleton.mpr
    ⟨own_plainRecord Nat.one_ne_zero (by decide), List.cons_ne_nil _ _⟩)
  pairs_fit := List.forall_mem_singleton.mpr shortRequest_fits
  lastParams_own := own_noBytes (by decide)
  lastParams_empty := rfl
  lastParams_unpadded := rfl
  stdin_stream := interleaved_twoBytes (by decide)
  lastStdin_own := own_noBytes (by decide)
  lastStdin_empty := rfl

theorem live_bringing (bytes : List UInt8) : (Ipc.bringing bytes).Live := by
  refine ⟨Ipc.sound_bringing bytes, ?_⟩
  rw [readsError_bringing]
  decide

end NginxFastcgi.Fcgi
