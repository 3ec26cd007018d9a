import NginxFastcgi.Fcgi.WebRequest

/-!
# What an application is given

How the parameters of an accepted request are found by name, and two kinds of
connection that open a request with less than the web server sent.
-/

namespace NginxFastcgi.Fcgi

open Foundation
open Foundation.Framing

/-! ## Parameters by name -/

section Less

variable {bufflen : Nat} {request : Request} {good : Ipc} {later : List Ipc}
  {before replies params paramsReplies : List Record} {begin : Record}
  {roleStr content rest more : List UInt8} {pairs : List NameValue}

/-- A connection that ends among the parameters.  If it ends behind a whole
pair, the request is accepted with the pairs that came; inside of a pair, the
connection is given up. -/
theorem accept_of_truncated (room : 0 < bufflen) (live : good.Live)
    (opening : ∀ own, Interleaved ⟨own, 0, false⟩ before [] replies)
    (begins : begin.type = fcgiBeginRequest) (someId : begin.requestId ≠ fcgiNullRequestId)
    (whole : begin.content.length = 8) (unpadded : begin.padding = [])
    (roleEq : roleString (joinBytes (FCGIBeginRequestBody.ofBytes begin.content).roleB1
      (FCGIBeginRequestBody.ofBytes begin.content).roleB0) = some roleStr)
    (stream : Interleaved ⟨begin.requestId, fcgiParams, true⟩ params content paramsReplies)
    (parses : pairFormat.Parses content pairs rest) (fits : cutPair rest ≠ .malformed)
    (short : more.length < fcgiHeaderLen)
    (behind : (∃ record ∈ params, record.type = fcgiGetValues) → more ≠ [])
    (bytesEq : readsBytes good.reads =
      wire before ++ (begin.bytes ++ (wire params ++ more))) :
    (rest = [] → ∃ accepted,
      acceptR bufflen (good :: later) request = some (some accepted, later) ∧
      accepted.params.entries = roleStr :: pairs.map NameValue.entry ∧
      accepted.input.fcgiErrno = readsError good.reads) ∧
    (rest ≠ [] → ∃ next : Request,
      acceptR bufflen (good :: later) request = acceptR bufflen later next) := by
  have carriedEq : demultiplex ⟨begin.requestId, fcgiParams, true⟩ false (wire params ++ more) =
      some ⟨content, paramsReplies, .starved⟩ := by
    rw [stream.demultiplex_append behind, demultiplex_of_short short]
    simp [Carried.behind, Carried.atEnd]
  have openingEq : ∀ own, Fcgi.opening own (readsBytes good.reads) =
      environment begin.requestId (FCGIBeginRequestBody.ofBytes begin.content) replies
        (wire params ++ more) roleStr := by
    intro own
    rw [bytesEq, opening_of_begin (opening own) begins someId whole roleEq, unpadded,
      List.nil_append]
  constructor
  · rintro rfl
    have opens : Opens (readsBytes good.reads) ⟨begin.requestId,
        FCGIBeginRequestBody.ofBytes begin.content, roleStr :: pairs.map NameValue.entry,
        replies ++ paramsReplies, .starved⟩ := by
      intro own
      rw [openingEq own]
      exact environment_of_params carriedEq parses
    obtain ⟨given, input, sent, acceptEq, serves⟩ := acceptR_of_opens room live opens
    exact ⟨_, acceptEq, serves.entries, serves.left⟩
  · intro nonempty
    have barren : Barren (readsBytes good.reads) := by
      intro own
      rw [openingEq own]
      exact environment_of_rest carriedEq parses fits nonempty
    obtain ⟨next, acceptEq, -⟩ := acceptR_of_barren request later room live barren
    exact ⟨next, acceptEq⟩

/-- The short request up to its only parameter. -/
def cutRequest : List UInt8 :=
  shortRequest.begin.bytes ++ wire shortRequest.params

theorem accept_of_cutRequest :
    ∃ accepted, acceptR 32 [.bringing cutRequest] (.begun 0 (.bringing [])) =
        some (some accepted, []) ∧
      accepted.input.fcgiErrno = fcgxProtocolError := by
  have brings : readsBytes (Ipc.bringing cutRequest).reads =
      wire [] ++ (shortRequest.begin.bytes ++ (wire shortRequest.params ++ [])) := by
    rw [readsBytes_bringing, List.append_nil]
    rfl
  obtain ⟨accepted, acceptEq, -, errnoEq⟩ :=
    (accept_of_truncated (by decide : 0 < 32) (live_bringing cutRequest) (fun _ => .nil) rfl
      Nat.one_ne_zero rfl rfl rfl shortRequest.params_stream (parses_pairs shortRequest.pairs_fit)
      (by decide) (by decide) (by decide) brings).1 rfl
  exact ⟨accepted, acceptEq, errnoEq.trans (readsError_bringing cutRequest)⟩

/-- Padding behind the record that begins a request is taken for the next
header.  Unless it looks like one, the request is accepted without any of the
parameters, and nothing more is read of it. -/
theorem accept_of_padded (room : 0 < bufflen) (live : good.Live)
    (opening : ∀ own, Interleaved ⟨own, 0, false⟩ before [] replies)
    (begins : begin.type = fcgiBeginRequest) (someId : begin.requestId ≠ fcgiNullRequestId)
    (whole : begin.content.length = 8)
    (roleEq : roleString (joinBytes (FCGIBeginRequestBody.ofBytes begin.content).roleB1
      (FCGIBeginRequestBody.ofBytes begin.content).roleB0) = some roleStr)
    {first : UInt8} {padding : List UInt8} (padded : begin.padding = first :: padding)
    (noHeader : first ≠ fcgiVersion1) (long : fcgiHeaderLen ≤ (begin.padding ++ more).length)
    (bytesEq : readsBytes good.reads = wire before ++ (begin.bytes ++ more)) :
    ∃ accepted, acceptR bufflen (good :: later) request = some (some accepted, later) ∧
      accepted.params.entries = [roleStr] ∧
      accepted.input.fcgiErrno = fcgxUnsupportedVersion := by
  have carriedEq : demultiplex ⟨begin.requestId, fcgiParams, true⟩ false
      (begin.padding ++ more) = some ⟨[], [], .failed fcgxUnsupportedVersion⟩ := by
    have otherVersion : (FCGIHeader.ofBytes (begin.padding ++ more)).version ≠ fcgiVersion1 := by
      rw [padded]
      exact noHeader
    rw [demultiplex, dif_neg (Nat.not_lt_of_le long), verdict, if_pos otherVersion]
    rfl
  have opens : Opens (readsBytes good.reads) ⟨begin.requestId,
      FCGIBeginRequestBody.ofBytes begin.content, roleStr :: [].map NameValue.entry,
      replies ++ [], .failed fcgxUnsupportedVersion⟩ := by
    intro own
    rw [bytesEq, opening_of_begin (opening own) begins someId whole roleEq]
    exact environment_of_params carriedEq (.stop Format.stuck_nil)
  obtain ⟨given, input, sent, acceptEq, serves⟩ := acceptR_of_opens room live opens
  exact ⟨_, acceptEq, serves.entries, serves.left⟩

theorem paddedBegin_lt : [0].length < 256 := by
  decide

/-- The record that begins the short request, with a byte of padding. -/
def paddedBegin : Record :=
  { shortRequest.begin with padding := [0], padding_lt := paddedBegin_lt }

theorem accept_of_paddedBegin :
    ∃ accepted,
      acceptR 32 [.bringing (paddedBegin.bytes ++ wire shortRequest.params)]
        (.begun 0 (.bringing [])) = some (some accepted, []) ∧
      accepted.input.fcgiErrno = fcgxUnsupportedVersion := by
  have brings : readsBytes (Ipc.bringing (paddedBegin.bytes ++ wire shortRequest.params)).reads =
      wire [] ++ (paddedBegin.bytes ++ wire shortRequest.params) := by
    rw [readsBytes_bringing]
    rfl
  obtain ⟨accepted, acceptEq, -, errnoEq⟩ :=
    accept_of_padded (by decide : 0 < 32)
      (live_bringing (paddedBegin.bytes ++ wire shortRequest.params)) (fun _ => .nil) rfl
      Nat.one_ne_zero rfl rfl rfl (by decide) (by decide) brings
  exact ⟨accepted, acceptEq, errnoEq⟩

end Less

end NginxFastcgi.Fcgi
