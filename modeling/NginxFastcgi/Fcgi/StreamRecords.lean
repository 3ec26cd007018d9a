import NginxFastcgi.Fcgi.InputCalls
import NginxFastcgi.Fcgi.Values

/-!
# Streams as records

What a web server sends for one request: the records of a stream, among them
records of other requests, attempts to begin them and management records, and
an empty record at the end.
-/

namespace NginxFastcgi.Fcgi

open Foundation
open Foundation.Framing

section Demultiplex

variable {channel : Channel} {skip : Bool} {record : Record} {more : List UInt8}

theorem drop_bytes_append (record : Record) (more : List UInt8) :
    (record.bytes ++ more).drop fcgiHeaderLen = record.content ++ (record.padding ++ more) := by
  rw [Record.bytes, List.append_assoc, List.append_assoc]
  rfl

theorem size_header (record : Record) : record.header.size = record.bytes.length := by
  rw [FCGIHeader.size, Record.contentLength_header, Record.paddingLength_header,
    Record.length_bytes]
  rfl

theorem bytes_append_ne_nil (record : Record) (more : List UInt8) : record.bytes ++ more ≠ [] := by
  apply List.append_ne_nil_of_left_ne_nil
  apply List.ne_nil_of_length_pos
  rw [Record.length_bytes]
  omega

/-- One record in front of the rest. -/
theorem demultiplex_bytes (record : Record) (more : List UInt8) :
    demultiplex channel skip (record.bytes ++ more) =
      match verdict channel skip record.header (record.content ++ (record.padding ++ more)) with
      | .stop ending => some (Carried.atEnd ending)
      | .fault => none
      | .goOn skip content reply =>
          (demultiplex channel skip more).map (Carried.behind content reply) := by
  have long : ¬ (record.bytes ++ more).length < fcgiHeaderLen := by
    rw [List.length_append, Record.length_bytes]
    change ¬ _ < 8
    omega
  cases verdictEq : verdict channel skip record.header
      (record.content ++ (record.padding ++ more)) <;>
    rw [demultiplex, dif_neg long, drop_bytes_append, Record.ofBytes_bytes_append, verdictEq,
      size_header, List.drop_left]

/-- A record that is passed over. -/
theorem verdict_over (reply : List Record)
    (verdictEq : verdict channel skip record.header (record.content ++ (record.padding ++ more)) =
      throughRecord true record.header (record.content ++ (record.padding ++ more)) reply) :
    demultiplex channel skip (record.bytes ++ more) =
      (demultiplex channel (record.content.length == 0) more).map (Carried.behind [] reply) := by
  rw [demultiplex_bytes, verdictEq, throughRecord, Record.contentLength_header, Bool.true_and]
  simp only [if_true]

/-- The records of a stream. -/
structure Own (channel : Channel) (record : Record) : Prop where
  requestId_eq : record.requestId = channel.requestId
  type_eq : record.type = channel.type
  some_id : channel.requestId ≠ fcgiNullRequestId
  not_begin : channel.type ≠ fcgiBeginRequest

/-- A record of another request. -/
structure Foreign (channel : Channel) (record : Record) : Prop where
  requestId_ne : record.requestId ≠ channel.requestId
  some_id : record.requestId ≠ fcgiNullRequestId
  not_begin : record.type ≠ fcgiBeginRequest

/-- A record that begins another request. -/
structure Another (channel : Channel) (record : Record) : Prop where
  type_eq : record.type = fcgiBeginRequest
  some_id : record.requestId ≠ fcgiNullRequestId
  whole : record.content.length = 8
  isBegun : channel.isBegun = true

/-- A management record of a type that the library does not know. -/
structure Unknown (record : Record) : Prop where
  no_id : record.requestId = fcgiNullRequestId
  not_begin : record.type ≠ fcgiBeginRequest
  not_values : record.type ≠ fcgiGetValues

/-- A query for variables. -/
structure Query (record : Record) (pairs : List NameValue) : Prop where
  no_id : record.requestId = fcgiNullRequestId
  type_eq : record.type = fcgiGetValues
  content_eq : record.content = pairs.flatMap NameValue.bytes
  fits : ∀ pair ∈ pairs, pair.Fits

theorem verdict_own (own : Own channel record) (body : List UInt8) :
    verdict channel skip record.header body =
      if record.content.length = 0 then .stop (.eof body)
      else throughRecord skip record.header body [] := by
  have notBegin : record.type ≠ fcgiBeginRequest := own.type_eq ▸ own.not_begin
  have someId : record.requestId ≠ fcgiNullRequestId := own.requestId_eq ▸ own.some_id
  unfold verdict
  simp only [Record.version_header, Record.type_header, Record.requestId_header,
    Record.contentLength_header]
  rw [if_neg (not_not_intro rfl), if_neg notBegin, if_neg someId,
    if_neg (not_not_intro own.requestId_eq), if_neg (not_not_intro own.type_eq)]

theorem verdict_foreign (foreign : Foreign channel record) (body : List UInt8) :
    verdict channel skip record.header body = throughRecord true record.header body [] := by
  unfold verdict
  simp only [Record.version_header, Record.type_header, Record.requestId_header]
  rw [if_neg (not_not_intro rfl), if_neg foreign.not_begin, if_neg foreign.some_id,
    if_pos foreign.requestId_ne]

theorem verdict_another (another : Another channel record) (body : List UInt8) :
    verdict channel skip record.header body =
      throughRecord true record.header body [cantMpx record.requestId record.requestId_lt] := by
  have right : ¬ (record.requestId = 0 ∨ record.content.length ≠ 8) := by
    simp [another.whole]
    exact another.some_id
  unfold verdict beginVerdict
  simp only [Record.version_header, Record.type_header, Record.requestId_header,
    Record.contentLength_header]
  rw [if_neg (not_not_intro rfl), if_pos another.type_eq, if_neg right, if_pos another.isBegun]

theorem verdict_unknown (unknown : Unknown record) (body : List UInt8) :
    verdict channel skip record.header body =
      throughRecord skip record.header body [unknownTypeRecord record.type] := by
  have notBegin : record.header.type ≠ fcgiBeginRequest := unknown.not_begin
  have notValues : record.header.type ≠ fcgiGetValues := unknown.not_values
  have noId : record.header.requestId = fcgiNullRequestId := by
    rw [Record.requestId_header, unknown.no_id]
  unfold verdict
  rw [if_neg (not_not_intro (Record.version_header record)), if_neg notBegin, if_pos noId,
    if_neg notValues]
  rfl

/-- A query is answered once a byte behind it is there. -/
theorem verdict_query {pairs : List NameValue} {response : Record}
    (query : Query record pairs)
    (answered : Reader.valuesResponse (pairs.map NameValue.entry) = some response.bytes)
    (behind : more ≠ []) :
    verdict channel false record.header (record.content ++ (record.padding ++ more)) =
      .goOn false [] [response] := by
  have cutEq : pairFormat.cut record.content = (pairs, []) := by
    rw [query.content_eq]
    exact Format.cut_eq_of_parses (parses_pairs query.fits)
  have isValues : record.header.type = fcgiGetValues := query.type_eq
  have notBegin : record.header.type ≠ fcgiBeginRequest := by
    rw [isValues]
    decide
  have noId : record.header.requestId = fcgiNullRequestId := by
    rw [Record.requestId_header, query.no_id]
  have seen : seesEnd false record.content.length record.padding.length
      (record.content ++ (record.padding ++ more)).length = true := by
    have positive := List.length_pos_of_ne_nil behind
    simp only [seesEnd, Bool.false_eq_true, if_false, decide_eq_true_eq, List.length_append]
    omega
  unfold verdict valuesVerdict
  rw [if_neg (not_not_intro (Record.version_header record)), if_neg notBegin, if_pos noId,
    if_pos isValues]
  have front : Record.ofFront response.bytes = response := by
    have same := Record.ofFront_bytes_append response []
    rwa [List.append_nil] at same
  simp only [Record.contentLength_header, Record.paddingLength_header, Bool.false_eq_true,
    if_false, List.take_left, cutEq, seen, answered, front]
  rfl

/-- The content of a record of the stream comes next. -/
theorem demultiplex_own (own : Own channel record) (nonempty : record.content ≠ []) :
    demultiplex channel skip (record.bytes ++ more) =
      (demultiplex channel false more).map
        (Carried.behind (if skip then [] else record.content) []) := by
  have some_content : record.content.length ≠ 0 := by
    simpa using nonempty
  have verdictEq : verdict channel skip record.header
      (record.content ++ (record.padding ++ more)) =
        throughRecord skip record.header (record.content ++ (record.padding ++ more)) [] := by
    rw [verdict_own own, if_neg some_content]
  have someBeq : (record.content.length == 0) = false := beq_false_of_ne some_content
  rw [demultiplex_bytes, verdictEq, throughRecord, Record.contentLength_header, someBeq,
    Bool.and_false, List.take_left]

/-- An empty record of the stream ends it. -/
theorem demultiplex_eof (own : Own channel record) (empty : record.content = []) :
    demultiplex channel skip (record.bytes ++ more) =
      some (Carried.atEnd (.eof (record.padding ++ more))) := by
  have noContent : record.content.length = 0 := by
    rw [empty, List.length_nil]
  rw [demultiplex_bytes, verdict_own own, if_pos noContent, empty, List.nil_append]

/-- A record of another request is passed over.  If it is empty, `skip` is left
behind. -/
theorem demultiplex_foreign (foreign : Foreign channel record) :
    demultiplex channel skip (record.bytes ++ more) =
      demultiplex channel (record.content.length == 0) more := by
  rw [verdict_over [] (verdict_foreign foreign _), map_behind_nil]

/-- Another request is refused. -/
theorem demultiplex_another (another : Another channel record) :
    demultiplex channel skip (record.bytes ++ more) =
      (demultiplex channel false more).map
        (Carried.behind [] [cantMpx record.requestId record.requestId_lt]) := by
  rw [verdict_over _ (verdict_another another _), another.whole]
  rfl

/-- A management record of an unknown type is answered, and its content is
handed out. -/
theorem demultiplex_unknown (unknown : Unknown record) :
    demultiplex channel false (record.bytes ++ more) =
      (demultiplex channel false more).map
        (Carried.behind record.content [unknownTypeRecord record.type]) := by
  rw [demultiplex_bytes, verdict_unknown unknown, throughRecord, Record.contentLength_header,
    Bool.false_and, List.take_left]
  rfl

/-- A query is answered. -/
theorem demultiplex_query {pairs : List NameValue} {response : Record}
    (query : Query record pairs)
    (answered : Reader.valuesResponse (pairs.map NameValue.entry) = some response.bytes)
    (behind : more ≠ []) :
    demultiplex channel false (record.bytes ++ more) =
      (demultiplex channel false more).map (Carried.behind [] [response]) := by
  rw [demultiplex_bytes, verdict_query query answered behind]

end Demultiplex

/-- The records of a stream with what comes between them: what is handed out,
and what the library answers. -/
inductive Interleaved (channel : Channel) : List Record → List UInt8 → List Record → Prop
  | nil : Interleaved channel [] [] []
  | own {record : Record} {records : List Record} {content : List UInt8} {replies : List Record} :
      Own channel record → record.content ≠ [] → Interleaved channel records content replies →
      Interleaved channel (record :: records) (record.content ++ content) replies
  | foreign {record : Record} {records : List Record} {content : List UInt8}
      {replies : List Record} :
      Foreign channel record → record.content ≠ [] → Interleaved channel records content replies →
      Interleaved channel (record :: records) content replies
  | another {record : Record} {records : List Record} {content : List UInt8}
      {replies : List Record} :
      Another channel record → Interleaved channel records content replies →
      Interleaved channel (record :: records) content
        (cantMpx record.requestId record.requestId_lt :: replies)
  | unknown {record : Record} {records : List Record} {content : List UInt8}
      {replies : List Record} :
      Unknown record → Interleaved channel records content replies →
      Interleaved channel (record :: records) (record.content ++ content)
        (unknownTypeRecord record.type :: replies)
  | query {record : Record} {records : List Record} {content : List UInt8}
      {replies : List Record} {response : Record} {pairs : List NameValue} :
      Query record pairs →
      Reader.valuesResponse (pairs.map NameValue.entry) = some response.bytes →
      Interleaved channel records content replies →
      Interleaved channel (record :: records) content (response :: replies)

section Interleaved

variable {channel : Channel} {records replies : List Record} {content : List UInt8}

theorem Carried.behind_behind (first second : List UInt8)
    (firstReply secondReply : List Record) :
    Carried.behind first firstReply ∘ Carried.behind second secondReply =
      Carried.behind (first ++ second) (firstReply ++ secondReply) := by
  funext carried
  simp [Carried.behind]

/-- One part of a stream behind the other. -/
theorem Interleaved.append {behind answers : List Record} {rest : List UInt8}
    (first : Interleaved channel records content replies)
    (second : Interleaved channel behind rest answers) :
    Interleaved channel (records ++ behind) (content ++ rest) (replies ++ answers) := by
  induction first with
  | nil => exact second
  | own own nonempty _ inductionHypothesis =>
      rw [List.append_assoc]
      exact .own own nonempty inductionHypothesis
  | foreign foreign nonempty _ inductionHypothesis =>
      exact .foreign foreign nonempty inductionHypothesis
  | another another _ inductionHypothesis => exact .another another inductionHypothesis
  | unknown unknown _ inductionHypothesis =>
      rw [List.append_assoc]
      exact .unknown unknown inductionHypothesis
  | query query answered _ inductionHypothesis =>
      exact .query query answered inductionHypothesis

/-- The records carry the content of the stream and cause the answers.  A query
is only answered once something comes behind it. -/
theorem Interleaved.demultiplex_append (interleaved : Interleaved channel records content replies)
    {more : List UInt8}
    (behind : (∃ record ∈ records, record.type = fcgiGetValues) → more ≠ []) :
    demultiplex channel false (wire records ++ more) =
      (demultiplex channel false more).map (Carried.behind content replies) := by
  have inTail : ∀ {record : Record} {records : List Record},
      ((∃ other ∈ record :: records, other.type = fcgiGetValues) → more ≠ []) →
      (∃ other ∈ records, other.type = fcgiGetValues) → more ≠ [] := by
    rintro record records whole ⟨other, member, asks⟩
    exact whole ⟨other, List.mem_cons_of_mem _ member, asks⟩
  induction interleaved with
  | nil => rw [map_behind_nil, wire_nil, List.nil_append]
  | own own nonempty _ inductionHypothesis =>
      rw [wire_cons, List.append_assoc, demultiplex_own own nonempty,
        inductionHypothesis (inTail behind), Option.map_map, Carried.behind_behind]
      rfl
  | foreign foreign nonempty _ inductionHypothesis =>
      have some_content : (_ == 0) = false :=
        beq_false_of_ne (List.length_pos_of_ne_nil nonempty).ne'
      rw [wire_cons, List.append_assoc, demultiplex_foreign foreign, some_content,
        inductionHypothesis (inTail behind)]
  | another another _ inductionHypothesis =>
      rw [wire_cons, List.append_assoc, demultiplex_another another,
        inductionHypothesis (inTail behind), Option.map_map, Carried.behind_behind]
      rfl
  | unknown unknown _ inductionHypothesis =>
      rw [wire_cons, List.append_assoc, demultiplex_unknown unknown,
        inductionHypothesis (inTail behind), Option.map_map, Carried.behind_behind]
      rfl
  | @query record records _ _ _ _ query answered _ inductionHypothesis =>
      have someBehind : more ≠ [] := behind ⟨record, List.mem_cons_self, query.type_eq⟩
      have nonempty : wire records ++ more ≠ [] := List.append_ne_nil_of_right_ne_nil _ someBehind
      rw [wire_cons, List.append_assoc, demultiplex_query query answered nonempty,
        inductionHypothesis (inTail behind), Option.map_map, Carried.behind_behind]
      rfl

/-- The same with the record that ends the stream. -/
theorem Interleaved.demultiplex_eof (interleaved : Interleaved channel records content replies)
    {last : Record} (own : Own channel last) (empty : last.content = []) (more : List UInt8) :
    demultiplex channel false (wire records ++ (last.bytes ++ more)) =
      some ⟨content, replies, .eof (last.padding ++ more)⟩ := by
  rw [interleaved.demultiplex_append fun _ => bytes_append_ne_nil last more,
    Fcgi.demultiplex_eof own empty]
  simp [Carried.behind, Carried.atEnd]

/-- Records with nothing between them. -/
theorem interleaved_of_own (own : ∀ record ∈ records, Own channel record ∧ record.content ≠ []) :
    Interleaved channel records (records.flatMap Record.content) [] := by
  induction records with
  | nil => exact .nil
  | cons record records inductionHypothesis =>
      rw [List.forall_mem_cons] at own
      exact .own own.1.1 own.1.2 (inductionHypothesis own.2)

end Interleaved

/-! ## A short stream -/

theorem shortStream_lt : 1 < 65536 := by
  decide

theorem shortStream_le : [97, 98].length ≤ fcgiMaxLength := by
  decide

/-- Two bytes of a stream of request 1. -/
def twoBytes (type : UInt8) : Record :=
  plainRecord type 1 [97, 98] shortStream_lt shortStream_le

/-- The end of a stream of request 1. -/
def noBytes (type : UInt8) : Record :=
  plainRecord type 1 [] shortStream_lt Record.empty_le

section ShortStream

variable {type : UInt8}

theorem own_plainRecord {requestId : Nat} {content : List UInt8} {fits : requestId < 65536}
    {short : content.length ≤ fcgiMaxLength} (someId : requestId ≠ fcgiNullRequestId)
    (notBegin : type ≠ fcgiBeginRequest) :
    Own ⟨requestId, type, true⟩ (plainRecord type requestId content fits short) :=
  ⟨rfl, rfl, someId, notBegin⟩

theorem own_noBytes (notBegin : type ≠ fcgiBeginRequest) : Own ⟨1, type, true⟩ (noBytes type) :=
  own_plainRecord Nat.one_ne_zero notBegin

theorem interleaved_twoBytes (notBegin : type ≠ fcgiBeginRequest) :
    Interleaved ⟨1, type, true⟩ [twoBytes type] [97, 98] [] := by
  apply interleaved_of_own
  intro record member
  rw [List.mem_singleton.mp member]
  exact ⟨own_plainRecord Nat.one_ne_zero notBegin, List.cons_ne_nil _ _⟩

namespace Reader

theorem ready_begun (role : Nat) (bytes : List UInt8) :
    Ready (newReader 32 0) (.begun role (.bringing bytes)) := by
  refine ready_newReader (by decide) (Ipc.sound_bringing bytes) ?_ 0
  change readsError (Ipc.bringing bytes).reads ≠ 0
  rw [readsError_bringing]
  decide

theorem upcoming_begun (role : Nat) (bytes : List UInt8) :
    (newReader 32 0).upcoming (.begun role (.bringing bytes)) = bytes := by
  change [] ++ readsBytes (Ipc.bringing bytes).reads = bytes
  rw [readsBytes_bringing, List.nil_append]

end Reader

end ShortStream

end NginxFastcgi.Fcgi
