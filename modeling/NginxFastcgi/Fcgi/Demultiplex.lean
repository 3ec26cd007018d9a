import NginxFastcgi.Fcgi.FillBuffer
import NginxFastcgi.Fcgi.NameValue

/-!
# What a connection carries for one stream

The bytes of a connection are cut at the headers they contain.  The content of
the records of one request and type is handed out, everything else is passed
over or answered, and some header or the lack of bytes ends it.  This is stated
on the bytes alone, without a buffer and without reads.

Two details are those of the library.  A record of another request with an
empty content leaves `skip` set, so that the content that follows next is lost.
The content of a management record of an unknown type is handed out.
-/

namespace NginxFastcgi.Fcgi

open Foundation

/-- The records that a reader is after. -/
structure Channel where
  requestId : Nat
  type : UInt8
  isBegun : Bool

/-- How a stream ends. -/
inductive Ending
  /-- With the end-of-stream record; the bytes behind its header are left. -/
  | eof (left : List UInt8)
  /-- With the record that begins a request. -/
  | begun (requestId : Nat) (body : FCGIBeginRequestBody) (left : List UInt8)
  | failed (errno : Int)
  /-- With the bytes of the connection. -/
  | starved
  deriving DecidableEq

/-- What a stream brings, and what the library writes on the way. -/
structure Carried where
  content : List UInt8
  replies : List Record
  ending : Ending
  deriving DecidableEq

namespace Carried

/-- Nothing more comes. -/
def atEnd (ending : Ending) : Carried :=
  ⟨[], [], ending⟩

def behind (content : List UInt8) (replies : List Record) (carried : Carried) : Carried :=
  ⟨content ++ carried.content, replies ++ carried.replies, carried.ending⟩

end Carried

/-- What follows from one header. -/
inductive Verdict
  | stop (ending : Ending)
  /-- It goes on behind the record, with this value of `skip`. -/
  | goOn (skip : Bool) (content : List UInt8) (reply : List Record)
  /-- The library faults. -/
  | fault

/-- The content of a record, as far as it is there, and whether `skip` stays. -/
def throughRecord (skip : Bool) (header : FCGIHeader) (body : List UInt8) (reply : List Record) :
    Verdict :=
  .goOn (skip && header.contentLength == 0)
    (if skip then [] else body.take header.contentLength) reply

/-- Whether the bytes suffice for the end of a record to be seen.  Without
padding to pass over it is seen by the first byte behind the record. -/
def seesEnd (skip : Bool) (contentLen paddingLen available : Nat) : Bool :=
  if skip then
    max 1 (contentLen + paddingLen) ≤ available
  else
    contentLen + max 1 paddingLen ≤ available

/-- A header of `FCGI_GET_VALUES`. -/
def valuesVerdict (skip : Bool) (header : FCGIHeader) (body : List UInt8) : Verdict :=
  let (pairs, left) := pairFormat.cut (if skip then [] else body.take header.contentLength)
  if cutPair left = .malformed then
    .fault
  else if ¬ seesEnd skip header.contentLength header.paddingLength.toNat body.length then
    .stop .starved
  else if left ≠ [] then
    .stop (.failed fcgxParamsError)
  else
    match Reader.valuesResponse (pairs.map NameValue.entry) with
    | none => .fault
    | some response => .goOn (skip && header.contentLength == 0) [] [Record.ofFront response]

theorem requestId_lt (header : FCGIHeader) : header.requestId < 65536 :=
  joinBytes_lt _ _

/-- The refusal of another request. -/
def cantMpx (requestId : Nat) (fits : requestId < 65536) : Record :=
  endRequestRecord requestId fits 0 fcgiCantMpxConn

/-- A header of `FCGI_BEGIN_REQUEST`. -/
def beginVerdict (channel : Channel) (skip : Bool) (header : FCGIHeader) (body : List UInt8) :
    Verdict :=
  if header.requestId = 0 ∨ header.contentLength ≠ 8 then
    .stop (.failed fcgxProtocolError)
  else if channel.isBegun then
    throughRecord true header body [cantMpx header.requestId (requestId_lt header)]
  else if skip then
    if seesEnd skip header.contentLength header.paddingLength.toNat body.length then
      .stop (.failed fcgxProtocolError)
    else
      .stop .starved
  else if body.length < 8 then
    .stop .starved
  else
    .stop (.begun header.requestId (FCGIBeginRequestBody.ofBytes (body.take 8)) (body.drop 8))

/-- The header in front of `body`. -/
def verdict (channel : Channel) (skip : Bool) (header : FCGIHeader) (body : List UInt8) :
    Verdict :=
  if header.version ≠ fcgiVersion1 then
    .stop (.failed fcgxUnsupportedVersion)
  else if header.type = fcgiBeginRequest then
    beginVerdict channel skip header body
  else if header.requestId = fcgiNullRequestId then
    if header.type = fcgiGetValues then
      valuesVerdict skip header body
    else
      throughRecord skip header body [unknownTypeRecord header.type]
  else if header.requestId ≠ channel.requestId then
    throughRecord true header body []
  else if header.type ≠ channel.type then
    .stop (.failed fcgxProtocolError)
  else if header.contentLength = 0 then
    .stop (.eof body)
  else
    throughRecord skip header body []

/-- The number of bytes of the record with this header. -/
def FCGIHeader.size (header : FCGIHeader) : Nat :=
  fcgiHeaderLen + (header.contentLength + header.paddingLength.toNat)

/-- What the bytes carry for a channel, from the front of a record on. -/
def demultiplex (channel : Channel) (skip : Bool) (input : List UInt8) : Option Carried :=
  if _short : input.length < fcgiHeaderLen then
    some (Carried.atEnd .starved)
  else
    match verdict channel skip (FCGIHeader.ofBytes input) (input.drop fcgiHeaderLen) with
    | .stop ending => some (Carried.atEnd ending)
    | .fault => none
    | .goOn skip content reply =>
        (demultiplex channel skip (input.drop (FCGIHeader.ofBytes input).size)).map
          (Carried.behind content reply)
  termination_by input.length
  decreasing_by
    rw [List.length_drop, FCGIHeader.size]
    have positive : 0 < fcgiHeaderLen := by decide
    omega

/-- The same from within a record of which content and padding are to come. -/
def demultiplexFrom (channel : Channel) (skip : Bool) (contentLen paddingLen : Nat)
    (input : List UInt8) : Option Carried :=
  (demultiplex channel (skip && contentLen == 0) (input.drop (contentLen + paddingLen))).map
    (Carried.behind (if skip then [] else input.take contentLen) [])

section Lemmas

variable {channel : Channel} {skip : Bool} {input : List UInt8} {contentLen paddingLen : Nat}
  {carried : Carried}

@[simp]
theorem Carried.behind_nil (carried : Carried) : carried.behind [] [] = carried :=
  rfl

theorem map_behind_nil (result : Option Carried) :
    result.map (Carried.behind [] []) = result := by
  have unchanged : Carried.behind [] [] = id := funext fun _ => rfl
  rw [unchanged, Option.map_id, id]

theorem demultiplex_of_short (short : input.length < fcgiHeaderLen) :
    demultiplex channel skip input = some (Carried.atEnd .starved) := by
  rw [demultiplex, dif_pos short]

theorem demultiplexFrom_zero :
    demultiplexFrom channel skip 0 0 input = demultiplex channel skip input := by
  simp [demultiplexFrom, map_behind_nil]

/-- Taking a part of the content. -/
theorem demultiplexFrom_drop {count : Nat} (within : count ≤ contentLen)
    (inside : count ≤ input.length)
    (carriedEq : demultiplexFrom channel false contentLen paddingLen input = some carried) :
    demultiplexFrom channel false (contentLen - count) paddingLen (input.drop count) =
      some { carried with content := carried.content.drop count } := by
  obtain ⟨later, laterEq, rfl⟩ := Option.map_eq_some_iff.mp carriedEq
  have behindEq : count + (contentLen - count + paddingLen) = contentLen + paddingLen := by
    omega
  rw [demultiplexFrom, List.drop_drop, behindEq, Bool.false_and, ← Bool.false_and, laterEq,
    Option.map_some]
  simp [Carried.behind, List.drop_append_of_le_length, List.drop_take, within, inside]

/-- The first byte of content is handed out as it is. -/
theorem demultiplexFrom_replace {first c b : UInt8} {data : List UInt8}
    (carriedEq : demultiplexFrom channel false (contentLen + 1) paddingLen (first :: input) =
      some carried) (contentEq : carried.content = b :: data) :
    demultiplexFrom channel false (contentLen + 1) paddingLen (c :: input) =
      some { carried with content := c :: data } := by
  obtain ⟨later, laterEq, rfl⟩ := Option.map_eq_some_iff.mp carriedEq
  have behind : contentLen + 1 + paddingLen = contentLen + paddingLen + 1 := by
    omega
  rw [behind, List.drop_succ_cons] at laterEq
  simp only [Carried.behind, Bool.false_eq_true, if_false, List.take_succ_cons, List.cons_append,
    List.cons.injEq] at contentEq
  rw [demultiplexFrom, behind, List.drop_succ_cons, laterEq, Option.map_some]
  simp [Carried.behind, contentEq.2]

/-- The content that comes first. -/
theorem take_isPrefix_of_demultiplexFrom
    (carriedEq : demultiplexFrom channel false contentLen paddingLen input = some carried) :
    input.take contentLen <+: carried.content := by
  obtain ⟨later, -, rfl⟩ := Option.map_eq_some_iff.mp carriedEq
  exact List.prefix_append _ _

/-- A verdict that begins a request only outside of one, and hands out content
of its record only. -/
def Sensible (channel : Channel) (header : FCGIHeader) (body : List UInt8) : Verdict → Prop
  | .stop ending => channel.isBegun = true → ∀ requestId begun left,
      ending ≠ .begun requestId begun left
  | .goOn _ content _ => content.length ≤ (body.take header.contentLength).length
  | .fault => True

variable {header : FCGIHeader} {body : List UInt8}

theorem sensible_failed (errno : Int) : Sensible channel header body (.stop (.failed errno)) :=
  fun _ _ _ _ same => by cases same

theorem sensible_starved : Sensible channel header body (.stop .starved) :=
  fun _ _ _ _ same => by cases same

theorem sensible_throughRecord (skip : Bool) (reply : List Record) :
    Sensible channel header body (throughRecord skip header body reply) := by
  unfold throughRecord Sensible
  cases skip
  · exact Nat.le_refl _
  · exact Nat.zero_le _

theorem sensible_valuesVerdict (skip : Bool) :
    Sensible channel header body (valuesVerdict skip header body) := by
  unfold valuesVerdict
  generalize pairFormat.cut (if skip then [] else body.take header.contentLength) = cut
  dsimp only
  split
  · exact trivial
  · split
    · exact sensible_starved
    · split
      · exact sensible_failed _
      · cases Reader.valuesResponse (cut.1.map NameValue.entry) with
        | none => exact trivial
        | some response => exact Nat.zero_le _

theorem sensible_beginVerdict (channel : Channel) (skip : Bool) :
    Sensible channel header body (beginVerdict channel skip header body) := by
  unfold beginVerdict
  split
  · exact sensible_failed _
  · split
    · exact sensible_throughRecord true _
    · rename_i notBegun
      split
      · split
        · exact sensible_failed _
        · exact sensible_starved
      · split
        · exact sensible_starved
        · exact fun isBegun => absurd isBegun notBegun

theorem sensible_verdict (channel : Channel) (skip : Bool) (header : FCGIHeader)
    (body : List UInt8) : Sensible channel header body (verdict channel skip header body) := by
  unfold verdict
  split
  · exact sensible_failed _
  · split
    · exact sensible_beginVerdict channel skip
    · split
      · split
        · exact sensible_valuesVerdict skip
        · exact sensible_throughRecord skip _
      · split
        · exact sensible_throughRecord true _
        · split
          · exact sensible_failed _
          · split
            · exact fun _ _ _ _ same => by cases same
            · exact sensible_throughRecord skip _

/-- Inside a request no record begins another one. -/
theorem not_begun_of_demultiplex (isBegun : channel.isBegun = true)
    (carriedEq : demultiplex channel skip input = some carried) (requestId : Nat)
    (begun : FCGIBeginRequestBody) (left : List UInt8) :
    carried.ending ≠ .begun requestId begun left := by
  induction skip, input using demultiplex.induct channel generalizing carried with
  | case1 skip input short =>
      rw [demultiplex_of_short short] at carriedEq
      cases carriedEq
      exact fun same => by cases same
  | case2 skip input long ending verdictEq =>
      rw [demultiplex, dif_neg long, verdictEq] at carriedEq
      cases carriedEq
      have sensible := sensible_verdict channel skip (FCGIHeader.ofBytes input)
        (input.drop fcgiHeaderLen)
      rw [verdictEq] at sensible
      exact sensible isBegun requestId begun left
  | case3 skip input long verdictEq =>
      rw [demultiplex, dif_neg long, verdictEq] at carriedEq
      contradiction
  | case4 skip input long later content reply verdictEq inductionHypothesis =>
      rw [demultiplex, dif_neg long, verdictEq] at carriedEq
      obtain ⟨rest, restEq, rfl⟩ := Option.map_eq_some_iff.mp carriedEq
      have notBegun := inductionHypothesis restEq
      exact notBegun

/-- The content is part of the bytes. -/
theorem length_content_le (carriedEq : demultiplex channel skip input = some carried) :
    carried.content.length ≤ input.length := by
  induction skip, input using demultiplex.induct channel generalizing carried with
  | case1 skip input short =>
      rw [demultiplex_of_short short] at carriedEq
      cases carriedEq
      exact Nat.zero_le _
  | case2 skip input long ending verdictEq =>
      rw [demultiplex, dif_neg long, verdictEq] at carriedEq
      cases carriedEq
      exact Nat.zero_le _
  | case3 skip input long verdictEq =>
      rw [demultiplex, dif_neg long, verdictEq] at carriedEq
      contradiction
  | case4 skip input long later content reply verdictEq inductionHypothesis =>
      rw [demultiplex, dif_neg long, verdictEq] at carriedEq
      obtain ⟨rest, restEq, rfl⟩ := Option.map_eq_some_iff.mp carriedEq
      have restLe := inductionHypothesis restEq
      have sensible := sensible_verdict channel skip (FCGIHeader.ofBytes input)
        (input.drop fcgiHeaderLen)
      rw [verdictEq] at sensible
      have contentLe : content.length ≤ _ := sensible
      rw [List.length_drop, FCGIHeader.size] at restLe
      rw [List.length_take, List.length_drop] at contentLe
      change (content ++ rest.content).length ≤ input.length
      rw [List.length_append]
      omega

theorem length_content_from_le
    (carriedEq : demultiplexFrom channel skip contentLen paddingLen input = some carried) :
    carried.content.length ≤ input.length := by
  obtain ⟨later, laterEq, rfl⟩ := Option.map_eq_some_iff.mp carriedEq
  have laterLe := length_content_le laterEq
  rw [List.length_drop] at laterLe
  change ((if skip then [] else input.take contentLen) ++ later.content).length ≤ input.length
  cases skip
  · rw [List.length_append, if_neg Bool.false_ne_true, List.length_take]
    omega
  · rw [List.length_append, if_pos rfl, List.length_nil]
    omega

end Lemmas

end NginxFastcgi.Fcgi
