import NginxFastcgi.Service.Delivery

/-!
# Malformed headers in the receive buffers

A connection answers reads until one of them destroys it.  `Decode` reports the
size of the requests it cut off or a malformed header, but not both: a header
that is completed behind a request in the same read stays in the buffers.
-/

namespace NginxFastcgi.Service.Rejection

open Foundation.Framing
open Foundation.Transition
open NginxFastcgi.Network
open CTcpConnection

/-- One `InputNotify`, up to the packets it passes on; `none` is a destroyed
connection. -/
def step : Step (Option CConnection) ReadResult
  | none, _ => none
  | some connection, read =>
      (connection.inputNotify decode read).map fun
        | .alive after _ => some after
        | .destroyed => none

/-- A read returns at least one byte and no more than fit, or it returns none. -/
def Answered : ReadResult → Prop
  | .data chunk => Readable chunk
  | _ => True

/-- A live connection holds no complete header that `DecodeHeader` rejects. -/
def NoneMalformed (state : Option CConnection) : Prop :=
  ∀ connection, state = some connection →
    ¬ (ProtocolHeader.size ≤ connection.mRecvBuffers.bytes.length ∧
      (CRequestPacket.wireHeader connection.mRecvBuffers.bytes).Rejected)

/-- Complete requests, at least one, stand in front of a malformed header. -/
def MalformedBehind (input : List UInt8) : Prop :=
  ∃ items rest, requestFormat.Parses input items rest ∧ items ≠ [] ∧
    nextFrame rest = .malformed

/-- A read does not complete a malformed header behind complete requests. -/
def ClosesAtOnce : Option CConnection → ReadResult → Prop
  | some connection, .data chunk =>
      ¬ MalformedBehind (connection.mRecvBuffers.bytes ++ chunk)
  | _, _ => True

/-- What a live connection keeps between reads. -/
def Kept (state : Option CConnection) : Prop :=
  ∀ connection, state = some connection → Pending connection.mRecvBuffers

theorem noneMalformed_iff {connection : CConnection} :
    NoneMalformed (some connection) ↔
      nextFrame connection.mRecvBuffers.bytes ≠ .malformed := by
  constructor
  · intro clean malformed
    exact clean connection rfl (nextFrame_eq_malformed.mp malformed)
  · rintro clean other same malformed
    cases same
    exact clean (nextFrame_eq_malformed.mpr malformed)

theorem noneMalformed_none : NoneMalformed none := by
  intro connection same
  cases same

theorem kept_none : Kept none := by
  intro connection same
  cases same

theorem kept_some {connection : CConnection} (pending : Pending connection.mRecvBuffers) :
    Kept (some connection) := by
  intro other same
  cases same
  exact pending

/-- A read with data leaves no malformed header exactly when it does not
complete one behind requests. -/
theorem step_data {connection : CConnection} (pending : Pending connection.mRecvBuffers)
    {chunk : List UInt8} (readable : Readable chunk) {after : Option CConnection}
    (stepEq : step (some connection) (.data chunk) = some after) :
    Kept after ∧ (NoneMalformed after ↔
      ¬ MalformedBehind (connection.mRecvBuffers.bytes ++ chunk)) := by
  rcases inputNotify_cases pending readable with
    ⟨next, packets, notified, parses, nextPending, noRefusal⟩ | ⟨notified, malformed⟩
  · rw [step, notified] at stepEq
    cases stepEq
    refine ⟨kept_some nextPending, ?_⟩
    rw [noneMalformed_iff]
    constructor
    · rintro clean ⟨items, rest, otherParses, -, malformed⟩
      obtain ⟨-, restEq⟩ := parses.unique otherParses
      rw [restEq] at clean
      exact clean malformed
    · intro notBehind malformed
      have some_packets : packets ≠ [] := fun nothing => noRefusal ⟨nothing, malformed⟩
      exact notBehind ⟨packets, _, parses, some_packets, malformed⟩
  · rw [step, notified] at stepEq
    cases stepEq
    refine ⟨kept_none, iff_of_true noneMalformed_none ?_⟩
    rintro ⟨items, rest, parses, some_items, -⟩
    have stuck : requestFormat.Stuck _ := Format.stuck_of_malformed malformed
    exact some_items (parses.unique (.stop stuck)).1

theorem step_exact {state after : Option CConnection} {read : ReadResult} (kept : Kept state)
    (clean : NoneMalformed state) (answered : Answered read)
    (stepEq : step state read = some after) :
    Kept after ∧ (NoneMalformed after ↔ ClosesAtOnce state read) := by
  cases state with
  | none => cases stepEq
  | some connection =>
      cases read with
      | data chunk => exact step_data (kept connection rfl) answered stepEq
      | eof =>
          cases stepEq
          exact ⟨kept_none, iff_of_true noneMalformed_none trivial⟩
      | retry =>
          cases stepEq
          exact ⟨kept, iff_of_true clean trivial⟩
      | error =>
          cases stepEq
          exact ⟨kept_none, iff_of_true noneMalformed_none trivial⟩

/-- No malformed header is left pending by any of the reads exactly when none of
them completes one behind requests. -/
theorem noneMalformed_iff_closesAtOnce (fd : Int) {reads : List ReadResult}
    (answered : ∀ read ∈ reads, Answered read) :
    Always step NoneMalformed reads (some (CConnection.new fd)) ↔
      EachStep step ClosesAtOnce reads (some (CConnection.new fd)) := by
  have permitted : EachStep step (fun _ read => Answered read) reads
      (some (CConnection.new fd)) :=
    EachStep.of_forall (fun read member _ => answered read member) _
  refine always_iff_eachStep (fun state read after kept clean answered stepEq =>
    step_exact kept clean answered stepEq) (kept_some pending_new) ?_ permitted
  exact noneMalformed_iff.mpr (by decide : nextFrame [] ≠ .malformed)

/-- A malformed header alone closes the connection. -/
theorem malformed_alone :
    Always step NoneMalformed [.data [0, 0, 0, 0, 0, 0, 0, 0]] (some (CConnection.new 5)) := by
  refine (noneMalformed_iff_closesAtOnce 5 ?_).mpr ?_
  · intro read member
    rw [List.mem_singleton.mp member]
    exact (by decide : Readable [0, 0, 0, 0, 0, 0, 0, 0])
  · rintro after -
    refine ⟨?_, trivial⟩
    rintro ⟨items, rest, parses, some_items, -⟩
    have front : requestFormat.next [0, 0, 0, 0, 0, 0, 0, 0] = .malformed := by decide
    cases parses with
    | stop _ => exact some_items rfl
    | frame nextEq _ =>
        cases front.symm.trans nextEq

/-- A request of one byte and a malformed header arrive in one read. -/
def requestAndMalformed : List UInt8 :=
  [0xFD, 0xFC, 0, 1, 0, 0, 0, 1, 0x61] ++ [0, 0, 0, 0, 0, 0, 0, 0]

/-- The request is delivered and the malformed header stays. -/
theorem malformed_left_pending :
    Readable requestAndMalformed ∧
      ¬ Always step NoneMalformed [.data requestAndMalformed] (some (CConnection.new 5)) := by
  refine ⟨by decide, fun always => ?_⟩
  have executed : (execute step [.data requestAndMalformed] (some (CConnection.new 5))).map
      (fun state => state.map fun connection => connection.mRecvBuffers.bytes) =
        some (some [0, 0, 0, 0, 0, 0, 0, 0]) := by
    decide +kernel
  obtain ⟨state, runs, observed⟩ := Option.map_eq_some_iff.mp executed
  obtain ⟨connection, rfl, bytesEq⟩ := Option.map_eq_some_iff.mp observed
  have clean := always.after runs connection rfl
  rw [bytesEq] at clean
  exact clean (by decide)

end NginxFastcgi.Service.Rejection
