import NginxFastcgi.Network.Buffers
import NginxFastcgi.Network.PollUnit

/-!
# `CConnection`, one TCP connection

A connection keeps what it received and could not decode yet, and what it
still has to send.  `Decode` and the packet types belong to subclasses: the
decoder is a parameter here and a packet is anything with an `Encode`.  A
handler may end in `delete this`.

The addresses of the two ends are only logged and are left out.
-/

namespace NginxFastcgi.Network

universe u

def kDefaultIOVCount : Nat := 128

/-- The identity of a `CListener` object. -/
abbrev ListenerId := Nat

/-- The virtual `Encode` of a packet: the buffers afterwards, and the result. -/
class CPacket (P : Type u) where
  encode : P → CBuffers → CBuffers × Int

structure CConnection extends CPollUnit where
  /-- `none` is `NULL`. -/
  mListener : Option ListenerId := none
  mRecvBuffers : CBuffers := CBuffers.new
  mSendBuffers : CBuffers := CBuffers.new
  deriving DecidableEq

/-- What one `read` returns. -/
inductive ReadResult
  /-- A positive count, with the bytes. -/
  | data (bytes : List UInt8)
  | eof
  /-- `EINTR`, `EAGAIN`, `EINPROGRESS` or `EWOULDBLOCK`. -/
  | retry
  | error
  deriving DecidableEq

/-- What one `writev` returns. -/
inductive WritevResult
  /-- A positive count. -/
  | accepted (count : Nat)
  | zero
  /-- `EINTR`, `EAGAIN`, `EINPROGRESS` or `EWOULDBLOCK`. -/
  | retry
  | error
  deriving DecidableEq

/-- How `InputNotify` ends: with the packets it passed to `OnPacket`, or in
`delete this`. -/
inductive InputOutcome (P : Type u)
  | alive (connection : CConnection) (packets : List P)
  | destroyed

/-- How `OutputNotify` ends: with the bytes the kernel took, or in
`delete this`. -/
inductive OutputOutcome
  | alive (connection : CConnection) (written : List UInt8)
  | destroyed

namespace CConnection

/-- The constructor `CConnection(fd)`. -/
def new (fd : Int) : CConnection where
  toCPollUnit := { CPollUnit.enableInput {} with mFd := fd }

/-- The connection afterwards, and the return value of `SendPacket`. -/
def sendPacket {P : Type u} [CPacket P] (connection : CConnection) (packet : P) :
    CConnection × Int :=
  let encoded := CPacket.encode packet connection.mSendBuffers
  let connection := { connection with mSendBuffers := encoded.1 }
  match connection.enableOutput.modifyEvent with
  | some unit => ({ connection with toCPollUnit := unit }, encoded.2)
  | none => (connection, encoded.2)

/-- `InputNotify` with one `read`.  The result `none` means that `Decode` does
not return. -/
def inputNotify {P : Type u} (decode : CBuffers → Option (Int × List P))
    (connection : CConnection) : ReadResult → Option (InputOutcome P)
  | .data bytes =>
      let oneBuffer := (CBuffer.new bytes.length).setData bytes bytes.length
      let received := connection.mRecvBuffers.pushBack (some oneBuffer)
      (decode received).map fun decoded =>
        if decoded.1 > 0 then
          .alive
            { connection with mRecvBuffers := (received.eraseFront decoded.1.toNat).1 }
            decoded.2
        else if decoded.1 < 0 then
          .destroyed
        else
          .alive { connection with mRecvBuffers := received } []
  | .eof => some .destroyed
  | .retry => some (.alive connection [])
  | .error => some .destroyed

/-- The nodes that one `writev` gathers. -/
def gathered (connection : CConnection) : List CBuffer :=
  connection.mSendBuffers.nodes.take kDefaultIOVCount

/-- The total length of the gathered vectors. -/
def iovLength (connection : CConnection) : Nat :=
  (connection.gathered.map CBuffer.dataLength).sum

/-- The bytes offered to one `writev`. -/
def offered (connection : CConnection) : List UInt8 :=
  CBuffers.flatten connection.gathered

/-- The end of `OutputNotify`, which stops asking for output when no node is
left. -/
def finishOutput (connection : CConnection) (written : List UInt8) : Option OutputOutcome :=
  if connection.mSendBuffers.nodes.isEmpty then
    connection.disableOutput.modifyEvent.map fun unit =>
      .alive { connection with toCPollUnit := unit } written
  else
    some (.alive connection written)

/-- `OutputNotify`; the answer of `writev` counts only when it is called.  The
result `none` is a call through a null owner. -/
def outputNotify (connection : CConnection) (writev : WritevResult) : Option OutputOutcome :=
  if connection.iovLength > 0 then
    match writev with
    | .accepted count =>
        finishOutput
          { connection with mSendBuffers := (connection.mSendBuffers.eraseFront count).1 }
          (connection.offered.take count)
    | .zero => some (.alive connection [])
    | .retry => some (.alive connection [])
    | .error => some .destroyed
  else
    connection.finishOutput []

/-- Sending appends the encoding and leaves the pool as it was. -/
theorem sendPacket_spec {P : Type u} [CPacket P] (connection : CConnection) (packet : P) :
    (connection.sendPacket packet).1.mSendBuffers =
        (CPacket.encode packet connection.mSendBuffers).1 ∧
      (connection.sendPacket packet).1.mOwner = connection.mOwner := by
  unfold sendPacket CPollUnit.modifyEvent
  cases owner : connection.mOwner with
  | none =>
      simp only [CPollUnit.enableOutput, owner, Option.map_none]
      exact ⟨trivial, trivial⟩
  | some pool =>
      simp only [CPollUnit.enableOutput, owner, Option.map_some]
      exact ⟨trivial, trivial⟩

/-- With an owner the end of `OutputNotify` only changes the events. -/
theorem finishOutput_spec (connection : CConnection) (attached : connection.mOwner.isSome)
    (written : List UInt8) :
    ∃ after, connection.finishOutput written = some (.alive after written) ∧
      after.mSendBuffers = connection.mSendBuffers ∧ after.mOwner = connection.mOwner := by
  obtain ⟨pool, owner⟩ := Option.isSome_iff_exists.mp attached
  unfold finishOutput
  split
  · have disabled : connection.disableOutput.mOwner = some pool := owner
    rw [CPollUnit.modifyEvent_of_owner disabled]
    exact ⟨_, rfl, rfl, rfl⟩
  · exact ⟨connection, rfl, rfl, rfl⟩

/-- Sending asks the pool for output. -/
theorem registered_sendPacket {P : Type u} [CPacket P] {connection : CConnection}
    (attached : connection.mOwner.isSome) (packet : P) :
    (connection.sendPacket packet).1.registered.epollout = true := by
  obtain ⟨pool, owner⟩ := Option.isSome_iff_exists.mp attached
  simp only [sendPacket, CPollUnit.enableOutput, CPollUnit.modifyEvent, owner, Option.map_some]

/-- The end of `OutputNotify` stops asking for output when no node is left. -/
theorem registered_finishOutput {connection after : CConnection} {written rest : List UInt8}
    (finished : connection.finishOutput written = some (.alive after rest)) :
    after.registered.epollout =
      if connection.mSendBuffers.nodes.isEmpty then false else connection.registered.epollout := by
  unfold finishOutput at finished
  split at finished
  · rename_i nothing
    obtain ⟨unit, modified, outcome⟩ := Option.map_eq_some_iff.mp finished
    obtain ⟨pool, -, rfl⟩ := Option.map_eq_some_iff.mp modified
    cases outcome
    rw [if_pos nothing]
    rfl
  · rename_i something
    cases finished
    rw [if_neg something]

/-- What the registries know of a connection stays the same. -/
structure Keeps (before after : CConnection) : Prop where
  fd : after.mFd = before.mFd
  owner : after.mOwner = before.mOwner
  listener : after.mListener = before.mListener

theorem keeps_sendPacket {P : Type u} [CPacket P] (connection : CConnection) (packet : P) :
    connection.Keeps (connection.sendPacket packet).1 := by
  unfold sendPacket CPollUnit.modifyEvent
  cases owner : connection.mOwner <;>
    simp only [CPollUnit.enableOutput, owner, Option.map_none, Option.map_some] <;>
    exact ⟨rfl, by simp only [owner], rfl⟩

theorem keeps_inputNotify {P : Type u} {decode : CBuffers → Option (Int × List P)}
    {connection after : CConnection} {read : ReadResult} {packets : List P}
    (notified : connection.inputNotify decode read = some (.alive after packets)) :
    connection.Keeps after := by
  cases read with
  | data bytes =>
      obtain ⟨decoded, -, outcome⟩ := Option.map_eq_some_iff.mp notified
      split at outcome
      · cases outcome
        exact ⟨rfl, rfl, rfl⟩
      · split at outcome
        · cases outcome
        · cases outcome
          exact ⟨rfl, rfl, rfl⟩
  | eof => cases notified
  | retry =>
      cases notified
      exact ⟨rfl, rfl, rfl⟩
  | error => cases notified

theorem keeps_finishOutput {connection after : CConnection} {written rest : List UInt8}
    (finished : connection.finishOutput written = some (.alive after rest)) :
    connection.Keeps after := by
  unfold finishOutput at finished
  split at finished
  · obtain ⟨unit, modified, outcome⟩ := Option.map_eq_some_iff.mp finished
    obtain ⟨pool, -, rfl⟩ := Option.map_eq_some_iff.mp modified
    cases outcome
    exact ⟨rfl, rfl, rfl⟩
  · cases finished
    exact ⟨rfl, rfl, rfl⟩

theorem keeps_outputNotify {connection after : CConnection} {writev : WritevResult}
    {written : List UInt8}
    (notified : connection.outputNotify writev = some (.alive after written)) :
    connection.Keeps after := by
  unfold outputNotify at notified
  split at notified
  · cases writev with
    | accepted count =>
        have kept := keeps_finishOutput notified
        exact ⟨kept.fd, kept.owner, kept.listener⟩
    | zero =>
        cases notified
        exact ⟨rfl, rfl, rfl⟩
    | retry =>
        cases notified
        exact ⟨rfl, rfl, rfl⟩
    | error => cases notified
  · exact keeps_finishOutput notified

/-- An attached connection survives its `OutputNotify` unless it has something
to write and `writev` fails for good. -/
theorem outputNotify_destroyed_iff {connection : CConnection} (attached : connection.mOwner.isSome)
    (writev : WritevResult) :
    connection.outputNotify writev = some .destroyed ↔
      0 < connection.iovLength ∧ writev = .error := by
  have survives (kept : CConnection) (owner : kept.mOwner.isSome) (written : List UInt8) :
      kept.finishOutput written ≠ some .destroyed := by
    obtain ⟨after, finished, -⟩ := kept.finishOutput_spec owner written
    rw [finished]
    rintro ⟨⟩
  unfold outputNotify
  split
  · rename_i something
    cases writev with
    | accepted count =>
        let erased := { connection with
          mSendBuffers := (connection.mSendBuffers.eraseFront count).1 }
        exact ⟨fun destroyed => absurd destroyed (survives erased attached _),
          fun parts => by cases parts.2⟩
    | zero => exact ⟨fun destroyed => (by cases destroyed), fun parts => by cases parts.2⟩
    | retry => exact ⟨fun destroyed => (by cases destroyed), fun parts => by cases parts.2⟩
    | error => exact ⟨fun _ => ⟨something, rfl⟩, fun _ => rfl⟩
  · rename_i nothing
    exact ⟨fun destroyed => absurd destroyed (survives _ attached _),
      fun parts => absurd parts.1 nothing⟩

end CConnection

end NginxFastcgi.Network
