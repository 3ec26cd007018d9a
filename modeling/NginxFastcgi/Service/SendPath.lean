import Mathlib.Algebra.Group.Action.Defs
import Mathlib.Algebra.Order.BigOperators.Group.List
import NginxFastcgi.Foundation.Transition
import NginxFastcgi.Network.Connection
import NginxFastcgi.Service.ResponsePacket
import NginxFastcgi.Service.TcpConnection

/-!
# The send path of a connection

Responses are appended to the send buffers and `OutputNotify` hands up to 128
nodes to one `writev`, which may take any part of them.  The bytes the kernel
took, followed by those still held, are the encodings of the responses in
order.
-/

namespace NginxFastcgi.Service.SendPath

open Foundation.Transition
open NginxFastcgi.Network

structure State where
  connection : CConnection
  /-- The bytes `writev` took so far. -/
  accepted : List UInt8
  /-- The encodings of all responses so far. -/
  sent : List UInt8

inductive Call
  | sendPacket (packet : CResponsePacket)
  | outputNotify (writev : WritevResult)

/-- A fresh connection that a pool polls. -/
def initial (fd : Int) (pool : PoolId) : State where
  connection := { CConnection.new fd with toCPollUnit := (CConnection.new fd).attachedTo pool }
  accepted := []
  sent := []

def step : Step State Call
  | state, .sendPacket packet =>
      some
        { state with
          connection := (state.connection.sendPacket packet).1
          sent := state.sent ++ packet.encoding }
  | state, .outputNotify writev =>
      (state.connection.outputNotify writev).bind fun
        | .alive connection written =>
            some { state with connection := connection, accepted := state.accepted ++ written }
        | .destroyed => none

/-- A response has its body in memory, and `writev` takes between one byte and
all that is offered, takes nothing, or is to be retried. -/
def allowed (state : State) : Call → Prop
  | .sendPacket packet => packet.Valid
  | .outputNotify (.accepted count) =>
      0 < state.connection.iovLength → 1 ≤ count ∧ count ≤ state.connection.iovLength
  | .outputNotify .zero => True
  | .outputNotify .retry => True
  | .outputNotify .error => False

/-- The stream is complete, and the nodes are small enough for one `writev`. -/
structure Faithful (state : State) : Prop where
  nodes_valid : ∀ node ∈ state.connection.mSendBuffers.nodes,
    node.Valid ∧ node.dataLength ≤ 2 ^ 32
  attached : state.connection.mOwner.isSome
  stream : state.accepted ++ state.connection.mSendBuffers.bytes = state.sent

theorem initial_faithful (fd : Int) (pool : PoolId) : Faithful (initial fd pool) :=
  ⟨by simp [initial, CConnection.new, CBuffers.new], rfl, rfl⟩

/-! ## One gathered write -/

section Gathered

variable {connection : CConnection}
  (valid : ∀ node ∈ connection.mSendBuffers.nodes, node.Valid ∧ node.dataLength ≤ 2 ^ 32)
include valid

theorem length_offered : connection.offered.length = connection.iovLength :=
  CBuffers.length_flatten _ fun node member => (valid node (List.mem_of_mem_take member)).1

/-- 128 nodes of at most `2 ^ 32` bytes are offered at most. -/
theorem iovLength_le : connection.iovLength ≤ 2 ^ 39 := by
  have small : ∀ length ∈ connection.gathered.map CBuffer.dataLength, length ≤ 2 ^ 32 := by
    intro length member
    obtain ⟨node, gathered, rfl⟩ := List.mem_map.mp member
    exact (valid node (List.mem_of_mem_take gathered)).2
  have total := List.sum_le_card_nsmul _ _ small
  have few : connection.gathered.length ≤ 128 := List.length_take_le _ _
  rw [List.length_map, smul_eq_mul] at total
  rw [CConnection.iovLength]
  omega

/-- What the kernel took is a prefix of the bytes held. -/
theorem take_offered {count : Nat} (within : count ≤ connection.iovLength) :
    connection.offered.take count = connection.mSendBuffers.bytes.take count := by
  have split : connection.mSendBuffers.bytes =
      connection.offered ++
        CBuffers.flatten (connection.mSendBuffers.nodes.drop kDefaultIOVCount) := by
    rw [CConnection.offered, CConnection.gathered, ← CBuffers.flatten_append,
      List.take_append_drop, CBuffers.bytes]
  rw [split, List.take_append_of_le_length (by rw [length_offered valid]; exact within)]

end Gathered

/-! ## Steps and runs -/

theorem sendPacket_faithful {state : State} (faithful : Faithful state)
    {packet : CResponsePacket} (valid : packet.Valid) :
    Faithful
      { state with
        connection := (state.connection.sendPacket packet).1
        sent := state.sent ++ packet.encoding } := by
  obtain ⟨buffersEq, ownerEq⟩ := CConnection.sendPacket_spec state.connection packet
  refine ⟨?_, ?_, ?_⟩
  · rw [buffersEq]
    exact CResponsePacket.nodes_valid_encode valid faithful.nodes_valid
  · rw [ownerEq]
    exact faithful.attached
  · rw [buffersEq, ← faithful.stream, List.append_assoc]
    exact congrArg _ (CResponsePacket.bytes_encode valid _)

/-- `OutputNotify` keeps the connection, and moves bytes from its nodes to the
kernel. -/
theorem outputNotify_spec {state : State} (faithful : Faithful state) {writev : WritevResult}
    (permitted : allowed state (.outputNotify writev)) :
    ∃ after written, state.connection.outputNotify writev = some (.alive after written) ∧
      Faithful { state with connection := after, accepted := state.accepted ++ written } := by
  have valid := faithful.nodes_valid
  have unchanged : Faithful { state with accepted := state.accepted ++ [] } := by
    rw [List.append_nil]
    exact faithful
  unfold CConnection.outputNotify
  split
  · rename_i offers
    cases writev with
    | accepted count =>
        obtain ⟨positive, within⟩ := permitted offers
        have bounded := iovLength_le valid
        have noWrap : CBuffers.NoWrap 0 count state.connection.mSendBuffers.nodes :=
          Or.inr (by omega)
        obtain ⟨leftValid, left, -⟩ := CBuffers.eraseFront_spec
          (fun node member => (valid node member).1) noWrap
        have leftSmall := CBuffers.dataLength_le_of_mem_eraseFront
          (fun node member => (valid node member).1)
          (fun node member => (valid node member).2) count
        obtain ⟨after, finished, buffersEq, ownerEq⟩ := CConnection.finishOutput_spec
          { state.connection with
            mSendBuffers := (state.connection.mSendBuffers.eraseFront count).1 }
          faithful.attached (state.connection.offered.take count)
        refine ⟨after, _, finished, ?_, ?_, ?_⟩
        · rw [buffersEq]
          exact fun node member => ⟨leftValid node member, leftSmall node member⟩
        · rw [ownerEq]
          exact faithful.attached
        · change (state.accepted ++ _) ++ after.mSendBuffers.bytes = state.sent
          rw [buffersEq, left, take_offered valid within, List.append_assoc,
            List.take_append_drop]
          exact faithful.stream
    | zero => exact ⟨state.connection, [], rfl, unchanged⟩
    | retry => exact ⟨state.connection, [], rfl, unchanged⟩
    | error => exact permitted.elim
  · obtain ⟨after, finished, buffersEq, ownerEq⟩ :=
      state.connection.finishOutput_spec faithful.attached []
    refine ⟨after, [], finished, ?_, ?_, ?_⟩
    · rw [buffersEq]
      exact valid
    · rw [ownerEq]
      exact faithful.attached
    · change (state.accepted ++ []) ++ after.mSendBuffers.bytes = state.sent
      rw [buffersEq, List.append_nil]
      exact faithful.stream

theorem step_faithful {state after : State} {call : Call} (faithful : Faithful state)
    (permitted : allowed state call) (stepEq : step state call = some after) :
    Faithful after := by
  cases call with
  | sendPacket packet =>
      cases stepEq
      exact sendPacket_faithful faithful permitted
  | outputNotify writev =>
      obtain ⟨connection, written, notified, afterFaithful⟩ :=
        outputNotify_spec faithful permitted
      rw [step, notified] at stepEq
      cases stepEq
      exact afterFaithful

theorem step_isSome {state : State} {call : Call} (faithful : Faithful state)
    (permitted : allowed state call) : (step state call).isSome := by
  cases call with
  | sendPacket packet => rfl
  | outputNotify writev =>
      obtain ⟨connection, written, notified, -⟩ := outputNotify_spec faithful permitted
      rw [step, notified]
      rfl

theorem faithful_of_reachable {fd : Int} {pool : PoolId} {state : State}
    (reachable : Reachable step allowed (initial fd pool) state) : Faithful state := by
  refine reachable.invariant (initial_faithful fd pool) ?_
  intro before call after faithful permitted stepEq
  exact step_faithful faithful permitted stepEq

/-- The bytes the kernel took and the bytes still held are the encodings of all
responses in order, and no permitted call fails. -/
theorem accepted_append_held {fd : Int} {pool : PoolId} {state : State}
    (reachable : Reachable step allowed (initial fd pool) state) :
    state.accepted ++ state.connection.mSendBuffers.bytes = state.sent ∧
      ∀ call, allowed state call → (step state call).isSome := by
  have faithful := faithful_of_reachable reachable
  exact ⟨faithful.stream, fun _ permitted => step_isSome faithful permitted⟩

def threeBytes : CResponsePacket :=
  ⟨⟨kProtocolMagic, CmdType.CT_A.value, htonl 3⟩, some [1, 2, 3]⟩

def noBytes : CResponsePacket :=
  ⟨⟨kProtocolMagic, CmdType.CT_B.value, 0⟩, none⟩

/-- Two responses after a write that ended inside the body of the first. -/
def partlyWritten : State :=
  let connection := (((initial 5 0).connection.sendPacket threeBytes).1.sendPacket noBytes).1
  { connection :=
      { connection with mSendBuffers := (connection.mSendBuffers.eraseFront 9).1 }
    accepted := connection.offered.take 9
    sent := threeBytes.encoding ++ noBytes.encoding }

theorem partlyWritten_reachable : Reachable step allowed (initial 5 0) partlyWritten := by
  have threeValid : threeBytes.Valid := by decide
  have noneValid : noBytes.Valid := by decide
  have first : Reachable step allowed (initial 5 0)
      { initial 5 0 with
        connection := ((initial 5 0).connection.sendPacket threeBytes).1
        sent := threeBytes.encoding } :=
    Reachable.refl.tail (.sendPacket threeBytes) threeValid rfl
  have second := first.tail (.sendPacket noBytes) noneValid rfl
  exact second.tail (.outputNotify (.accepted 9)) (fun _ => by decide) rfl

theorem partlyWritten_stream :
    partlyWritten.accepted ++ partlyWritten.connection.mSendBuffers.bytes =
      threeBytes.encoding ++ noBytes.encoding :=
  (accepted_append_held partlyWritten_reachable).1

end NginxFastcgi.Service.SendPath
