import NginxFastcgi.Network.Buffers
import NginxFastcgi.Service.WireFormat

/-!
# `CResponsePacket`, encoding one response

`encode` appends two nodes to a `CBuffers`: the header as it stands in memory
and the body.  It appends with `push_back` of the underlying list, so the byte
count of the `CBuffers` stays what it was.
-/

namespace NginxFastcgi.Service

open NginxFastcgi.Network

structure CResponsePacket where
  mHeader : ProtocolHeader := {}
  /-- The memory at the body pointer; `none` is `NULL`. -/
  mBody : Option (List UInt8) := none
  deriving DecidableEq

namespace CResponsePacket

/-- The body length that `Encode` reads out of the header. -/
def bodyLength (packet : CResponsePacket) : Nat :=
  (ntohl packet.mHeader.dataLength).toNat

def bodyMemory (packet : CResponsePacket) : List UInt8 :=
  packet.mBody.getD []

/-- The buffers afterwards, and the return value. -/
def encode (packet : CResponsePacket) (buffers : CBuffers) : CBuffers × Int :=
  let headerBuffer :=
    (CBuffer.new ProtocolHeader.size).setData packet.mHeader.toBytes ProtocolHeader.size
  let bodyBuffer := (CBuffer.new packet.bodyLength).setData packet.bodyMemory packet.bodyLength
  ({ buffers with nodes := buffers.nodes ++ [headerBuffer] ++ [bodyBuffer] },
    ProtocolHeader.size + packet.bodyLength)

/-- The body pointer has the announced number of bytes behind it. -/
def Valid (packet : CResponsePacket) : Prop :=
  packet.bodyLength ≤ packet.bodyMemory.length

instance (packet : CResponsePacket) : Decidable packet.Valid :=
  inferInstanceAs (Decidable (_ ≤ _))

/-- The bytes of a response: the header in memory and the body. -/
def encoding (packet : CResponsePacket) : List UInt8 :=
  packet.mHeader.toBytes ++ packet.bodyMemory.take packet.bodyLength

theorem bodyLength_lt (packet : CResponsePacket) : packet.bodyLength < 2 ^ 32 :=
  (ntohl packet.mHeader.dataLength).toNat_lt

/-- `Encode` appends well-formed nodes that hold the encoding. -/
theorem encode_spec {packet : CResponsePacket} (valid : packet.Valid) (buffers : CBuffers) :
    ∃ added, (packet.encode buffers).1.nodes = buffers.nodes ++ added ∧
      (∀ node ∈ added, node.Valid ∧ node.dataLength ≤ 2 ^ 32) ∧
      CBuffers.flatten added = packet.encoding := by
  have headerFits : ProtocolHeader.size ≤ packet.mHeader.toBytes.length :=
    Nat.le_of_eq packet.mHeader.length_toBytes.symm
  have headerSmall : ProtocolHeader.size < 2 ^ 63 := by decide
  have bounded := packet.bodyLength_lt
  have bodySmall : packet.bodyLength < 2 ^ 63 := by omega
  have headerNew := CBuffer.new_valid headerSmall
  have bodyNew := CBuffer.new_valid bodySmall
  refine ⟨_, List.append_assoc _ _ _, ?_, ?_⟩
  · intro node member
    rcases List.mem_append.mp member with member | member
    · rw [List.mem_singleton.mp member,
        CBuffer.dataLength_setData _ _ (by decide)]
      exact ⟨CBuffer.setData_valid headerNew headerFits headerSmall, by decide⟩
    · rw [List.mem_singleton.mp member, CBuffer.dataLength_setData _ _ (by omega)]
      exact ⟨CBuffer.setData_valid bodyNew valid bodySmall, Nat.le_of_lt bounded⟩
  · simp only [List.singleton_append, CBuffers.flatten_cons, CBuffers.flatten_nil,
      List.append_nil]
    rw [CBuffer.bytes_setData _ headerFits (by decide),
      CBuffer.bytes_setData _ valid (by omega),
      List.take_of_length_le (Nat.le_of_eq packet.mHeader.length_toBytes), encoding]

theorem bytes_encode {packet : CResponsePacket} (valid : packet.Valid) (buffers : CBuffers) :
    (packet.encode buffers).1.bytes = buffers.bytes ++ packet.encoding := by
  obtain ⟨added, nodesEq, -, addedBytes⟩ := encode_spec valid buffers
  rw [CBuffers.bytes, nodesEq, CBuffers.flatten_append, addedBytes, CBuffers.bytes]

theorem nodes_valid_encode {packet : CResponsePacket} (valid : packet.Valid)
    {buffers : CBuffers}
    (nodesValid : ∀ node ∈ buffers.nodes, node.Valid ∧ node.dataLength ≤ 2 ^ 32) :
    ∀ node ∈ (packet.encode buffers).1.nodes, node.Valid ∧ node.dataLength ≤ 2 ^ 32 := by
  obtain ⟨added, nodesEq, addedValid, -⟩ := encode_spec valid buffers
  intro node member
  rw [nodesEq] at member
  rcases List.mem_append.mp member with member | member
  · exact nodesValid node member
  · exact addedValid node member

/-- Read back from the wire, every header field of an encoded response is
swapped. -/
theorem wireHeader_encoding (packet : CResponsePacket) :
    ProtocolHeader.ofNetwork (packet.encoding.take ProtocolHeader.size) =
      packet.mHeader.toHost := by
  rw [encoding, List.take_left' packet.mHeader.length_toBytes,
    ProtocolHeader.ofNetwork_toBytes]

end CResponsePacket

end NginxFastcgi.Service
