import NginxFastcgi.Service.TcpConnection

/-!
# What one `Decode` cuts off

`Decode` always returns.  A positive result is the end of the packets it made,
which lie back to back from the start of the received bytes; a result that is
not positive comes without packets.
-/

namespace NginxFastcgi.Service.CTcpConnection

open Foundation.Framing
open NginxFastcgi.Network

/-- The packets are the bytes from `pos` to the last argument: each begins where
the one before it ends, with a header and as many bytes as it announces. -/
inductive Covers (wire : List UInt8) : Nat → List CRequestPacket → Nat → Prop
  | nil (pos : Nat) : Covers wire pos [] pos
  | cons {pos stop length : Nat} {packet : CRequestPacket} {packets : List CRequestPacket} :
      packet.mHeader = CRequestPacket.wireHeader (wire.drop pos) →
      packet.mHeader.dataLength.toNat = length →
      packet.mBody = some (CRequestPacket.wireBody (wire.drop pos) length) →
      pos + ProtocolHeader.size + length ≤ wire.length →
      Covers wire (pos + ProtocolHeader.size + length) packets stop →
      Covers wire pos (packet :: packets) stop

/-- What the result of `Decode` and its packets say about the received bytes. -/
structure Tiles (buffers : CBuffers) (result : Int) (packets : List CRequestPacket) : Prop where
  inside : 0 < result → result ≤ buffers.dataLength
  covers : 0 < result → Covers buffers.bytes 0 packets result.toNat
  stops : 0 < result → (CRequestPacket.decode {} buffers result.toNat).1 ≤ 0
  nothing : result ≤ 0 → packets = []
  rejected_iff : result < 0 ↔ ProtocolHeader.size ≤ buffers.bytes.length ∧
    (CRequestPacket.wireHeader buffers.bytes).Rejected

/-- Requests that are parsed one after the other cover what they take. -/
theorem covers_of_parses {wire input rest : List UInt8} {items : List CRequestPacket}
    (parses : requestFormat.Parses input items rest) {pos : Nat} (inputEq : input = wire.drop pos)
    (inside : pos ≤ wire.length) : Covers wire pos items (wire.length - rest.length) := by
  induction parses generalizing pos with
  | @stop input _ =>
      have stopEq : wire.length - input.length = pos := by
        rw [inputEq, List.length_drop]
        omega
      rw [stopEq]
      exact .nil pos
  | @frame input rest items packet size nextEq _ inductionHypothesis =>
      subst inputEq
      obtain ⟨-, -, -, sizeEq, fits, rfl⟩ := nextFrame_eq_frame.mp nextEq
      rw [List.length_drop] at fits
      have next : pos + size ≤ wire.length := by omega
      have others := inductionHypothesis List.drop_drop next
      rw [sizeEq, ← Nat.add_assoc] at next others
      exact .cons rfl rfl rfl next others

/-- Where no request can be cut off, the packet decoder makes no packet. -/
theorem decode_nonpos_of_stuck {buffers : CBuffers} (valid : buffers.Valid) {pos : Nat}
    (stuck : requestFormat.Stuck (buffers.bytes.drop pos)) :
    (CRequestPacket.decode {} buffers pos).1 ≤ 0 := by
  have sameResult : (decodePacket buffers pos).1 = (CRequestPacket.decode {} buffers pos).1 := by
    unfold decodePacket
    simp only
    split <;> rfl
  rw [← sameResult, decodePacket_spec valid]
  cases outcome : nextFrame (buffers.bytes.drop pos) with
  | incomplete => exact Int.le_refl 0
  | malformed => exact (by decide : (-1 : Int) ≤ 0)
  | frame packet size => exact absurd outcome (stuck packet size)

/-- The bytes begin with a rejected header exactly when nothing is cut off in
front of a malformed one. -/
theorem rejected_iff_of_parses {input rest : List UInt8} {items : List CRequestPacket}
    (parses : requestFormat.Parses input items rest) :
    (items = [] ∧ nextFrame rest = .malformed) ↔
      ProtocolHeader.size ≤ input.length ∧ (CRequestPacket.wireHeader input).Rejected := by
  rw [← nextFrame_eq_malformed]
  constructor
  · rintro ⟨rfl, malformed⟩
    rw [← parses.rest_eq_of_nil]
    exact malformed
  · intro malformed
    obtain ⟨itemsEq, restEq⟩ := parses.unique (.stop (Format.stuck_of_malformed malformed))
    rw [itemsEq, restEq]
    exact ⟨rfl, malformed⟩

/-- `Decode` returns on every receive buffer, and its packets tile the bytes in
front of its result. -/
theorem decode_tiles {buffers : CBuffers} (valid : buffers.Valid) :
    ∃ result packets, decode buffers = some (result, packets) ∧
      Tiles buffers result packets := by
  obtain ⟨items, rest, parses, decoded⟩ := decode_spec valid
  have rejectedIff := rejected_iff_of_parses parses
  have shorter := parses.length_items_add_rest_le
  have counted : buffers.dataLength = buffers.bytes.length := valid.counted
  by_cases malformed : items = [] ∧ nextFrame rest = .malformed
  · rw [if_pos malformed] at decoded
    refine ⟨-1, [], decoded, ?_, ?_, ?_, fun _ => rfl, ?_⟩
    · exact fun positive => absurd positive (by decide)
    · exact fun positive => absurd positive (by decide)
    · exact fun positive => absurd positive (by decide)
    · exact iff_of_true (by decide) (rejectedIff.mp malformed)
  · rw [if_neg malformed] at decoded
    refine ⟨_, items, decoded, fun _ => ?_, fun _ => ?_, fun _ => ?_, fun nonpos => ?_, ?_⟩
    · rw [counted]
      omega
    · rw [Int.toNat_natCast]
      exact covers_of_parses parses (List.drop_zero).symm (Nat.zero_le _)
    · rw [Int.toNat_natCast]
      apply decode_nonpos_of_stuck valid
      rw [← parses.rest_eq_drop]
      exact parses.rest_stuck
    · exact List.eq_nil_of_length_eq_zero (by omega)
    · exact iff_of_false (by omega) (fun rejected => malformed (rejectedIff.mpr rejected))

/-- A request that came in two pieces is cut off whole. -/
theorem decode_oneByteRequest_tiles :
    ∃ result packets, decode CRequestPacket.oneByteRequest = some (result, packets) ∧
      Tiles CRequestPacket.oneByteRequest result packets :=
  decode_tiles CRequestPacket.oneByteRequest_valid

end NginxFastcgi.Service.CTcpConnection
