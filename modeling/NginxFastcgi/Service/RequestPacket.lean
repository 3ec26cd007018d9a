import NginxFastcgi.Network.Buffers
import NginxFastcgi.Service.WireFormat

/-!
# `CRequestPacket`, decoding one request

`decode` reads a header and then a body at a position of a `CBuffers`.  A
negative result is a malformed header and zero asks for more data.  The body
length is also returned as a result, so a body of length zero is
indistinguishable from a body that has not arrived.
-/

namespace NginxFastcgi.Service

open Foundation.MachineInt
open NginxFastcgi.Network

structure CRequestPacket where
  mHeader : ProtocolHeader := {}
  /-- `none` is `NULL`. -/
  mBody : Option (List UInt8) := none
  deriving DecidableEq

namespace CRequestPacket

def decodeHeader (packet : CRequestPacket) (buffers : CBuffers) (pos : Nat) :
    Int × CRequestPacket :=
  if buffers.dataLength < wrap64 (ProtocolHeader.size + pos) then
    (0, packet)
  else
    let copied := buffers.getData pos ProtocolHeader.size false
    let packet := { packet with mHeader := packet.mHeader.overwrite copied.2 }
    if ProtocolHeader.size ≠ copied.1 then
      (0, packet)
    else
      let packet := { packet with mHeader := packet.mHeader.toHost }
      if packet.mHeader.Rejected then
        (-1, packet)
      else
        (ProtocolHeader.size, packet)

def decodeBody (packet : CRequestPacket) (buffers : CBuffers) (pos : Nat) (dataLength : UInt32) :
    Int × CRequestPacket :=
  if buffers.dataLength < wrap64 (dataLength.toNat + pos) then
    (0, packet)
  else
    let copied := buffers.getData pos dataLength.toNat false
    if dataLength.toNat ≠ copied.1 then
      (0, packet)
    else
      (dataLength.toNat, { packet with mBody := some copied.2 })

/-- The return value, and the packet afterwards. -/
def decode (packet : CRequestPacket) (buffers : CBuffers) (pos : Nat) : Int × CRequestPacket :=
  let header := packet.decodeHeader buffers pos
  if header.1 > 0 then
    let body := header.2.decodeBody buffers (pos + header.1.toNat) header.2.mHeader.dataLength
    if body.1 > 0 then
      (header.1 + body.1, body.2)
    else if body.1 = 0 then
      (0, body.2)
    else
      (-1, body.2)
  else if header.1 = 0 then
    (0, header.2)
  else
    (-1, header.2)

/-! ## The parts on the flat bytes -/

/-- The header at the front of the wire bytes. -/
abbrev wireHeader (wire : List UInt8) : ProtocolHeader :=
  ProtocolHeader.ofNetwork (wire.take ProtocolHeader.size)

/-- The `length` bytes behind the header. -/
abbrev wireBody (wire : List UInt8) (length : Nat) : List UInt8 :=
  (wire.drop ProtocolHeader.size).take length

/-- Copying a header that is there and judging it. -/
theorem decodeHeader_of_copied (packet : CRequestPacket) {buffers : CBuffers} {pos : Nat}
    {wire : List UInt8} (present : ProtocolHeader.size ≤ wire.length)
    (enough : ¬ buffers.dataLength < wrap64 (ProtocolHeader.size + pos))
    (copied : buffers.getData pos ProtocolHeader.size false =
      (ProtocolHeader.size, wire.take ProtocolHeader.size)) :
    packet.decodeHeader buffers pos =
      (if (wireHeader wire).Rejected then -1 else (ProtocolHeader.size : Int),
        { packet with mHeader := wireHeader wire }) := by
  have whole : (wire.take ProtocolHeader.size).length = ProtocolHeader.size := by
    rw [List.length_take]
    omega
  have headerEq : (packet.mHeader.overwrite (wire.take ProtocolHeader.size)).toHost =
      wireHeader wire := by
    rw [ProtocolHeader.overwrite_eq_ofBytes _ whole, ProtocolHeader.toHost_ofBytes whole]
  rw [decodeHeader, if_neg enough, copied]
  simp only [ne_eq, not_true_eq_false, if_false, headerEq]
  split <;> rfl

/-- The header length and the body length add up, or stand for "incomplete"
or "malformed". -/
theorem decode_of_parts {packet header body : CRequestPacket} {buffers : CBuffers} {pos : Nat}
    {length : Int}
    (headerEq : packet.decodeHeader buffers pos = ((ProtocolHeader.size : Int), header))
    (bodyEq : header.decodeBody buffers (pos + ProtocolHeader.size) header.mHeader.dataLength =
      (length, body)) :
    packet.decode buffers pos =
      (if length > 0 then ProtocolHeader.size + length else if length = 0 then 0 else -1,
        body) := by
  have positive : (ProtocolHeader.size : Int) > 0 := by decide
  simp only [decode, headerEq, if_pos positive, Int.toNat_natCast, bodyEq]
  split
  · rfl
  · split <;> rfl

theorem end_of_header_inside {data : List UInt8} {pos : Nat}
    (present : ProtocolHeader.size ≤ (data.drop pos).length) :
    pos + ProtocolHeader.size ≤ data.length := by
  have positive : 0 < ProtocolHeader.size := by decide
  rw [List.length_drop] at present
  omega

theorem length_behind_header (data : List UInt8) (pos : Nat) :
    (data.drop (pos + ProtocolHeader.size)).length =
      (data.drop pos).length - ProtocolHeader.size := by
  rw [← List.drop_drop, List.length_drop]

section ValidBuffers

variable {buffers : CBuffers} (valid : buffers.Valid)
include valid

theorem decodeHeader_short (packet : CRequestPacket) {pos : Nat}
    (short : (buffers.bytes.drop pos).length < ProtocolHeader.size) :
    (packet.decodeHeader buffers pos).1 = 0 := by
  unfold decodeHeader
  split
  · rfl
  · rename_i enough
    -- The sum `8 + pos` may have wrapped, so the test alone does not refuse.
    have fewer : (buffers.getData pos ProtocolHeader.size false).1 < ProtocolHeader.size := by
      by_cases bounded : pos + ProtocolHeader.size < 2 ^ 64
      · rw [valid.getData bounded, List.length_take]
        omega
      · rw [valid.getData_wrapped (by omega) (by decide)]
        decide
    simp only [ne_eq, Nat.ne_of_gt fewer, not_false_eq_true, if_true]

theorem decodeHeader_whole (packet : CRequestPacket) {pos : Nat}
    (present : ProtocolHeader.size ≤ (buffers.bytes.drop pos).length) :
    packet.decodeHeader buffers pos =
      (if (wireHeader (buffers.bytes.drop pos)).Rejected then -1
        else (ProtocolHeader.size : Int),
        { packet with mHeader := wireHeader (buffers.bytes.drop pos) }) := by
  have counted : buffers.dataLength = buffers.bytes.length := valid.counted
  have total := valid.bounded
  have inside := end_of_header_inside present
  apply decodeHeader_of_copied packet present
  · rw [wrap64_of_lt (by omega)]
    omega
  · rw [valid.getData (by omega), List.length_take, Nat.min_eq_left present]

/-- `DecodeBody` succeeds exactly when the announced bytes are there. -/
theorem decodeBody_eq (packet : CRequestPacket) {pos : Nat}
    (inside : pos ≤ buffers.bytes.length) (dataLength : UInt32) :
    packet.decodeBody buffers pos dataLength =
      if (buffers.bytes.drop pos).length < dataLength.toNat then
        ((0 : Int), packet)
      else
        ((dataLength.toNat : Int),
          { packet with mBody := some ((buffers.bytes.drop pos).take dataLength.toNat) }) := by
  have counted : buffers.dataLength = buffers.bytes.length := valid.counted
  have total := valid.bounded
  have width : dataLength.toNat < 2 ^ 32 := dataLength.toNat_lt
  have dropped : (buffers.bytes.drop pos).length = buffers.bytes.length - pos :=
    List.length_drop
  unfold decodeBody
  by_cases bounded : pos + dataLength.toNat < 2 ^ 64
  · rw [wrap64_of_lt (by omega), valid.getData bounded, counted]
    by_cases short : (buffers.bytes.drop pos).length < dataLength.toNat
    · rw [if_pos (by omega), if_pos short]
    · have copied : ((buffers.bytes.drop pos).take dataLength.toNat).length =
          dataLength.toNat := by
        rw [List.length_take]
        omega
      rw [if_neg (by omega), if_neg short]
      simp only [copied, ne_eq, not_true_eq_false, if_false]
  · -- The end of the body wraps, so the body cannot be there, and nothing is copied.
    have short : (buffers.bytes.drop pos).length < dataLength.toNat := by omega
    rw [if_pos short, valid.getData_wrapped (by omega) (by omega)]
    have positive : dataLength.toNat ≠ 0 := by omega
    simp only [ne_eq, positive, not_false_eq_true, if_true, ite_self]

theorem decode_short (packet : CRequestPacket) {pos : Nat}
    (short : (buffers.bytes.drop pos).length < ProtocolHeader.size) :
    (packet.decode buffers pos).1 = 0 := by
  have header := decodeHeader_short valid packet short
  simp only [decode, header, gt_iff_lt, Int.lt_irrefl, if_false, if_true]

section Present

variable (packet : CRequestPacket) {pos : Nat} {wire : List UInt8}
  (wireEq : buffers.bytes.drop pos = wire) (present : ProtocolHeader.size ≤ wire.length)
include wireEq present

theorem decode_rejected (rejected : (wireHeader wire).Rejected) :
    (packet.decode buffers pos).1 = -1 := by
  subst wireEq
  have header := decodeHeader_whole valid packet present
  rw [if_pos rejected] at header
  rw [decode, header]
  rfl

theorem decode_partial (accepted : ¬ (wireHeader wire).Rejected)
    (short : wire.length < ProtocolHeader.size + (wireHeader wire).dataLength.toNat) :
    (packet.decode buffers pos).1 = 0 := by
  subst wireEq
  have header := decodeHeader_whole valid packet present
  rw [if_neg accepted] at header
  have body := decodeBody_eq valid { packet with mHeader := wireHeader (buffers.bytes.drop pos) }
    (end_of_header_inside present) (wireHeader (buffers.bytes.drop pos)).dataLength
  rw [if_pos (by rw [length_behind_header]; omega)] at body
  rw [decode_of_parts header body]
  rfl

/-- A complete packet is decoded, but an empty body is reported as zero. -/
theorem decode_whole (accepted : ¬ (wireHeader wire).Rejected)
    (enough : ProtocolHeader.size + (wireHeader wire).dataLength.toNat ≤ wire.length) :
    packet.decode buffers pos =
      let length := (wireHeader wire).dataLength.toNat
      ((if length = 0 then 0 else ProtocolHeader.size + length : Int),
        ⟨wireHeader wire, some (wireBody wire length)⟩) := by
  subst wireEq
  have header := decodeHeader_whole valid packet present
  rw [if_neg accepted] at header
  have body := decodeBody_eq valid { packet with mHeader := wireHeader (buffers.bytes.drop pos) }
    (end_of_header_inside present) (wireHeader (buffers.bytes.drop pos)).dataLength
  rw [if_neg (by rw [length_behind_header]; omega), ← List.drop_drop] at body
  rw [decode_of_parts header body]
  rcases Nat.eq_zero_or_pos (wireHeader (buffers.bytes.drop pos)).dataLength.toNat with
    empty | nonempty
  · simp only [empty]
    rfl
  · have positive : ((wireHeader (buffers.bytes.drop pos)).dataLength.toNat : Int) > 0 := by
      omega
    simp only [if_pos positive, if_neg (Nat.ne_of_gt nonempty)]

end Present

end ValidBuffers

/-- A decoded header passed the header test. -/
theorem accepted_of_decodeHeader_pos {packet : CRequestPacket} {buffers : CBuffers} {pos : Nat}
    (decoded : 0 < (packet.decodeHeader buffers pos).1) :
    ¬ (packet.decodeHeader buffers pos).2.mHeader.Rejected := by
  unfold decodeHeader at decoded ⊢
  split at decoded
  · simp at decoded
  · simp only at decoded ⊢
    split at decoded
    · simp at decoded
    · split at decoded
      · simp at decoded
      · rename_i short complete accepted
        rw [if_neg short, if_neg complete, if_neg accepted]
        exact accepted

@[simp]
theorem mHeader_decodeBody (packet : CRequestPacket) (buffers : CBuffers) (start : Nat)
    (length : UInt32) : (packet.decodeBody buffers start length).2.mHeader = packet.mHeader := by
  unfold decodeBody
  split
  · rfl
  · simp only
    split <;> rfl

/-- A decoded packet passed the header test. -/
theorem accepted_of_decode_pos {packet : CRequestPacket} {buffers : CBuffers} {pos : Nat}
    (decoded : 0 < (packet.decode buffers pos).1) :
    ¬ (packet.decode buffers pos).2.mHeader.Rejected := by
  unfold decode at decoded ⊢
  simp only at decoded ⊢
  split at decoded
  · rename_i headerPos
    have accepted := accepted_of_decodeHeader_pos headerPos
    rw [if_pos headerPos]
    -- The body is decoded into the packet whose header was accepted.
    split
    · simpa only [mHeader_decodeBody] using accepted
    · split
      · simpa only [mHeader_decodeBody] using accepted
      · simpa only [mHeader_decodeBody] using accepted
  · split at decoded <;> simp at decoded

/-! ## Exactness of the decoder -/

/-- What the wire format asks of `Decode` at one position: a negative result
exactly for a malformed header, the packet exactly when all of it is present,
and zero exactly while it is incomplete. -/
structure AcceptsWireFormat (packet : CRequestPacket) (buffers : CBuffers) (pos : Nat)
    (wire : List UInt8) : Prop where
  malformed_iff : (packet.decode buffers pos).1 < 0 ↔
    ProtocolHeader.size ≤ wire.length ∧ (wireHeader wire).Rejected
  complete_iff : ∀ n : Nat, n < 2 ^ 32 →
    ((packet.decode buffers pos).1 = ProtocolHeader.size + n ∧
        (packet.decode buffers pos).2.mHeader = wireHeader wire ∧
        (packet.decode buffers pos).2.mBody = some (wireBody wire n) ↔
      ProtocolHeader.size ≤ wire.length ∧ ¬ (wireHeader wire).Rejected ∧
        (wireHeader wire).dataLength.toNat = n ∧ ProtocolHeader.size + n ≤ wire.length)
  incomplete_iff : (packet.decode buffers pos).1 = 0 ↔
    wire.length < ProtocolHeader.size ∨
      ¬ (wireHeader wire).Rejected ∧
        wire.length < ProtocolHeader.size + (wireHeader wire).dataLength.toNat

/-- A complete, well-formed packet that announces no body. -/
def EmptyBody (wire : List UInt8) : Prop :=
  ProtocolHeader.size ≤ wire.length ∧ ¬ (wireHeader wire).Rejected ∧
    (wireHeader wire).dataLength.toNat = 0

section Positions

variable {buffers : CBuffers} (valid : buffers.Valid) (packet : CRequestPacket) {pos : Nat}
variable {wire : List UInt8} (wireEq : buffers.bytes.drop pos = wire)
include valid wireEq

theorem acceptsWireFormat_of_short (short : wire.length < ProtocolHeader.size) :
    packet.AcceptsWireFormat buffers pos wire := by
  have result := decode_short valid packet (wireEq ▸ short)
  have absent : ¬ ProtocolHeader.size ≤ wire.length := Nat.not_le.mpr short
  refine ⟨?_, ?_, ?_⟩
  · simp [result, absent]
  · intro n _
    refine iff_of_false ?_ (fun complete => absent complete.1)
    rintro ⟨length, -⟩
    have sizeEq : ProtocolHeader.size = 8 := rfl
    omega
  · exact iff_of_true result (Or.inl short)

theorem acceptsWireFormat_of_rejected (present : ProtocolHeader.size ≤ wire.length)
    (rejected : (wireHeader wire).Rejected) : packet.AcceptsWireFormat buffers pos wire := by
  have result := decode_rejected valid packet wireEq present rejected
  refine ⟨?_, ?_, ?_⟩
  · simp [result, present, rejected]
  · intro n _
    refine iff_of_false ?_ (fun complete => complete.2.1 rejected)
    rintro ⟨length, -⟩
    omega
  · simp only [result, rejected, not_true_eq_false, false_and, or_false]
    omega

theorem acceptsWireFormat_of_incomplete (present : ProtocolHeader.size ≤ wire.length)
    (accepted : ¬ (wireHeader wire).Rejected)
    (incomplete : wire.length < ProtocolHeader.size + (wireHeader wire).dataLength.toNat) :
    packet.AcceptsWireFormat buffers pos wire := by
  have result := decode_partial valid packet wireEq present accepted incomplete
  refine ⟨?_, ?_, ?_⟩
  · simp [result, accepted]
  · intro n _
    refine iff_of_false ?_ ?_
    · rintro ⟨length, -⟩
      have sizeEq : ProtocolHeader.size = 8 := rfl
      omega
    · rintro ⟨-, -, rfl, complete⟩
      exact Nat.not_le.mpr incomplete complete
  · exact iff_of_true result (Or.inr ⟨accepted, incomplete⟩)

/-- In front of a whole packet the format asks for its size, and the decoder
returns 0 when the body is empty. -/
theorem acceptsWireFormat_iff_of_whole (present : ProtocolHeader.size ≤ wire.length)
    (accepted : ¬ (wireHeader wire).Rejected)
    (enough : ProtocolHeader.size + (wireHeader wire).dataLength.toNat ≤ wire.length) :
    packet.AcceptsWireFormat buffers pos wire ↔ (wireHeader wire).dataLength.toNat ≠ 0 := by
  have sizeEq : ProtocolHeader.size = 8 := rfl
  have result := decode_whole valid packet wireEq present accepted enough
  simp only at result
  by_cases empty : (wireHeader wire).dataLength.toNat = 0
  · refine iff_of_false ?_ (not_not_intro empty)
    intro accepts
    have complete := (accepts.complete_iff 0 (by decide)).mpr
      ⟨present, accepted, empty, by omega⟩
    rw [result, if_pos empty] at complete
    omega
  · rw [if_neg empty] at result
    refine iff_of_true ⟨?_, ?_, ?_⟩ empty
    · rw [result]
      exact iff_of_false (by omega) (fun malformed => accepted malformed.2)
    · intro n _
      rw [result]
      constructor
      · rintro ⟨length, -, -⟩
        exact ⟨present, accepted, by omega, by omega⟩
      · rintro ⟨-, -, rfl, -⟩
        exact ⟨rfl, rfl, rfl⟩
    · rw [result]
      refine iff_of_false (by omega) ?_
      rintro (short | ⟨-, short⟩) <;> omega

end Positions

/-- `Decode` follows the wire format at every position except in front of a
packet with an empty body, which it takes for an incomplete one. -/
theorem acceptsWireFormat_iff {buffers : CBuffers} (valid : buffers.Valid)
    (packet : CRequestPacket) (pos : Nat) :
    packet.AcceptsWireFormat buffers pos (buffers.bytes.drop pos) ↔
      ¬ EmptyBody (buffers.bytes.drop pos) := by
  generalize wireEq : buffers.bytes.drop pos = wire
  by_cases present : ProtocolHeader.size ≤ wire.length
  · by_cases rejected : (wireHeader wire).Rejected
    · exact iff_of_true (acceptsWireFormat_of_rejected valid packet wireEq present rejected)
        fun empty => empty.2.1 rejected
    · by_cases enough :
          ProtocolHeader.size + (wireHeader wire).dataLength.toNat ≤ wire.length
      · rw [acceptsWireFormat_iff_of_whole valid packet wireEq present rejected enough]
        exact not_congr ⟨fun empty => ⟨present, rejected, empty⟩, fun empty => empty.2.2⟩
      · refine iff_of_true (acceptsWireFormat_of_incomplete valid packet wireEq present rejected
          (Nat.not_le.mp enough)) ?_
        -- A packet with an empty body is whole once its header is there.
        rintro ⟨-, -, zero⟩
        omega
  · exact iff_of_true (acceptsWireFormat_of_short valid packet wireEq (Nat.not_le.mp present))
      fun empty => present empty.1

/-- One request with command `CT_A` and no body, in one node. -/
def emptyBodyRequest : CBuffers :=
  CBuffers.new.pushBack
    (some ((CBuffer.new 8).setData [0xFD, 0xFC, 0x00, 0x01, 0x00, 0x00, 0x00, 0x00] 8))

theorem emptyBodyRequest_valid : emptyBodyRequest.Valid :=
  CBuffers.new_valid.pushBack
    (CBuffer.setData_valid (CBuffer.new_valid (by decide)) (by decide) (by decide)) (by decide)

/-- The whole packet is there, and the decoder asks for more. -/
theorem emptyBodyRequest_not_accepted :
    emptyBodyRequest.Valid ∧
      ¬ AcceptsWireFormat {} emptyBodyRequest 0 (emptyBodyRequest.bytes.drop 0) := by
  refine ⟨emptyBodyRequest_valid, fun accepts => ?_⟩
  have complete := (accepts.complete_iff 0 (by decide)).mpr (by decide)
  exact absurd complete.1 (by decide)

/-- The same command with a body of one byte, split inside the header. -/
def oneByteRequest : CBuffers :=
  (CBuffers.new.pushBack (some ((CBuffer.new 3).setData [0xFD, 0xFC, 0x00] 3))).pushBack
    (some ((CBuffer.new 6).setData [0x01, 0x00, 0x00, 0x00, 0x01, 0x61] 6))

theorem oneByteRequest_valid : oneByteRequest.Valid :=
  (CBuffers.new_valid.pushBack
    (CBuffer.setData_valid (CBuffer.new_valid (by decide)) (by decide) (by decide))
    (by decide)).pushBack
      (CBuffer.setData_valid (CBuffer.new_valid (by decide)) (by decide) (by decide)) (by decide)

theorem oneByteRequest_accepted :
    AcceptsWireFormat {} oneByteRequest 0 (oneByteRequest.bytes.drop 0) :=
  (acceptsWireFormat_iff oneByteRequest_valid {} 0).mpr
    (fun empty => absurd empty.2.2 (by decide))

end CRequestPacket

end NginxFastcgi.Service
