import NginxFastcgi.Foundation.Framing
import NginxFastcgi.Network.Connection
import NginxFastcgi.Service.RequestPacket
import NginxFastcgi.Service.ResponsePacket

/-!
# `CTcpConnection`, cutting requests off the received bytes

`Decode` calls the packet decoder at growing positions until it wants more
data or refuses.  Packets that were decoded before a malformed one are
delivered first: the negative result is only passed on when it comes at
position zero.

On the flat bytes this is a frame format, in which an empty body counts as
incomplete.
-/

namespace NginxFastcgi.Service

open Foundation.Framing
open Foundation.MachineInt
open NginxFastcgi.Network

instance : CPacket CResponsePacket where
  encode := CResponsePacket.encode

namespace CTcpConnection

/-- The return value, and the packet unless it was deleted again. -/
def decodePacket (buffers : CBuffers) (pos : Nat) : Int × Option CRequestPacket :=
  let decoded := CRequestPacket.decode {} buffers pos
  if decoded.1 > 0 then
    (decoded.1, some decoded.2)
  else
    (decoded.1, none)

/-- The loop of `Decode`: the return value and the packets, or `none` when the
fuel runs out. -/
def decodeLoop (buffers : CBuffers) :
    Nat → Int → List CRequestPacket → Option (Int × List CRequestPacket)
  | 0, _, _ => none
  | fuel + 1, decodeLength, packets =>
      let result := decodePacket buffers decodeLength.toNat
      if result.1 > 0 then
        decodeLoop buffers fuel (decodeLength + result.1) (packets ++ result.2.toList)
      else if result.1 = 0 then
        some (decodeLength, packets)
      else if decodeLength ≤ 0 then
        some (result.1, packets)
      else
        some (decodeLength, packets)

/-- `Decode`, with fuel for one turn per received byte and one more. -/
def decode (buffers : CBuffers) : Option (Int × List CRequestPacket) :=
  decodeLoop buffers (buffers.bytes.length + 1) 0 []

/-! ## Requests as frames -/

/-- The front of the received bytes as `Decode` sees it. -/
def nextFrame (input : List UInt8) : Outcome CRequestPacket :=
  let header := CRequestPacket.wireHeader input
  let length := header.dataLength.toNat
  if input.length < ProtocolHeader.size then
    .incomplete
  else if header.Rejected then
    .malformed
  else if length = 0 ∨ input.length < ProtocolHeader.size + length then
    .incomplete
  else
    .frame ⟨header, some (CRequestPacket.wireBody input length)⟩ (ProtocolHeader.size + length)

theorem nextFrame_eq_frame {input : List UInt8} {packet : CRequestPacket} {size : Nat} :
    nextFrame input = .frame packet size ↔
      ProtocolHeader.size ≤ input.length ∧ ¬ (CRequestPacket.wireHeader input).Rejected ∧
        (CRequestPacket.wireHeader input).dataLength.toNat ≠ 0 ∧
        size = ProtocolHeader.size + (CRequestPacket.wireHeader input).dataLength.toNat ∧
        size ≤ input.length ∧
        packet = ⟨CRequestPacket.wireHeader input, some (CRequestPacket.wireBody input
          (CRequestPacket.wireHeader input).dataLength.toNat)⟩ := by
  unfold nextFrame
  simp only
  split
  · simp only [reduceCtorEq, false_iff]
    omega
  · split
    · rename_i rejected
      simp only [reduceCtorEq, false_iff]
      exact fun frame => frame.2.1 rejected
    · split
      · simp only [reduceCtorEq, false_iff]
        omega
      · rename_i present accepted complete
        rw [Outcome.frame.injEq]
        constructor
        · rintro ⟨rfl, rfl⟩
          exact ⟨by omega, accepted, by omega, rfl, by omega, rfl⟩
        · rintro ⟨-, -, -, rfl, -, rfl⟩
          exact ⟨rfl, rfl⟩

theorem nextFrame_eq_malformed {input : List UInt8} :
    nextFrame input = .malformed ↔
      ProtocolHeader.size ≤ input.length ∧ (CRequestPacket.wireHeader input).Rejected := by
  unfold nextFrame
  simp only
  split
  · simp only [reduceCtorEq, false_iff]
    omega
  · split
    · rename_i rejected
      simp only [rejected, and_true, true_iff]
      omega
    · rename_i accepted
      split <;> simp [accepted]

theorem wireHeader_append {input : List UInt8} (present : ProtocolHeader.size ≤ input.length)
    (more : List UInt8) :
    CRequestPacket.wireHeader (input ++ more) = CRequestPacket.wireHeader input := by
  rw [CRequestPacket.wireHeader, List.take_append_of_le_length present]

theorem wireBody_append {input : List UInt8} {length : Nat}
    (present : ProtocolHeader.size + length ≤ input.length) (more : List UInt8) :
    CRequestPacket.wireBody (input ++ more) length = CRequestPacket.wireBody input length := by
  have inside : length ≤ (input.drop ProtocolHeader.size).length := by
    rw [List.length_drop]
    omega
  rw [CRequestPacket.wireBody, List.drop_append_of_le_length (by omega),
    List.take_append_of_le_length inside]

/-- The frame format of a request stream. -/
def requestFormat : Format UInt8 CRequestPacket where
  next := nextFrame
  size_pos := by
    intro input packet size nextEq
    obtain ⟨-, -, -, sizeEq, -⟩ := nextFrame_eq_frame.mp nextEq
    have positive : 0 < ProtocolHeader.size := by decide
    omega
  size_le := by
    intro input packet size nextEq
    obtain ⟨-, -, -, -, fits, -⟩ := nextFrame_eq_frame.mp nextEq
    exact fits
  frame_append := by
    intro input packet size more nextEq
    obtain ⟨present, accepted, nonempty, rfl, fits, rfl⟩ := nextFrame_eq_frame.mp nextEq
    have header := wireHeader_append present more
    refine nextFrame_eq_frame.mpr ?_
    rw [header, wireBody_append fits, List.length_append]
    exact ⟨by omega, accepted, nonempty, rfl, by omega, rfl⟩
  malformed_append := by
    intro input more nextEq
    obtain ⟨present, rejected⟩ := nextFrame_eq_malformed.mp nextEq
    refine nextFrame_eq_malformed.mpr ?_
    rw [wireHeader_append present, List.length_append]
    exact ⟨by omega, rejected⟩

/-- What one call of the packet decoder says about the bytes from `pos` on. -/
theorem decodePacket_spec {buffers : CBuffers} (valid : buffers.Valid) (pos : Nat) :
    decodePacket buffers pos =
      match nextFrame (buffers.bytes.drop pos) with
      | .frame packet size => ((size : Int), some packet)
      | .malformed => (-1, none)
      | .incomplete => (0, none) := by
  generalize wireEq : buffers.bytes.drop pos = wire
  have refused : ∀ {result : Int}, (CRequestPacket.decode {} buffers pos).1 = result →
      result ≤ 0 → decodePacket buffers pos = (result, none) := by
    intro result resultEq negative
    rw [decodePacket, resultEq]
    exact if_neg (by omega)
  cases outcome : nextFrame wire with
  | incomplete =>
      refine refused ?_ (Int.le_refl 0)
      by_cases present : ProtocolHeader.size ≤ wire.length
      · have accepted : ¬ (CRequestPacket.wireHeader wire).Rejected := by
          intro rejected
          rw [nextFrame_eq_malformed.mpr ⟨present, rejected⟩] at outcome
          contradiction
        by_cases enough : ProtocolHeader.size +
            (CRequestPacket.wireHeader wire).dataLength.toNat ≤ wire.length
        · -- Everything is there, so the body must be empty.
          have empty : (CRequestPacket.wireHeader wire).dataLength.toNat = 0 := by
            by_contra nonempty
            rw [nextFrame_eq_frame.mpr
              ⟨present, accepted, nonempty, rfl, enough, rfl⟩] at outcome
            contradiction
          rw [CRequestPacket.decode_whole valid {} wireEq present accepted enough]
          simp only [empty, if_true]
        · exact CRequestPacket.decode_partial valid {} wireEq present accepted (by omega)
      · exact CRequestPacket.decode_short valid {} (by rw [wireEq]; omega)
  | malformed =>
      obtain ⟨present, rejected⟩ := nextFrame_eq_malformed.mp outcome
      exact refused (CRequestPacket.decode_rejected valid {} wireEq present rejected) (by decide)
  | frame packet size =>
      obtain ⟨present, accepted, nonempty, rfl, fits, rfl⟩ := nextFrame_eq_frame.mp outcome
      rw [decodePacket, CRequestPacket.decode_whole valid {} wireEq present accepted fits]
      simp only [if_neg nonempty]
      exact if_pos (by omega)

/-- In front of an empty body the decoder stops, even when the byte count has
wrapped. -/
theorem decode_of_emptyBody {buffers : CBuffers} (valid : ∀ node ∈ buffers.nodes, node.Valid)
    (empty : CRequestPacket.EmptyBody buffers.bytes) : decode buffers = some (0, []) := by
  obtain ⟨present, accepted, lengthZero⟩ := empty
  have zeroLength : (CRequestPacket.wireHeader buffers.bytes).dataLength = 0 :=
    UInt32.toNat_inj.mp lengthZero
  have stops : (CRequestPacket.decode {} buffers 0).1 = 0 := by
    by_cases short : buffers.dataLength < wrap64 (ProtocolHeader.size + 0)
    · rw [CRequestPacket.decode, CRequestPacket.decodeHeader, if_pos short]
      rfl
    · have enough : 8 ≤ buffers.dataLength := Nat.not_lt.mp short
      have copied : buffers.getData 0 ProtocolHeader.size false =
          (ProtocolHeader.size, buffers.bytes.take ProtocolHeader.size) := by
        rw [CBuffers.getData_eq valid (Or.inr (by decide)) (by decide) (by omega),
          List.drop_zero, List.length_take, Nat.min_eq_left present]
      have header := CRequestPacket.decodeHeader_of_copied {} present short copied
      rw [if_neg accepted] at header
      have body : ∀ packet : CRequestPacket,
          packet.decodeBody buffers (0 + ProtocolHeader.size) 0 = (0, { packet with
            mBody := some [] }) := by
        intro packet
        have nothing : buffers.getData (0 + ProtocolHeader.size) 0 false = (0, []) :=
          if_pos (Or.inr (Or.inl rfl))
        rw [CRequestPacket.decodeBody, UInt32.toNat_zero, nothing]
        simp only [ne_eq, not_true_eq_false, if_false]
        exact if_neg short
      have bodyEq := body ⟨CRequestPacket.wireHeader buffers.bytes, none⟩
      rw [← zeroLength] at bodyEq
      rw [CRequestPacket.decode_of_parts header bodyEq]
      rfl
  rw [decode, decodeLoop, decodePacket, Int.toNat_zero, stops]
  rfl

/-- The loop cuts off all leading requests.  A malformed front is reported only
where nothing was cut off before it. -/
theorem decodeLoop_spec {buffers : CBuffers} (valid : buffers.Valid) (fuel pos : Nat)
    (packets : List CRequestPacket) (inside : pos ≤ buffers.bytes.length)
    (enough : buffers.bytes.length - pos < fuel) :
    ∃ items rest, requestFormat.Parses (buffers.bytes.drop pos) items rest ∧
      decodeLoop buffers fuel pos packets =
        if pos = 0 ∧ items = [] ∧ nextFrame rest = .malformed then
          some (-1, packets)
        else
          some (((buffers.bytes.length - rest.length : Nat) : Int), packets ++ items) := by
  induction fuel generalizing pos packets with
  | zero => omega
  | succ fuel inductionHypothesis =>
      have dropped : (buffers.bytes.drop pos).length = buffers.bytes.length - pos :=
        List.length_drop
      rw [decodeLoop, Int.toNat_natCast, decodePacket_spec valid pos]
      cases outcome : nextFrame (buffers.bytes.drop pos) with
      | incomplete =>
          refine ⟨[], buffers.bytes.drop pos, .stop (fun packet size nextEq => ?_), ?_⟩
          · rw [show requestFormat.next = nextFrame from rfl, outcome] at nextEq
            contradiction
          · have notMalformed : ¬ (pos = 0 ∧ ([] : List CRequestPacket) = [] ∧
                nextFrame (buffers.bytes.drop pos) = .malformed) := by
              rw [outcome]
              simp
            have consumed : buffers.bytes.length - (buffers.bytes.length - pos) = pos := by
              omega
            rw [if_neg notMalformed, dropped, consumed, List.append_nil]
            simp
      | malformed =>
          refine ⟨[], buffers.bytes.drop pos, .stop (Format.stuck_of_malformed outcome), ?_⟩
          have consumed : buffers.bytes.length - (buffers.bytes.length - pos) = pos := by
            omega
          have refused : ¬ ((-1 : Int) > 0) ∧ ¬ ((-1 : Int) = 0) := by decide
          simp only [if_neg refused.1, if_neg refused.2, dropped, consumed, List.append_nil]
          by_cases first : pos = 0
          · subst first
            simp only [outcome, and_self, if_true]
            rfl
          · have positive : ¬ ((pos : Int) ≤ 0) := by omega
            simp only [first, positive, false_and, if_false]
      | frame packet size =>
          have positive := requestFormat.size_pos outcome
          have fits := requestFormat.size_le outcome
          obtain ⟨items, rest, parses, result⟩ := inductionHypothesis (pos + size)
            (packets ++ [packet]) (by omega) (by omega)
          rw [← List.drop_drop] at parses
          refine ⟨packet :: items, rest, .frame outcome parses, ?_⟩
          have later : ¬ (pos + size = 0 ∧ items = [] ∧ nextFrame rest = .malformed) := by
            omega
          have progress : (size : Int) > 0 := by omega
          simp only [progress, if_true, Option.toList_some]
          rw [← Int.natCast_add, result, if_neg later]
          simp

/-- `Decode` always returns, with the leading requests and their total size or
with a negative value in front of a malformed one. -/
theorem decode_spec {buffers : CBuffers} (valid : buffers.Valid) :
    ∃ items rest, requestFormat.Parses buffers.bytes items rest ∧
      decode buffers =
        if items = [] ∧ nextFrame rest = .malformed then
          some (-1, [])
        else
          some (((buffers.bytes.length - rest.length : Nat) : Int), items) := by
  obtain ⟨items, rest, parses, result⟩ := decodeLoop_spec valid (buffers.bytes.length + 1) 0 []
    (Nat.zero_le _) (by omega)
  refine ⟨items, rest, parses, ?_⟩
  simpa [decode] using result

end CTcpConnection

end NginxFastcgi.Service
