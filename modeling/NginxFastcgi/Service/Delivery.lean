import NginxFastcgi.Service.TcpConnection

/-!
# Delivery of requests from a chunked stream

A connection reads its stream in pieces that TCP chooses.  After each piece it
delivers the requests that are complete and keeps the rest.  What it delivers
in the end depends on the stream only.
-/

namespace NginxFastcgi.Service.CTcpConnection

open Foundation.Framing
open Foundation.MachineInt
open NginxFastcgi.Network

/-- Run `InputNotify` once for each read.  A destroyed connection, `none`,
reads nothing more. -/
def receive : List (List UInt8) → CConnection → Option (Option CConnection × List CRequestPacket)
  | [], connection => some (some connection, [])
  | chunk :: chunks, connection =>
      (connection.inputNotify decode (.data chunk)).bind fun
        | .destroyed => some (none, [])
        | .alive connection packets =>
            (receive chunks connection).map fun later => (later.1, packets ++ later.2)

/-- A read returns between one byte and the size of the local buffer. -/
def Readable (chunk : List UInt8) : Prop :=
  0 < chunk.length ∧ chunk.length ≤ kDefaultBufferLength

instance (chunk : List UInt8) : Decidable (Readable chunk) :=
  inferInstanceAs (Decidable (_ ∧ _))

/-- The received bytes between two reads: they start with no complete request,
and they are few unless an empty body blocks them. -/
structure Pending (buffers : CBuffers) : Prop where
  nodes_valid : ∀ node ∈ buffers.nodes, node.Valid
  counted : buffers.mDataLength = wrap64 buffers.bytes.length
  stuck : requestFormat.Stuck buffers.bytes
  few_or_blocked : buffers.bytes.length < 2 ^ 33 ∨ CRequestPacket.EmptyBody buffers.bytes

theorem pending_new : Pending CBuffers.new :=
  ⟨by simp [CBuffers.new], rfl, Format.stuck_nil, Or.inl (by decide)⟩

theorem emptyBody_append {input : List UInt8} (empty : CRequestPacket.EmptyBody input)
    (more : List UInt8) : CRequestPacket.EmptyBody (input ++ more) := by
  obtain ⟨present, accepted, zero⟩ := empty
  unfold CRequestPacket.EmptyBody
  rw [wireHeader_append present, List.length_append]
  exact ⟨by omega, accepted, zero⟩

theorem stuck_of_emptyBody {input : List UInt8} (empty : CRequestPacket.EmptyBody input) :
    requestFormat.Stuck input := by
  intro packet size nextEq
  obtain ⟨-, -, nonempty, -⟩ := nextFrame_eq_frame.mp nextEq
  exact nonempty empty.2.2

/-- An incomplete front is shorter than one packet, unless its body is empty. -/
theorem few_or_blocked_of_stuck {input : List UInt8} (stuck : requestFormat.Stuck input)
    (notMalformed : nextFrame input ≠ .malformed) :
    input.length < ProtocolHeader.size + 2 ^ 32 ∨ CRequestPacket.EmptyBody input := by
  by_cases present : ProtocolHeader.size ≤ input.length
  · have accepted : ¬ (CRequestPacket.wireHeader input).Rejected :=
      fun rejected => notMalformed (nextFrame_eq_malformed.mpr ⟨present, rejected⟩)
    by_cases empty : (CRequestPacket.wireHeader input).dataLength.toNat = 0
    · exact Or.inr ⟨present, accepted, empty⟩
    · left
      by_contra long
      have width : (CRequestPacket.wireHeader input).dataLength.toNat < 2 ^ 32 :=
        UInt32.toNat_lt _
      exact stuck _ _ (nextFrame_eq_frame.mpr
        ⟨present, accepted, empty, rfl, by omega, rfl⟩)
  · left
    omega

/-- The buffers after a read, before they are decoded. -/
theorem pushBack_chunk {buffers : CBuffers} (pending : Pending buffers) {chunk : List UInt8}
    (readable : Readable chunk) :
    let received :=
      buffers.pushBack (some ((CBuffer.new chunk.length).setData chunk chunk.length))
    (∀ node ∈ received.nodes, node.Valid) ∧ received.bytes = buffers.bytes ++ chunk ∧
      received.mDataLength = wrap64 received.bytes.length := by
  have small : chunk.length < 2 ^ 63 := by
    have bounded := readable.2
    unfold kDefaultBufferLength at bounded
    omega
  have newValid := CBuffer.new_valid small
  have nodeValid := CBuffer.setData_valid newValid (Nat.le_refl chunk.length) small
  have nodeBytes := CBuffer.bytes_setData (CBuffer.new chunk.length) (Nat.le_refl chunk.length)
    (show chunk.length < 2 ^ 64 by omega)
  rw [List.take_length] at nodeBytes
  have nodeLength := nodeValid.length_bytes
  rw [nodeBytes] at nodeLength
  intro received
  have joined : received.bytes = buffers.bytes ++ chunk := by
    rw [CBuffers.Valid.bytes_pushBack, nodeBytes]
  refine ⟨?_, joined, ?_⟩
  · intro node member
    rcases List.mem_append.mp member with member | member
    · exact pending.nodes_valid node member
    · rw [List.mem_singleton.mp member]
      exact nodeValid
  · rw [joined, List.length_append]
    change wrap64 (buffers.mDataLength + _) = _
    rw [pending.counted, wrap64_add_wrap64, ← nodeLength]

/-- What is kept after a read is again little or blocked: a malformed front is
kept only behind requests, and then little was pending before. -/
theorem few_or_blocked_of_parses {buffers : CBuffers} (pending : Pending buffers)
    {chunk rest : List UInt8} (readable : Readable chunk) {items : List CRequestPacket}
    (parses : requestFormat.Parses (buffers.bytes ++ chunk) items rest)
    (delivered : ¬ (items = [] ∧ nextFrame rest = .malformed)) :
    rest.length < 2 ^ 33 ∨ CRequestPacket.EmptyBody rest := by
  have sizeEq : ProtocolHeader.size = 8 := rfl
  by_cases malformed : nextFrame rest = .malformed
  · have some_items : items ≠ [] := fun none => delivered ⟨none, malformed⟩
    have wellFormed : nextFrame buffers.bytes ≠ .malformed := by
      intro before
      have stuck := Format.stuck_of_malformed (requestFormat.malformed_append chunk before)
      exact some_items (parses.unique (.stop stuck)).1
    rcases few_or_blocked_of_stuck pending.stuck wellFormed with short | empty
    · left
      have shorter := parses.length_items_add_rest_le
      have chunkBound : chunk.length ≤ 1048576 := readable.2
      rw [List.length_append] at shorter
      omega
    · exact absurd (parses.unique (.stop (stuck_of_emptyBody (emptyBody_append empty chunk)))).1
        some_items
  · rcases few_or_blocked_of_stuck parses.rest_stuck malformed with short | empty
    · exact Or.inl (Nat.lt_trans short (by decide))
    · exact Or.inr empty

/-- Cutting the delivered requests off the front keeps the rest. -/
theorem pending_eraseFront {received : CBuffers} (valid : received.Valid)
    {items : List CRequestPacket} {rest : List UInt8}
    (parses : requestFormat.Parses received.bytes items rest)
    (restPending : rest.length < 2 ^ 33 ∨ CRequestPacket.EmptyBody rest) :
    (received.eraseFront (received.bytes.length - rest.length)).1.bytes = rest ∧
      Pending (received.eraseFront (received.bytes.length - rest.length)).1 := by
  have left : (received.eraseFront (received.bytes.length - rest.length)).1.bytes = rest := by
    obtain ⟨-, left, -⟩ := CBuffers.eraseFront_spec valid.nodes_valid (valid.noWrap _)
    rw [left, ← parses.rest_eq_drop]
  have leftValid := valid.eraseFront (received.bytes.length - rest.length)
  refine ⟨left, leftValid.nodes_valid, ?_, ?_, ?_⟩
  · rw [leftValid.counted, wrap64_of_lt leftValid.bounded]
  · rw [left]
    exact parses.rest_stuck
  · rw [left]
    exact restPending

/-- `InputNotify` when the received bytes are in the buffers. -/
def decodeReceived (connection : CConnection) (received : CBuffers) :
    Option (InputOutcome CRequestPacket) :=
  (decode received).map fun decoded =>
    if decoded.1 > 0 then
      .alive { connection with mRecvBuffers := (received.eraseFront decoded.1.toNat).1 } decoded.2
    else if decoded.1 < 0 then
      .destroyed
    else
      .alive { connection with mRecvBuffers := received } []

theorem inputNotify_data (connection : CConnection) (chunk : List UInt8) :
    connection.inputNotify decode (.data chunk) =
      decodeReceived connection (connection.mRecvBuffers.pushBack
        (some ((CBuffer.new chunk.length).setData chunk chunk.length))) :=
  rfl

section DecodeReceived

variable {received : CBuffers}

/-- Behind an empty body everything is kept. -/
theorem decodeReceived_of_emptyBody (connection : CConnection)
    (nodesValid : ∀ node ∈ received.nodes, node.Valid)
    (blocked : CRequestPacket.EmptyBody received.bytes) :
    decodeReceived connection received =
      some (.alive { connection with mRecvBuffers := received } []) := by
  rw [decodeReceived, decode_of_emptyBody nodesValid blocked]
  rfl

/-- Packets that were decoded are cut off the buffers, which keep the rest. -/
theorem decodeReceived_of_delivered (connection : CConnection) (valid : received.Valid)
    {items : List CRequestPacket} {rest : List UInt8}
    (parses : requestFormat.Parses received.bytes items rest)
    (decoded : decode received =
      some (((received.bytes.length - rest.length : Nat) : Int), items))
    (restPending : rest.length < 2 ^ 33 ∨ CRequestPacket.EmptyBody rest) :
    ∃ after, decodeReceived connection received = some (.alive after items) ∧
      after.mRecvBuffers.bytes = rest ∧ Pending after.mRecvBuffers := by
  have shorter := parses.length_items_add_rest_le
  by_cases progress : ((received.bytes.length - rest.length : Nat) : Int) > 0
  · obtain ⟨left, leftPending⟩ := pending_eraseFront valid parses restPending
    refine ⟨{ connection with mRecvBuffers :=
      (received.eraseFront (received.bytes.length - rest.length)).1 }, ?_, left, leftPending⟩
    rw [decodeReceived, decoded, Option.map_some]
    simp only [if_pos progress, Int.toNat_natCast]
  · -- Nothing was cut off, so there are no packets.
    have noItems : items = [] := List.eq_nil_of_length_eq_zero (by omega)
    subst noItems
    have restEq := parses.rest_eq_of_nil
    subst restEq
    have counted : received.mDataLength = wrap64 received.bytes.length := by
      rw [valid.counted, wrap64_of_lt valid.bounded]
    refine ⟨{ connection with mRecvBuffers := received }, ?_, rfl,
      ⟨valid.nodes_valid, counted, parses.rest_stuck, restPending⟩⟩
    rw [decodeReceived, decoded, Option.map_some, Nat.sub_self]
    rfl

/-- A malformed front with no request before it destroys the connection. -/
theorem decodeReceived_of_malformed (connection : CConnection)
    (decoded : decode received = some (-1, [])) :
    decodeReceived connection received = some .destroyed := by
  rw [decodeReceived, decoded]
  rfl

end DecodeReceived

/-- One read delivers the complete requests and keeps the rest, or it finds a
malformed front with no request before it and destroys the connection. -/
theorem inputNotify_cases {connection : CConnection} (pending : Pending connection.mRecvBuffers)
    {chunk : List UInt8} (readable : Readable chunk) :
    (∃ after packets,
      connection.inputNotify decode (.data chunk) = some (.alive after packets) ∧
        requestFormat.Parses (connection.mRecvBuffers.bytes ++ chunk) packets
          after.mRecvBuffers.bytes ∧
        Pending after.mRecvBuffers ∧
        ¬ (packets = [] ∧ nextFrame after.mRecvBuffers.bytes = .malformed)) ∨
      connection.inputNotify decode (.data chunk) = some .destroyed ∧
        nextFrame (connection.mRecvBuffers.bytes ++ chunk) = .malformed := by
  obtain ⟨nodesValid, joined, counted⟩ := pushBack_chunk pending readable
  rw [inputNotify_data]
  generalize connection.mRecvBuffers.pushBack
    (some ((CBuffer.new chunk.length).setData chunk chunk.length)) = received
    at nodesValid joined counted
  by_cases blocked : CRequestPacket.EmptyBody received.bytes
  · left
    have stuck := stuck_of_emptyBody blocked
    refine ⟨_, [], decodeReceived_of_emptyBody connection nodesValid blocked, ?_,
      ⟨nodesValid, counted, stuck, Or.inr blocked⟩, ?_⟩
    · rw [← joined]
      exact .stop stuck
    · rintro ⟨-, malformed⟩
      exact blocked.2.1 (nextFrame_eq_malformed.mp malformed).2
  · have few : connection.mRecvBuffers.bytes.length < 2 ^ 33 := by
      rcases pending.few_or_blocked with few | before
      · exact few
      · rw [joined] at blocked
        exact absurd (emptyBody_append before chunk) blocked
    have receivedLength : received.bytes.length < 2 ^ 64 := by
      rw [joined, List.length_append]
      exact Nat.lt_of_lt_of_le (Nat.add_lt_add_of_lt_of_le few readable.2) (by decide)
    have valid : received.Valid :=
      ⟨nodesValid, by rw [counted, wrap64_of_lt receivedLength], receivedLength⟩
    obtain ⟨items, rest, parses, decoded⟩ := decode_spec valid
    by_cases refused : items = [] ∧ nextFrame rest = .malformed
    · right
      rw [if_pos refused] at decoded
      obtain ⟨rfl, malformed⟩ := refused
      rw [parses.rest_eq_of_nil, joined] at malformed
      exact ⟨decodeReceived_of_malformed connection decoded, malformed⟩
    · left
      rw [if_neg refused] at decoded
      have restPending : rest.length < 2 ^ 33 ∨ CRequestPacket.EmptyBody rest :=
        few_or_blocked_of_parses pending readable (joined ▸ parses) refused
      obtain ⟨after, alive, left, afterPending⟩ :=
        decodeReceived_of_delivered connection valid parses decoded restPending
      refine ⟨after, items, alive, ?_, afterPending, ?_⟩
      · rw [left, ← joined]
        exact parses
      · rw [left]
        exact refused

/-- One read delivers the complete requests and keeps the rest, or it finds a
malformed front and destroys the connection. -/
theorem inputNotify_spec {connection : CConnection} (pending : Pending connection.mRecvBuffers)
    {chunk : List UInt8} (readable : Readable chunk) :
    (∃ after packets,
      connection.inputNotify decode (.data chunk) = some (.alive after packets) ∧
        requestFormat.Parses (connection.mRecvBuffers.bytes ++ chunk) packets
          after.mRecvBuffers.bytes ∧
        Pending after.mRecvBuffers) ∨
      connection.inputNotify decode (.data chunk) = some .destroyed ∧
        nextFrame (connection.mRecvBuffers.bytes ++ chunk) = .malformed := by
  rcases inputNotify_cases pending readable with
    ⟨after, packets, notified, parses, afterPending, -⟩ | destroyed
  · exact Or.inl ⟨after, packets, notified, parses, afterPending⟩
  · exact Or.inr destroyed

/-- The bytes a live connection keeps, and `none` for a destroyed one. -/
def kept (connection : Option CConnection) : Option (List UInt8) :=
  connection.map fun live => live.mRecvBuffers.bytes

/-- A run over many reads returns and tracks the request format. -/
theorem receive_tracks (chunks : List (List UInt8)) (readable : ∀ chunk ∈ chunks, Readable chunk)
    (connection : CConnection) (pending : Pending connection.mRecvBuffers)
    {consumed : List UInt8} {items : List CRequestPacket}
    (tracks : requestFormat.Tracks consumed items (some connection.mRecvBuffers.bytes)) :
    ∃ final delivered, receive chunks connection = some (final, delivered) ∧
      requestFormat.Tracks (consumed ++ chunks.flatten) (items ++ delivered) (kept final) := by
  induction chunks generalizing connection consumed items with
  | nil =>
      refine ⟨some connection, [], rfl, ?_⟩
      rw [List.flatten_nil, List.append_nil, List.append_nil]
      exact tracks
  | cons chunk chunks inductionHypothesis =>
      rw [List.flatten_cons, ← List.append_assoc]
      rcases inputNotify_spec pending (readable chunk List.mem_cons_self) with
        ⟨after, packets, notified, parses, afterPending⟩ | ⟨notified, malformed⟩
      · obtain ⟨final, delivered, run, finalTracks⟩ := inductionHypothesis
          (fun other member => readable other (List.mem_cons_of_mem _ member))
          after afterPending (tracks.receive parses)
        refine ⟨final, packets ++ delivered, ?_, ?_⟩
        · rw [receive, notified, Option.bind_some]
          simp only [run, Option.map_some]
        · rw [← List.append_assoc]
          exact finalTracks
      · refine ⟨none, [], ?_, ?_⟩
        · rw [receive, notified, Option.bind_some]
        · rw [List.append_nil]
          exact (tracks.close malformed).ignore chunks.flatten

/-- Two ways of cutting one stream into reads deliver the same requests. -/
theorem delivery_independent_of_reads (fd : Int) {first second : List (List UInt8)}
    (firstReadable : ∀ chunk ∈ first, Readable chunk)
    (secondReadable : ∀ chunk ∈ second, Readable chunk)
    (sameStream : first.flatten = second.flatten) :
    ∃ firstEnd secondEnd delivered,
      receive first (CConnection.new fd) = some (firstEnd, delivered) ∧
        receive second (CConnection.new fd) = some (secondEnd, delivered) := by
  obtain ⟨firstEnd, delivered, firstRun, firstTracks⟩ :=
    receive_tracks first firstReadable (CConnection.new fd) pending_new Format.Tracks.start
  obtain ⟨secondEnd, otherDelivered, secondRun, secondTracks⟩ :=
    receive_tracks second secondReadable (CConnection.new fd) pending_new Format.Tracks.start
  rw [sameStream] at firstTracks
  have same : delivered = otherDelivered := firstTracks.items_unique secondTracks
  exact ⟨firstEnd, secondEnd, delivered, firstRun, same ▸ secondRun⟩

/-- A request cut inside its header, and followed by a malformed one. -/
theorem delivery_of_split_request :
    ∃ firstEnd secondEnd delivered,
      receive [[0xFD, 0xFC, 0], [1, 0, 0, 0, 1, 0x61], [0, 0, 0, 0, 0, 0, 0, 0]]
          (CConnection.new 5) = some (firstEnd, delivered) ∧
        receive [[0xFD, 0xFC, 0, 1, 0, 0, 0, 1], [0x61, 0, 0, 0, 0, 0, 0, 0, 0]]
          (CConnection.new 5) = some (secondEnd, delivered) :=
  delivery_independent_of_reads 5 (by decide) (by decide) (by decide)

end NginxFastcgi.Service.CTcpConnection
