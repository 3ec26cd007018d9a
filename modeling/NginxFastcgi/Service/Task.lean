import NginxFastcgi.Service.Dispatcher
import NginxFastcgi.Service.RequestPacket
import NginxFastcgi.Service.ResponsePacket

/-!
# `CTask`, one request on its way

A task holds the request, the response being prepared and the connection to
answer on.  The response header starts as a copy of the decoded request
header, whose fields are in host order; only the length is set in network
order.
-/

namespace NginxFastcgi.Service

open NginxFastcgi.Network

/-- The identity of a connection object; an object created later has another. -/
abbrev ConnectionId := Nat

/-- The reply dispatchers of the service: the static `gs_client_reply`, and the
pipe between the client process and the work process. -/
inductive ReplyDispatcher
  | clientReply
  | taskPipe
  deriving DecidableEq

structure CTask where
  /-- `none` is `NULL`. -/
  mConnection : Option ConnectionId := none
  mReqPacket : Option CRequestPacket := none
  mResPacket : CResponsePacket := {}
  replyList : CTaskReplyList ReplyDispatcher := []
  deriving DecidableEq

namespace CTask

def setConnection (task : CTask) (connection : ConnectionId) : CTask :=
  { task with mConnection := some connection }

def getConnection (task : CTask) : Option ConnectionId :=
  task.mConnection

def pushReplyDispatcher (task : CTask) (proc : ReplyDispatcher) : CTask :=
  { task with replyList := (task.replyList.pushReplyDispatcher (some proc)).2 }

def setRequestPacket (task : CTask) (reqPacket : CRequestPacket) : CTask :=
  { task with
    mReqPacket := some reqPacket
    mResPacket :=
      { task.mResPacket with mHeader := { reqPacket.mHeader with dataLength := 0 } } }

def setResponseBody (task : CTask) (body : List UInt8) (length : UInt32) : CTask :=
  { task with
    mResPacket :=
      { mHeader := { task.mResPacket.mHeader with dataLength := htonl length }
        mBody := some body } }

def getResponsePacket (task : CTask) : CResponsePacket :=
  task.mResPacket

/-- The response a worker prepares for a request. -/
def respond (task : CTask) (request : CRequestPacket) (body : List UInt8) : CResponsePacket :=
  ((task.setRequestPacket request).setResponseBody body
    (UInt32.ofNat body.length)).getResponsePacket

section Respond

variable (task : CTask) (request : CRequestPacket) (body : List UInt8)

theorem bodyLength_respond (fits : body.length < 2 ^ 32) :
    (task.respond request body).bodyLength = body.length := by
  have lengthEq : (task.respond request body).mHeader.dataLength =
      htonl (UInt32.ofNat body.length) := rfl
  rw [CResponsePacket.bodyLength, lengthEq, ntohl_htonl, UInt32.toNat_ofNat_of_lt' fits]

theorem respond_valid (fits : body.length < 2 ^ 32) : (task.respond request body).Valid :=
  Nat.le_of_eq (bodyLength_respond task request body fits)

end Respond

/-! ## Requests and responses on the wire -/

/-- `wire` holds exactly one packet for the protocol's decoder: magic, command
and length in the header, the body behind it, and nothing left over. -/
def ReadsBack (wire : CBuffers) (cmd : UInt16) (body : List UInt8) : Prop :=
  let header := CRequestPacket.decodeHeader {} wire 0
  let decoded := header.2.decodeBody wire header.1.toNat header.2.mHeader.dataLength
  header.1 = ProtocolHeader.size ∧ header.2.mHeader.magic = kProtocolMagic ∧
    header.2.mHeader.cmd = cmd ∧ header.2.mHeader.dataLength.toNat = body.length ∧
    decoded.1 = body.length ∧ decoded.2.mBody = some body ∧
    wire.bytes.length = ProtocolHeader.size + body.length

instance (wire : CBuffers) (cmd : UInt16) (body : List UInt8) :
    Decidable (ReadsBack wire cmd body) :=
  inferInstanceAs (Decidable (_ ∧ _))

/-- The bytes `Encode` appends to the send buffers for a response. -/
def appendedBytes (task : CTask) (request : CRequestPacket) (body : List UInt8)
    (sendBuffers : CBuffers) : List UInt8 :=
  ((task.respond request body).encode sendBuffers).1.bytes.drop sendBuffers.bytes.length

/-- The magic of every encoded response is in the order of the host, so the
protocol's decoder rejects the header. -/
theorem response_never_reads_back {packet : CRequestPacket} {buffers : CBuffers} {pos : Nat}
    (decoded : 0 < (packet.decode buffers pos).1) (task : CTask) {body : List UInt8}
    (fits : body.length < 2 ^ 32) (sendBuffers : CBuffers)
    {wire : CBuffers} (valid : wire.Valid)
    (holds : wire.bytes =
      task.appendedBytes (packet.decode buffers pos).2 body sendBuffers) :
    ¬ ReadsBack wire (packet.decode buffers pos).2.mHeader.cmd body := by
  have accepted := CRequestPacket.accepted_of_decode_pos decoded
  generalize (packet.decode buffers pos).2 = request at holds accepted ⊢
  have bytesEq : wire.bytes = (task.respond request body).encoding := by
    rw [holds, appendedBytes, CResponsePacket.bytes_encode (respond_valid task request body fits),
      List.drop_left]
  have magicHost : (task.respond request body).mHeader.magic = kProtocolMagic := by
    by_contra different
    exact accepted (Or.inl (Ne.symm different))
  have rejected : (CRequestPacket.wireHeader wire.bytes).Rejected := by
    left
    rw [bytesEq, CRequestPacket.wireHeader, CResponsePacket.wireHeader_encoding]
    change kProtocolMagic ≠ ntohs (task.respond request body).mHeader.magic
    rw [magicHost]
    decide
  have present : ProtocolHeader.size ≤ (wire.bytes.drop 0).length := by
    rw [List.drop_zero, bytesEq, CResponsePacket.encoding, List.length_append,
      ProtocolHeader.length_toBytes]
    exact Nat.le_add_right _ _
  have header := CRequestPacket.decodeHeader_whole valid {} present
  rw [List.drop_zero, if_pos rejected] at header
  rintro ⟨success, -⟩
  rw [header] at success
  have impossible : (-1 : Int) = ProtocolHeader.size := success
  exact absurd impossible (by decide)

/-- The response to a one-byte request, as it goes on the wire. -/
def sampleWire : CBuffers :=
  CBuffers.new.pushBack (some ((CBuffer.new 10).setData
    [0xFC, 0xFD, 0x01, 0x00, 0x00, 0x00, 0x00, 0x02, 0x7B, 0x7D] 10))

theorem sampleWire_valid : sampleWire.Valid :=
  CBuffers.new_valid.pushBack
    (CBuffer.setData_valid (CBuffer.new_valid (by decide)) (by decide) (by decide)) (by decide)

/-- A decoded request of command `CT_A` answered with two bytes: the appended
bytes start with `FC FD`. -/
theorem sampleWire_unreadable :
    0 < (CRequestPacket.decode {} CRequestPacket.oneByteRequest 0).1 ∧
      sampleWire.Valid ∧
      sampleWire.bytes = appendedBytes {}
        (CRequestPacket.decode {} CRequestPacket.oneByteRequest 0).2 [0x7B, 0x7D]
        CBuffers.new ∧
      ¬ ReadsBack sampleWire
        (CRequestPacket.decode {} CRequestPacket.oneByteRequest 0).2.mHeader.cmd
        [0x7B, 0x7D] :=
  ⟨by decide, sampleWire_valid, by decide, by decide⟩

theorem sampleWire_never_reads_back :
    ¬ ReadsBack sampleWire
      (CRequestPacket.decode {} CRequestPacket.oneByteRequest 0).2.mHeader.cmd [0x7B, 0x7D] :=
  response_never_reads_back (by decide) {} (by decide) CBuffers.new sampleWire_valid (by decide)

end CTask

end NginxFastcgi.Service
