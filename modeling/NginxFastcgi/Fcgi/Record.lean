import NginxFastcgi.Foundation.ByteOrder
import NginxFastcgi.Foundation.Framing
import NginxFastcgi.Foundation.MachineInt

/-!
# FastCGI records

A record is an eight-byte header, the content whose length the header gives,
and padding.  Lengths and the request id are in network order.  The first half
of the file follows `fastcgi.h` and the functions that fill its structures; the
second half states the wire format on its own, as a framed stream.
-/

namespace NginxFastcgi.Fcgi

open Foundation.ByteOrder
open Foundation.Framing
open Foundation.MachineInt

def fcgiVersion1 : UInt8 := 1
def fcgiBeginRequest : UInt8 := 1
def fcgiEndRequest : UInt8 := 3
def fcgiParams : UInt8 := 4
def fcgiStdin : UInt8 := 5
def fcgiStdout : UInt8 := 6
def fcgiStderr : UInt8 := 7
def fcgiData : UInt8 := 8
def fcgiGetValues : UInt8 := 9
def fcgiGetValuesResult : UInt8 := 10
def fcgiUnknownType : UInt8 := 11

def fcgiMaxLength : Nat := 0xffff
def fcgiHeaderLen : Nat := 8
def fcgiNullRequestId : Nat := 0

def fcgiKeepConn : UInt8 := 1

def fcgiResponder : Nat := 1
def fcgiAuthorizer : Nat := 2
def fcgiFilter : Nat := 3

def fcgiRequestComplete : UInt8 := 0
def fcgiCantMpxConn : UInt8 := 1

/-- `FCGI_Header`. -/
structure FCGIHeader where
  version : UInt8
  type : UInt8
  requestIdB1 : UInt8
  requestIdB0 : UInt8
  contentLengthB1 : UInt8
  contentLengthB0 : UInt8
  paddingLength : UInt8
  reserved : UInt8
  deriving DecidableEq

/-- Two bytes of a network-order number, as every reader puts them together. -/
def joinBytes (high low : UInt8) : Nat :=
  high.toNat <<< 8 + low.toNat

theorem joinBytes_lt (high low : UInt8) : joinBytes high low < 65536 := by
  have highLt := high.toNat_lt
  have lowLt := low.toNat_lt
  simp only [joinBytes, Nat.shiftLeft_eq]
  omega

theorem joinBytes_split {value : Nat} (fits : value < 65536) :
    joinBytes (UInt8.ofNat (value >>> 8)) (UInt8.ofNat value) = value := by
  simp only [joinBytes, Nat.shiftLeft_eq, Nat.shiftRight_eq_div_pow, UInt8.toNat_ofNat']
  omega

namespace FCGIHeader

/-- The structure in memory. -/
def bytes (header : FCGIHeader) : List UInt8 :=
  [header.version, header.type, header.requestIdB1, header.requestIdB0, header.contentLengthB1,
    header.contentLengthB0, header.paddingLength, header.reserved]

/-- The structure after its bytes were copied in. -/
def ofBytes (memory : List UInt8) : FCGIHeader where
  version := memory.getD 0 0
  type := memory.getD 1 0
  requestIdB1 := memory.getD 2 0
  requestIdB0 := memory.getD 3 0
  contentLengthB1 := memory.getD 4 0
  contentLengthB0 := memory.getD 5 0
  paddingLength := memory.getD 6 0
  reserved := memory.getD 7 0

def requestId (header : FCGIHeader) : Nat :=
  joinBytes header.requestIdB1 header.requestIdB0

def contentLength (header : FCGIHeader) : Nat :=
  joinBytes header.contentLengthB1 header.contentLengthB0

@[simp]
theorem length_bytes (header : FCGIHeader) : header.bytes.length = 8 :=
  rfl

@[simp]
theorem ofBytes_bytes (header : FCGIHeader) : ofBytes header.bytes = header :=
  rfl

theorem ofBytes_bytes_append (header : FCGIHeader) (more : List UInt8) :
    ofBytes (header.bytes ++ more) = header :=
  rfl

end FCGIHeader

/-- `MakeHeader`. -/
def makeHeader (type : UInt8) (requestId contentLength paddingLength : Nat) : FCGIHeader where
  version := fcgiVersion1
  type := type
  requestIdB1 := UInt8.ofNat (requestId >>> 8)
  requestIdB0 := UInt8.ofNat requestId
  contentLengthB1 := UInt8.ofNat (contentLength >>> 8)
  contentLengthB0 := UInt8.ofNat contentLength
  paddingLength := UInt8.ofNat paddingLength
  reserved := 0

section MakeHeader

variable (type : UInt8) {requestId contentLength paddingLength : Nat}

theorem requestId_makeHeader (fits : requestId < 65536) (contentLength paddingLength : Nat) :
    (makeHeader type requestId contentLength paddingLength).requestId = requestId :=
  joinBytes_split fits

theorem contentLength_makeHeader (requestId : Nat) (fits : contentLength ≤ fcgiMaxLength)
    (paddingLength : Nat) :
    (makeHeader type requestId contentLength paddingLength).contentLength = contentLength :=
  joinBytes_split (Nat.lt_succ_of_le fits)

theorem paddingLength_makeHeader (requestId contentLength : Nat) (fits : paddingLength < 256) :
    (makeHeader type requestId contentLength paddingLength).paddingLength.toNat =
      paddingLength := by
  rw [makeHeader, UInt8.toNat_ofNat']
  exact Nat.mod_eq_of_lt fits

end MakeHeader

/-! ## Bodies -/

/-- `FCGI_EndRequestBody`. -/
structure FCGIEndRequestBody where
  appStatusB3 : UInt8
  appStatusB2 : UInt8
  appStatusB1 : UInt8
  appStatusB0 : UInt8
  protocolStatus : UInt8
  reserved : List UInt8
  deriving DecidableEq

namespace FCGIEndRequestBody

def bytes (body : FCGIEndRequestBody) : List UInt8 :=
  [body.appStatusB3, body.appStatusB2, body.appStatusB1, body.appStatusB0, body.protocolStatus] ++
    body.reserved

end FCGIEndRequestBody

/-- `MakeEndRequestBody`. -/
def makeEndRequestBody (appStatus : Int) (protocolStatus : UInt8) : FCGIEndRequestBody where
  appStatusB3 := UInt8.ofInt (appStatus >>> (24 : Nat))
  appStatusB2 := UInt8.ofInt (appStatus >>> (16 : Nat))
  appStatusB1 := UInt8.ofInt (appStatus >>> (8 : Nat))
  appStatusB0 := UInt8.ofInt appStatus
  protocolStatus := protocolStatus
  reserved := [0, 0, 0]

@[simp]
theorem length_bytes_makeEndRequestBody (appStatus : Int) (protocolStatus : UInt8) :
    (makeEndRequestBody appStatus protocolStatus).bytes.length = 8 :=
  rfl

/-- `FCGI_UnknownTypeBody`, made by `MakeUnknownTypeBody`. -/
def makeUnknownTypeBody (type : UInt8) : List UInt8 :=
  [type, 0, 0, 0, 0, 0, 0, 0]

/-- `FCGI_BeginRequestBody`. -/
structure FCGIBeginRequestBody where
  roleB1 : UInt8
  roleB0 : UInt8
  flags : UInt8
  reserved : List UInt8
  deriving DecidableEq

namespace FCGIBeginRequestBody

/-- The structure after its bytes were copied in. -/
def ofBytes (memory : List UInt8) : FCGIBeginRequestBody where
  roleB1 := memory.getD 0 0
  roleB0 := memory.getD 1 0
  flags := memory.getD 2 0
  reserved := memory.drop 3

end FCGIBeginRequestBody

/-- `AlignInt8`. -/
def alignInt8 (n : Nat) : Nat :=
  (n + 7) % 2 ^ 32 &&& (2 ^ 32 - 1 - 7)

theorem alignInt8_eq {n : Nat} (fits : n + 7 < 2 ^ 32) : alignInt8 n = (n + 7) / 8 * 8 := by
  rw [alignInt8, Nat.mod_eq_of_lt fits]
  apply Nat.eq_of_testBit_eq
  intro bit
  have low : Nat.testBit 7 bit = decide (bit < 3) := Nat.testBit_two_pow_sub_one 3 bit
  have shifted : (n + 7) / 8 * 8 = ((n + 7) >>> 3) <<< 3 := by
    rw [Nat.shiftLeft_eq, Nat.shiftRight_eq_div_pow]
  rw [show 2 ^ 32 - 1 - 7 = 2 ^ 32 - (7 + 1) from rfl, Nat.testBit_and,
    Nat.testBit_two_pow_sub_succ (by decide), low, shifted, Nat.testBit_shiftLeft,
    Nat.testBit_shiftRight]
  by_cases small : bit < 3
  · simp [small]
  · by_cases large : bit < 32
    · simp [small, large, Nat.le_of_not_lt small]
    · have beyond : (n + 7).testBit bit = false := by
        apply Nat.testBit_lt_two_pow
        exact Nat.lt_of_lt_of_le fits (Nat.pow_le_pow_right (by decide) (Nat.le_of_not_lt large))
      simp [small, large, Nat.le_of_not_lt small, beyond]

theorem le_alignInt8 {n : Nat} (fits : n + 7 < 2 ^ 32) : n ≤ alignInt8 n := by
  rw [alignInt8_eq fits]
  omega

theorem alignInt8_lt {n : Nat} (fits : n + 7 < 2 ^ 32) : alignInt8 n < n + 8 := by
  rw [alignInt8_eq fits]
  omega

theorem dvd_alignInt8 {n : Nat} (fits : n + 7 < 2 ^ 32) : 8 ∣ alignInt8 n := by
  rw [alignInt8_eq fits]
  exact Nat.dvd_mul_left _ _

/-- Aligning does not leave a range that is a multiple of 8 long. -/
theorem alignInt8_le {n limit : Nat} (fits : n + 7 < 2 ^ 32) (aligned : 8 ∣ limit)
    (within : n ≤ limit) : alignInt8 n ≤ limit := by
  obtain ⟨count, rfl⟩ := aligned
  rw [alignInt8_eq fits]
  omega

/-! ## The wire format -/

/-- A record with the bounds its header can express. -/
structure Record where
  type : UInt8
  requestId : Nat
  content : List UInt8
  padding : List UInt8
  requestId_lt : requestId < 65536
  content_le : content.length ≤ fcgiMaxLength
  padding_lt : padding.length < 256
  deriving DecidableEq

namespace Record

/-- No content and no padding fit into every record. -/
theorem empty_le : ([] : List UInt8).length ≤ fcgiMaxLength :=
  Nat.zero_le _

theorem empty_lt : ([] : List UInt8).length < 256 :=
  Nat.zero_lt_succ _

theorem nullRequestId_lt : fcgiNullRequestId < 65536 :=
  Nat.zero_lt_succ _

def header (record : Record) : FCGIHeader :=
  makeHeader record.type record.requestId record.content.length record.padding.length

/-- The record on the wire. -/
def bytes (record : Record) : List UInt8 :=
  record.header.bytes ++ (record.content ++ record.padding)

theorem length_bytes (record : Record) :
    record.bytes.length = 8 + (record.content.length + record.padding.length) := by
  simp [bytes]

@[simp]
theorem version_header (record : Record) : record.header.version = fcgiVersion1 :=
  rfl

@[simp]
theorem type_header (record : Record) : record.header.type = record.type :=
  rfl

@[simp]
theorem requestId_header (record : Record) : record.header.requestId = record.requestId :=
  requestId_makeHeader _ record.requestId_lt _ _

@[simp]
theorem contentLength_header (record : Record) :
    record.header.contentLength = record.content.length :=
  contentLength_makeHeader _ _ record.content_le _

@[simp]
theorem paddingLength_header (record : Record) :
    record.header.paddingLength.toNat = record.padding.length :=
  paddingLength_makeHeader _ _ _ record.padding_lt

theorem ofBytes_bytes_append (record : Record) (more : List UInt8) :
    FCGIHeader.ofBytes (record.bytes ++ more) = record.header :=
  rfl

/-- The record in front of some bytes, for a header of version 1. -/
def ofFront (input : List UInt8) : Record where
  type := (FCGIHeader.ofBytes input).type
  requestId := (FCGIHeader.ofBytes input).requestId
  content := (input.drop 8).take (FCGIHeader.ofBytes input).contentLength
  padding := (input.drop (8 + (FCGIHeader.ofBytes input).contentLength)).take
    (FCGIHeader.ofBytes input).paddingLength.toNat
  requestId_lt := joinBytes_lt _ _
  content_le := (List.length_take_le _ _).trans (Nat.le_of_lt_succ (joinBytes_lt _ _))
  padding_lt := Nat.lt_of_le_of_lt (List.length_take_le _ _) (UInt8.toNat_lt _)

theorem ext_fields {first second : Record} (type : first.type = second.type)
    (requestId : first.requestId = second.requestId) (content : first.content = second.content)
    (padding : first.padding = second.padding) : first = second := by
  cases first
  cases second
  simp only at type requestId content padding
  simp only [type, requestId, content, padding]

theorem ofFront_bytes_append (record : Record) (more : List UInt8) :
    ofFront (record.bytes ++ more) = record := by
  have behind : (record.bytes ++ more).drop 8 = record.content ++ (record.padding ++ more) := by
    rw [bytes, List.append_assoc, List.append_assoc]
    rfl
  have content : (ofFront (record.bytes ++ more)).content = record.content := by
    change ((record.bytes ++ more).drop 8).take record.header.contentLength = _
    rw [behind, contentLength_header, List.take_left]
  have padding : (ofFront (record.bytes ++ more)).padding = record.padding := by
    change ((record.bytes ++ more).drop (8 + record.header.contentLength)).take
      record.header.paddingLength.toNat = _
    rw [← List.drop_drop, behind, contentLength_header, List.drop_left, paddingLength_header,
      List.take_left]
  exact ext_fields rfl (requestId_header record) content padding

end Record

/-- The record that ends a request. -/
def endRequestRecord (requestId : Nat) (fits : requestId < 65536) (appStatus : Int)
    (protocolStatus : UInt8) : Record where
  type := fcgiEndRequest
  requestId := requestId
  content := (makeEndRequestBody appStatus protocolStatus).bytes
  padding := []
  requestId_lt := fits
  content_le := by simp [fcgiMaxLength]
  padding_lt := Record.empty_lt

/-- The answer to a management record of an unknown type. -/
def unknownTypeRecord (type : UInt8) : Record where
  type := fcgiUnknownType
  requestId := fcgiNullRequestId
  content := makeUnknownTypeBody type
  padding := []
  requestId_lt := Record.nullRequestId_lt
  content_le := by simp [fcgiMaxLength, makeUnknownTypeBody]
  padding_lt := Record.empty_lt

/-- A record without padding. -/
def plainRecord (type : UInt8) (requestId : Nat) (content : List UInt8)
    (fits : requestId < 65536) (short : content.length ≤ fcgiMaxLength) : Record where
  type := type
  requestId := requestId
  content := content
  padding := []
  requestId_lt := fits
  content_le := short
  padding_lt := Record.empty_lt

/-- What the front of the bytes of a connection is. -/
def nextRecord (input : List UInt8) : Outcome Record :=
  if input.length < 8 then
    .incomplete
  else if (FCGIHeader.ofBytes input).version ≠ fcgiVersion1 then
    .malformed
  else if input.length < 8 + ((FCGIHeader.ofBytes input).contentLength +
      (FCGIHeader.ofBytes input).paddingLength.toNat) then
    .incomplete
  else
    .frame (Record.ofFront input)
      (8 + ((FCGIHeader.ofBytes input).contentLength +
        (FCGIHeader.ofBytes input).paddingLength.toNat))

section NextRecord

variable {input : List UInt8}

theorem ofBytes_append (whole : 8 ≤ input.length) (more : List UInt8) :
    FCGIHeader.ofBytes (input ++ more) = FCGIHeader.ofBytes input := by
  match input, whole with
  | _ :: _ :: _ :: _ :: _ :: _ :: _ :: _ :: _, _ => rfl

theorem nextRecord_eq_frame {record : Record} {size : Nat} :
    nextRecord input = .frame record size ↔
      8 ≤ input.length ∧ (FCGIHeader.ofBytes input).version = fcgiVersion1 ∧
        size ≤ input.length ∧ record = Record.ofFront input ∧
        size = 8 + ((FCGIHeader.ofBytes input).contentLength +
          (FCGIHeader.ofBytes input).paddingLength.toNat) := by
  unfold nextRecord
  split
  · rename_i short
    simp [Nat.not_le_of_lt short]
  · rename_i whole
    split
    · rename_i other
      simp [other]
    · rename_i version
      split
      · rename_i short
        constructor
        · intro same
          cases same
        · rintro ⟨-, -, inside, -, rfl⟩
          exact absurd inside (Nat.not_le_of_lt short)
      · rename_i long
        constructor
        · intro same
          cases same
          exact ⟨Nat.le_of_not_lt whole, Decidable.not_not.mp version, Nat.le_of_not_lt long,
            rfl, rfl⟩
        · rintro ⟨-, -, -, rfl, rfl⟩
          rfl

theorem nextRecord_eq_malformed :
    nextRecord input = .malformed ↔
      8 ≤ input.length ∧ (FCGIHeader.ofBytes input).version ≠ fcgiVersion1 := by
  unfold nextRecord
  split
  · rename_i short
    simp [Nat.not_le_of_lt short]
  · rename_i whole
    split
    · rename_i other
      simp [other, Nat.le_of_not_lt whole]
    · rename_i version
      split <;> simp [Decidable.not_not.mp version]

/-- The front of a record is that record. -/
theorem ofFront_append (whole : 8 ≤ input.length)
    (inside : 8 + ((FCGIHeader.ofBytes input).contentLength +
      (FCGIHeader.ofBytes input).paddingLength.toNat) ≤ input.length) (more : List UInt8) :
    Record.ofFront (input ++ more) = Record.ofFront input := by
  have header := ofBytes_append whole more
  have content : ∀ count offset, offset + count ≤ input.length →
      ((input ++ more).drop offset).take count = (input.drop offset).take count := by
    intro count offset within
    rw [List.drop_append_of_le_length (Nat.le_of_add_right_le within),
      List.take_append_of_le_length]
    rw [List.length_drop]
    exact Nat.le_sub_of_add_le' within
  apply Record.ext_fields
  · simp only [Record.ofFront, header]
  · simp only [Record.ofFront, header]
  · simp only [Record.ofFront, header]
    exact content _ _ (by omega)
  · simp only [Record.ofFront, header]
    exact content _ _ (by omega)

end NextRecord

/-- The records of a connection as a framed stream. -/
def recordFormat : Format UInt8 Record where
  next := nextRecord
  size_pos := by
    intro input record size nextEq
    obtain ⟨-, -, -, -, rfl⟩ := nextRecord_eq_frame.mp nextEq
    exact Nat.add_pos_left (by decide) _
  size_le := by
    intro input record size nextEq
    exact (nextRecord_eq_frame.mp nextEq).2.2.1
  frame_append := by
    intro input record size more nextEq
    obtain ⟨whole, version, inside, rfl, rfl⟩ := nextRecord_eq_frame.mp nextEq
    have header := ofBytes_append whole more
    apply nextRecord_eq_frame.mpr
    rw [header, ofFront_append whole inside, List.length_append]
    exact ⟨Nat.le_add_right_of_le whole, version, Nat.le_add_right_of_le inside, rfl, rfl⟩
  malformed_append := by
    intro input more nextEq
    obtain ⟨whole, version⟩ := nextRecord_eq_malformed.mp nextEq
    apply nextRecord_eq_malformed.mpr
    rw [ofBytes_append whole, List.length_append]
    exact ⟨Nat.le_add_right_of_le whole, version⟩

/-- The bytes of several records. -/
def wire (records : List Record) : List UInt8 :=
  records.flatMap Record.bytes

@[simp]
theorem wire_nil : wire [] = [] :=
  rfl

@[simp]
theorem wire_cons (record : Record) (records : List Record) :
    wire (record :: records) = record.bytes ++ wire records :=
  rfl

@[simp]
theorem wire_singleton (record : Record) : wire [record] = record.bytes :=
  List.append_nil _

@[simp]
theorem wire_append (first second : List Record) :
    wire (first ++ second) = wire first ++ wire second :=
  List.flatMap_append

theorem nextRecord_bytes (record : Record) (more : List UInt8) :
    nextRecord (record.bytes ++ more) = .frame record record.bytes.length := by
  apply nextRecord_eq_frame.mpr
  rw [Record.ofBytes_bytes_append, Record.ofFront_bytes_append, Record.contentLength_header,
    Record.paddingLength_header, List.length_append, Record.length_bytes]
  exact ⟨by omega, rfl, Nat.le_add_right _ _, rfl, rfl⟩

/-- The bytes of records are cut back into these records. -/
theorem parses_wire (records : List Record) : recordFormat.Parses (wire records) records [] := by
  induction records with
  | nil => exact .stop Format.stuck_nil
  | cons record records inductionHypothesis =>
      apply Format.Parses.frame (nextRecord_bytes record (wire records))
      rw [wire_cons, List.drop_left]
      exact inductionHypothesis

/-- What is on the wire determines the records. -/
theorem wire_injective : Function.Injective wire := by
  intro first second same
  have parsed := parses_wire second
  rw [← same] at parsed
  exact ((parses_wire first).unique parsed).1

end NginxFastcgi.Fcgi
