import NginxFastcgi.Foundation.ByteOrder
import NginxFastcgi.Foundation.Memory

/-!
# The protocol header

A packet starts with an eight-byte header: magic, command and body length, all
in network order.  In memory the header is a structure in the order of the
host, which is little-endian here; the `ntohs` family swaps each field.
-/

namespace NginxFastcgi.Service

open Foundation.ByteOrder
open Foundation.Memory

def kProtocolMagic : UInt16 := 0xFDFC

inductive CmdType
  | CT_MIN
  | CT_A
  | CT_B
  | CT_C
  | CT_D
  | CT_MAX
  deriving DecidableEq

/-- The integer value of an enumerator. -/
def CmdType.value : CmdType → UInt16
  | CT_MIN => 0
  | CT_A => 1
  | CT_B => 2
  | CT_C => 3
  | CT_D => 4
  | CT_MAX => 5

def ntohs (value : UInt16) : UInt16 :=
  UInt16.ofNat (byteSwap 2 value.toNat)

def ntohl (value : UInt32) : UInt32 :=
  UInt32.ofNat (byteSwap 4 value.toNat)

def htonl (value : UInt32) : UInt32 :=
  UInt32.ofNat (byteSwap 4 value.toNat)

theorem toNat_htonl (value : UInt32) : (htonl value).toNat = byteSwap 4 value.toNat := by
  have bounded := byteSwap_lt 4 value.toNat
  rw [htonl, UInt32.toNat_ofNat']
  exact Nat.mod_eq_of_lt bounded

@[simp]
theorem ntohl_htonl (value : UInt32) : ntohl (htonl value) = value := by
  apply UInt32.toNat_inj.mp
  have bounded : value.toNat < 256 ^ 4 := value.toNat_lt
  rw [ntohl, UInt32.toNat_ofNat', toNat_htonl, byteSwap_byteSwap bounded]
  exact Nat.mod_eq_of_lt bounded

/-- The default member initialisers are those of the constructor. -/
structure ProtocolHeader where
  magic : UInt16 := kProtocolMagic
  cmd : UInt16 := CmdType.CT_MIN.value
  dataLength : UInt32 := 0
  deriving DecidableEq

namespace ProtocolHeader

/-- `sizeof(ProtocolHeader)`. -/
def size : Nat := 8

/-- The eight bytes of the structure in memory. -/
def toBytes (header : ProtocolHeader) : List UInt8 :=
  littleEndian 2 header.magic.toNat ++ littleEndian 2 header.cmd.toNat ++
    littleEndian 4 header.dataLength.toNat

/-- The structure found in eight bytes of memory. -/
def ofBytes (memory : List UInt8) : ProtocolHeader where
  magic := UInt16.ofNat (ofLittleEndian (slice memory 0 2))
  cmd := UInt16.ofNat (ofLittleEndian (slice memory 2 2))
  dataLength := UInt32.ofNat (ofLittleEndian (slice memory 4 4))

/-- The structure after bytes were copied to its address. -/
def overwrite (header : ProtocolHeader) (bytes : List UInt8) : ProtocolHeader :=
  ofBytes (blit header.toBytes 0 bytes)

/-- Each field converted from network to host order. -/
def toHost (header : ProtocolHeader) : ProtocolHeader where
  magic := ntohs header.magic
  cmd := ntohs header.cmd
  dataLength := ntohl header.dataLength

/-- The fields of eight bytes in network order. -/
def ofNetwork (wire : List UInt8) : ProtocolHeader where
  magic := UInt16.ofNat (ofBigEndian (slice wire 0 2))
  cmd := UInt16.ofNat (ofBigEndian (slice wire 2 2))
  dataLength := UInt32.ofNat (ofBigEndian (slice wire 4 4))

/-- The test after which `DecodeHeader` gives up. -/
def Rejected (header : ProtocolHeader) : Prop :=
  kProtocolMagic ≠ header.magic ∨ header.cmd ≤ CmdType.CT_MIN.value ∨
    header.cmd ≥ CmdType.CT_MAX.value

instance (header : ProtocolHeader) : Decidable header.Rejected :=
  inferInstanceAs (Decidable (_ ∨ _))

@[simp]
theorem length_toBytes (header : ProtocolHeader) : header.toBytes.length = size := by
  simp [toBytes, size]

/-- Copying a whole header replaces every byte of the structure. -/
theorem overwrite_eq_ofBytes (header : ProtocolHeader) {bytes : List UInt8}
    (whole : bytes.length = size) : header.overwrite bytes = ofBytes bytes := by
  have nothingLeft : header.toBytes.drop (0 + bytes.length) = [] := by
    rw [Nat.zero_add, whole]
    exact List.drop_eq_nil_of_le (Nat.le_of_eq header.length_toBytes)
  rw [overwrite, blit, nothingLeft, List.take_zero, List.nil_append, List.append_nil]

theorem ntohs_ofLittleEndian {bytes : List UInt8} (width : bytes.length = 2) :
    ntohs (UInt16.ofNat (ofLittleEndian bytes)) = UInt16.ofNat (ofBigEndian bytes) := by
  have bounded : ofLittleEndian bytes < 2 ^ 16 := by
    simpa [width] using ofLittleEndian_lt bytes
  have swapped := byteSwap_ofLittleEndian bytes
  rw [width] at swapped
  rw [ntohs, UInt16.toNat_ofNat_of_lt' bounded, swapped]

theorem ntohl_ofLittleEndian {bytes : List UInt8} (width : bytes.length = 4) :
    ntohl (UInt32.ofNat (ofLittleEndian bytes)) = UInt32.ofNat (ofBigEndian bytes) := by
  have bounded : ofLittleEndian bytes < 2 ^ 32 := by
    simpa [width] using ofLittleEndian_lt bytes
  have swapped := byteSwap_ofLittleEndian bytes
  rw [width] at swapped
  rw [ntohl, UInt32.toNat_ofNat_of_lt' bounded, swapped]

/-- A header copied from the wire and converted has the fields of the wire. -/
theorem toHost_ofBytes {wire : List UInt8} (whole : wire.length = size) :
    (ofBytes wire).toHost = ofNetwork wire := by
  have eight : wire.length = 8 := whole
  rw [ofNetwork, toHost, ofBytes,
    ntohs_ofLittleEndian (length_slice wire (by omega)),
    ntohs_ofLittleEndian (length_slice wire (by omega)),
    ntohl_ofLittleEndian (length_slice wire (by omega))]

/-- Read off the wire, a header dumped from memory has every field swapped. -/
theorem ofNetwork_toBytes (header : ProtocolHeader) :
    ofNetwork header.toBytes = header.toHost := by
  rcases header with ⟨magic, cmd, dataLength⟩
  have magicBytes : slice (toBytes ⟨magic, cmd, dataLength⟩) 0 2 =
      littleEndian 2 magic.toNat := by
    rw [toBytes, List.append_assoc]
    exact List.take_left' (length_littleEndian 2 _)
  have cmdBytes : slice (toBytes ⟨magic, cmd, dataLength⟩) 2 2 = littleEndian 2 cmd.toNat := by
    rw [slice, toBytes, List.append_assoc, List.drop_left' (length_littleEndian 2 _)]
    exact List.take_left' (length_littleEndian 2 _)
  have lengthBytes : slice (toBytes ⟨magic, cmd, dataLength⟩) 4 4 =
      littleEndian 4 dataLength.toNat := by
    have front : (littleEndian 2 magic.toNat ++ littleEndian 2 cmd.toNat).length = 4 := by simp
    rw [slice, toBytes, List.drop_left' front]
    exact List.take_of_length_le (Nat.le_of_eq (length_littleEndian 4 _))
  rw [ofNetwork, magicBytes, cmdBytes, lengthBytes]
  rfl

end ProtocolHeader

end NginxFastcgi.Service
