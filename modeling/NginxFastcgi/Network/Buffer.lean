import NginxFastcgi.Foundation.MachineInt
import NginxFastcgi.Foundation.Memory

/-!
# `CBuffer`, one node of data

A `CBuffer` owns one allocation and two cursors into it.  The data are the
bytes between the cursors; erasing from the front moves the first cursor and
copies nothing.

The cells of a fresh allocation are indeterminate.  The model fills them with
zero; no modelled function reads a cell that was not written before.
-/

namespace NginxFastcgi.Network

open Foundation.MachineInt
open Foundation.Memory

def kDefaultBufferLength : Nat := 1024 * 1024

/-- `new uint8_t[size]`. -/
def allocate (size : Nat) : List UInt8 :=
  List.replicate size 0

@[simp]
theorem length_allocate (size : Nat) : (allocate size).length = size :=
  List.length_replicate

structure CBuffer where
  mBufferLength : Nat
  mDataEnd : Nat
  mDataOffset : Nat
  mData : List UInt8
  deriving DecidableEq

namespace CBuffer

/-- The constructor `CBuffer(size)`. -/
def new (size : Nat) : CBuffer where
  mBufferLength := size
  mDataEnd := 0
  mDataOffset := 0
  mData := allocate size

def bufferLength (buffer : CBuffer) : Nat :=
  buffer.mBufferLength

def dataLength (buffer : CBuffer) : Nat :=
  sub64 buffer.mDataEnd buffer.mDataOffset

/-- `EraseFront` with its return value, the number of bytes erased. -/
def eraseFront (buffer : CBuffer) (count : Nat) : CBuffer × Nat :=
  let eraseSize := if buffer.dataLength ≥ count then count else buffer.dataLength
  ({ buffer with mDataOffset := wrap64 (buffer.mDataOffset + eraseSize) }, eraseSize)

/-- The growing branch of `SetData`: a longer allocation replaces the old one,
whose content is dropped. -/
def reserve (buffer : CBuffer) (length : Nat) : CBuffer :=
  if buffer.bufferLength < length then
    { buffer with mData := allocate length, mBufferLength := length }
  else
    buffer

/-- `SetData(data, length)`; `data` is the memory from the source pointer on. -/
def setData (buffer : CBuffer) (data : List UInt8) (length : Nat) : CBuffer :=
  let buffer := buffer.reserve length
  { buffer with
    mData := blit buffer.mData 0 (data.take length)
    mDataEnd := length
    mDataOffset := 0 }

/-- The memory from the pointer `GetData()` to the end of the allocation. -/
def getData (buffer : CBuffer) : List UInt8 :=
  buffer.mData.drop buffer.mDataOffset

/-- The bytes a node holds: `DataLength()` bytes at `GetData()`. -/
def bytes (buffer : CBuffer) : List UInt8 :=
  buffer.getData.take buffer.dataLength

/-- The cursors are in order and inside the allocation, whose size is a 64-bit
number. -/
structure InOrder (buffer : CBuffer) : Prop where
  offset_le_end : buffer.mDataOffset ≤ buffer.mDataEnd
  end_le_length : buffer.mDataEnd ≤ buffer.mBufferLength
  allocated : buffer.mData.length = buffer.mBufferLength
  length_lt : buffer.mBufferLength < 2 ^ 64

/-- The cursors are in order and inside an allocation that exists.  No array of `2 ^ 63`
bytes can be allocated: a larger `new[]` throws. -/
structure Valid (buffer : CBuffer) : Prop where
  offset_le_end : buffer.mDataOffset ≤ buffer.mDataEnd
  end_le_length : buffer.mDataEnd ≤ buffer.mBufferLength
  allocated : buffer.mData.length = buffer.mBufferLength
  representable : buffer.mBufferLength < 2 ^ 63

/-- Memory read from `GetData() + offset` within the data is that range of the
node's bytes. -/
theorem take_drop_getData (buffer : CBuffer) {offset length : Nat}
    (inside : offset + length ≤ buffer.dataLength) :
    (buffer.getData.drop offset).take length = (buffer.bytes.drop offset).take length := by
  have within : length ≤ buffer.dataLength - offset := by omega
  rw [bytes, List.drop_take, List.take_take, Nat.min_eq_left within]

namespace InOrder

variable {buffer : CBuffer}

theorem dataLength_eq (ordered : buffer.InOrder) :
    buffer.dataLength = buffer.mDataEnd - buffer.mDataOffset := by
  have inside := ordered.end_le_length
  have bounded := ordered.length_lt
  exact sub64_of_le ordered.offset_le_end (by omega)

theorem length_bytes (ordered : buffer.InOrder) : buffer.bytes.length = buffer.dataLength := by
  have inside := ordered.end_le_length
  have lengthEq := ordered.dataLength_eq
  simp only [bytes, getData, List.length_take, List.length_drop, ordered.allocated]
  omega

theorem eraseFront (ordered : buffer.InOrder) (count : Nat) :
    (buffer.eraseFront count).1.InOrder := by
  have offset := ordered.offset_le_end
  have lengthEq := ordered.dataLength_eq
  have moved : wrap64 (buffer.mDataOffset +
      if buffer.dataLength ≥ count then count else buffer.dataLength) ≤ buffer.mDataEnd := by
    refine Nat.le_trans (wrap64_le _) ?_
    split <;> omega
  exact ⟨moved, ordered.end_le_length, ordered.allocated, ordered.length_lt⟩

/-- Erasing drops that many bytes, or all of them. -/
theorem bytes_eraseFront (ordered : buffer.InOrder) (count : Nat) :
    (buffer.eraseFront count).1.bytes = buffer.bytes.drop count := by
  have offset := ordered.offset_le_end
  have inside := ordered.end_le_length
  have bounded := ordered.length_lt
  have lengthEq := ordered.dataLength_eq
  have bytesLength := ordered.length_bytes
  have eraseSize : (if buffer.dataLength ≥ count then count else buffer.dataLength) =
      min count buffer.dataLength := by
    split <;> omega
  have offsetEq : (buffer.eraseFront count).1.mDataOffset =
      buffer.mDataOffset + min count buffer.dataLength := by
    simp only [CBuffer.eraseFront, eraseSize]
    exact wrap64_of_lt (by omega)
  have remaining : (buffer.eraseFront count).1.dataLength =
      buffer.dataLength - min count buffer.dataLength := by
    rw [(ordered.eraseFront count).dataLength_eq, offsetEq, lengthEq]
    change buffer.mDataEnd - (buffer.mDataOffset + _) = _
    omega
  have memoryEq : (buffer.eraseFront count).1.getData =
      buffer.getData.drop (min count buffer.dataLength) := by
    simp only [getData, offsetEq, List.drop_drop]
    rfl
  rw [bytes, remaining, memoryEq, ← List.drop_take, ← bytes]
  rcases Nat.le_total count buffer.dataLength with within | beyond
  · rw [Nat.min_eq_left within]
  · rw [Nat.min_eq_right beyond, List.drop_eq_nil_of_le (by omega),
      List.drop_eq_nil_of_le (by omega)]

end InOrder

theorem new_inOrder {size : Nat} (representable : size < 2 ^ 64) : (new size).InOrder :=
  ⟨Nat.le_refl _, Nat.zero_le _, length_allocate size, representable⟩

namespace Valid

variable {buffer : CBuffer}

theorem inOrder (valid : buffer.Valid) : buffer.InOrder := by
  have bounded := valid.representable
  exact ⟨valid.offset_le_end, valid.end_le_length, valid.allocated, by omega⟩

theorem dataLength_lt (valid : buffer.Valid) : buffer.dataLength < 2 ^ 63 := by
  have inside := valid.end_le_length
  have bounded := valid.representable
  rw [valid.inOrder.dataLength_eq]
  omega

theorem length_bytes (valid : buffer.Valid) : buffer.bytes.length = buffer.dataLength :=
  valid.inOrder.length_bytes

theorem eraseFront_valid (valid : buffer.Valid) (count : Nat) :
    (buffer.eraseFront count).1.Valid :=
  ⟨(valid.inOrder.eraseFront count).offset_le_end, valid.end_le_length, valid.allocated,
    valid.representable⟩

theorem bytes_eraseFront (valid : buffer.Valid) (count : Nat) :
    (buffer.eraseFront count).1.bytes = buffer.bytes.drop count :=
  valid.inOrder.bytes_eraseFront count

theorem dataLength_eraseFront (valid : buffer.Valid) (count : Nat) :
    (buffer.eraseFront count).1.dataLength = buffer.dataLength - count := by
  rw [← (valid.eraseFront_valid count).length_bytes, valid.bytes_eraseFront count,
    List.length_drop, valid.length_bytes]

end Valid

theorem new_valid {size : Nat} (representable : size < 2 ^ 63) : (new size).Valid :=
  ⟨Nat.le_refl _, Nat.zero_le _, length_allocate size, representable⟩

section SetData

variable {buffer : CBuffer} {data : List UInt8} {length : Nat}

theorem reserve_spec (allocated : buffer.mData.length = buffer.mBufferLength) (length : Nat) :
    length ≤ (buffer.reserve length).mBufferLength ∧
      (buffer.reserve length).mData.length = (buffer.reserve length).mBufferLength ∧
      (buffer.reserve length).mBufferLength = max buffer.mBufferLength length := by
  unfold reserve bufferLength
  split
  · exact ⟨Nat.le_refl _, length_allocate length, by simp only; omega⟩
  · exact ⟨by omega, allocated, by omega⟩

theorem setData_inOrder (ordered : buffer.InOrder) (source : length ≤ data.length)
    (representable : length < 2 ^ 64) : (buffer.setData data length).InOrder := by
  have bounded := ordered.length_lt
  obtain ⟨room, allocated, lengthEq⟩ := reserve_spec ordered.allocated length
  have sourceLength : (data.take length).length = length := by
    simp only [List.length_take]
    omega
  have sameLength : (buffer.setData data length).mBufferLength =
      (buffer.reserve length).mBufferLength := rfl
  refine ⟨Nat.zero_le _, room, ?_, by omega⟩
  simp only [setData]
  rw [length_blit _ _ (by omega), allocated]

theorem dataLength_setData (buffer : CBuffer) (data : List UInt8)
    (representable : length < 2 ^ 64) : (buffer.setData data length).dataLength = length :=
  sub64_of_le (Nat.zero_le _) representable

theorem bytes_setData (buffer : CBuffer) (source : length ≤ data.length)
    (representable : length < 2 ^ 64) :
    (buffer.setData data length).bytes = data.take length := by
  have sourceLength : (data.take length).length = length := by
    simp only [List.length_take]
    omega
  have readBack := slice_blit (buffer.reserve length).mData (data.take length) (Nat.zero_le _)
  rw [sourceLength, slice, List.drop_zero] at readBack
  rw [bytes, dataLength_setData buffer data representable, getData]
  exact readBack

theorem setData_valid (valid : buffer.Valid) (source : length ≤ data.length)
    (representable : length < 2 ^ 63) : (buffer.setData data length).Valid := by
  have bounded := valid.representable
  obtain ⟨-, -, lengthEq⟩ := reserve_spec valid.allocated length
  have ordered := setData_inOrder valid.inOrder source (by omega)
  have sameLength : (buffer.setData data length).mBufferLength =
      (buffer.reserve length).mBufferLength := rfl
  exact ⟨ordered.offset_le_end, ordered.end_le_length, ordered.allocated, by omega⟩

end SetData

end CBuffer

end NginxFastcgi.Network
