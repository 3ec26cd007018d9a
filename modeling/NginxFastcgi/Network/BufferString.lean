import NginxFastcgi.Foundation.Transition
import NginxFastcgi.Network.Buffer

/-!
# `CBuffer` as a byte string

The remaining operations of a `CBuffer`, and what all of them do to the string
that it holds.  A copy that leaves an allocation is the result `none`.

Growth copies the allocation from its start up to the end of the data, so that
the cursors keep their values.
-/

namespace NginxFastcgi.Network

open Foundation.MachineInt
open Foundation.Memory
open Foundation.Transition

/-- `memcpy` of `length` bytes of `source` to `offset` in an allocation. -/
def memcpy (memory : List UInt8) (offset : Nat) (source : List UInt8) (length : Nat) :
    Option (List UInt8) :=
  if offset + length ≤ memory.length ∧ length ≤ source.length then
    some (blit memory offset (source.take length))
  else
    none

namespace CBuffer

/-- `EraseBack` with its return value, the number of bytes erased. -/
def eraseBack (buffer : CBuffer) (count : Nat) : CBuffer × Nat :=
  let eraseSize := if buffer.dataLength ≥ count then count else buffer.dataLength
  ({ buffer with mDataEnd := sub64 buffer.mDataEnd eraseSize }, eraseSize)

def clear (buffer : CBuffer) : CBuffer :=
  { buffer with mDataEnd := 0, mDataOffset := 0 }

def isNeedEnlargeBuffer (buffer : CBuffer) (size : Nat) : Bool :=
  wrap64 (buffer.mDataEnd + size) > buffer.mBufferLength

/-- `EnlargeBuffer` with its return value. -/
def enlargeBuffer (buffer : CBuffer) (size : Nat) : Option (CBuffer × Bool) :=
  let enlargeSize := if size = 0 then wrap64 (buffer.mBufferLength * 2) else size
  if enlargeSize ≤ buffer.mBufferLength then
    some (buffer, false)
  else
    (memcpy (allocate enlargeSize) 0 buffer.mData buffer.mDataEnd).map fun enlarged =>
      ({ buffer with mData := enlarged, mBufferLength := enlargeSize }, true)

/-- The end of `AddData`, which copies the data behind the end. -/
def copyBehind (buffer : CBuffer) (data : List UInt8) (length : Nat) : Option CBuffer :=
  (memcpy buffer.mData buffer.mDataEnd data length).map fun memory =>
    { buffer with mData := memory, mDataEnd := wrap64 (buffer.mDataEnd + length) }

/-- `AddData` with its return value. -/
def addData (buffer : CBuffer) (data : List UInt8) (length : Nat) : Option (CBuffer × Bool) :=
  if buffer.isNeedEnlargeBuffer length then
    (buffer.enlargeBuffer (wrap64 (buffer.mDataEnd + length))).bind fun enlarged =>
      if enlarged.2 = false then
        some (enlarged.1, false)
      else
        (enlarged.1.copyBehind data length).map fun added => (added, true)
  else
    (buffer.copyBehind data length).map fun added => (added, true)

/-- `SetData`, with the check of its copy. -/
def setDataChecked (buffer : CBuffer) (data : List UInt8) (length : Nat) : Option CBuffer :=
  (memcpy (buffer.reserve length).mData 0 data length).map fun memory =>
    { buffer.reserve length with mData := memory, mDataEnd := length, mDataOffset := 0 }

/-! ## One operation -/

section Spec

variable {buffer : CBuffer} {data : List UInt8}

theorem memcpy_of_inside {memory : List UInt8} {offset : Nat}
    (inside : offset + data.length ≤ memory.length) :
    memcpy memory offset data data.length = some (blit memory offset data) := by
  rw [memcpy, if_pos ⟨inside, Nat.le_refl _⟩, List.take_length]

/-- The checked copy of `SetData` is the unchecked one. -/
theorem setDataChecked_eq (ordered : buffer.InOrder) (data : List UInt8) :
    buffer.setDataChecked data data.length = some (buffer.setData data data.length) := by
  obtain ⟨room, allocated, -⟩ := reserve_spec ordered.allocated data.length
  rw [setDataChecked, memcpy_of_inside (by omega), setData, List.take_length]
  rfl

theorem clear_inOrder (ordered : buffer.InOrder) : buffer.clear.InOrder :=
  ⟨Nat.le_refl 0, Nat.zero_le _, ordered.allocated, ordered.length_lt⟩

/-- No string is held between equal cursors. -/
theorem bytes_of_start {buffer : CBuffer} (atEnd : buffer.mDataEnd = 0)
    (atStart : buffer.mDataOffset = 0) : buffer.bytes = [] := by
  have empty : buffer.dataLength = 0 := by
    rw [dataLength, atEnd, atStart]
    rfl
  rw [bytes, empty, List.take_zero]

theorem eraseBack_eq (ordered : buffer.InOrder) (count : Nat) :
    (buffer.eraseBack count).1 =
      { buffer with mDataEnd := buffer.mDataEnd - min count buffer.dataLength } := by
  have inside := ordered.end_le_length
  have bounded := ordered.length_lt
  have lengthEq := ordered.dataLength_eq
  have eraseSize : (if buffer.dataLength ≥ count then count else buffer.dataLength) =
      min count buffer.dataLength := by
    split <;> omega
  simp only [eraseBack, eraseSize]
  rw [sub64_of_le (by omega) (by omega)]

theorem eraseBack_inOrder (ordered : buffer.InOrder) (count : Nat) :
    (buffer.eraseBack count).1.InOrder := by
  have offset := ordered.offset_le_end
  have inside := ordered.end_le_length
  have lengthEq := ordered.dataLength_eq
  rw [eraseBack_eq ordered]
  exact ⟨by simp only; omega, by simp only; omega, ordered.allocated, ordered.length_lt⟩

/-- Erasing from the back cuts off that many bytes, or all of them. -/
theorem bytes_eraseBack (ordered : buffer.InOrder) (count : Nat) :
    (buffer.eraseBack count).1.bytes = buffer.bytes.take (buffer.bytes.length - count) := by
  have offset := ordered.offset_le_end
  have lengthEq := ordered.dataLength_eq
  have bytesLength := ordered.length_bytes
  have shorter : (buffer.eraseBack count).1.dataLength =
      buffer.dataLength - min count buffer.dataLength := by
    rw [(eraseBack_inOrder ordered count).dataLength_eq, eraseBack_eq ordered]
    simp only
    omega
  have sameMemory : (buffer.eraseBack count).1.getData = buffer.getData := rfl
  rw [bytes, shorter, sameMemory, bytes, List.take_take]
  congr 1
  rw [← bytes]
  omega

/-- Copying behind the end where there is room appends the data. -/
theorem copyBehind_spec (ordered : buffer.InOrder)
    (room : buffer.mDataEnd + data.length ≤ buffer.mBufferLength) :
    ∃ added, buffer.copyBehind data data.length = some added ∧ added.InOrder ∧
      added.bytes = buffer.bytes ++ data := by
  have offset := ordered.offset_le_end
  have allocated := ordered.allocated
  have bounded := ordered.length_lt
  have lengthEq := ordered.dataLength_eq
  have noWrap : wrap64 (buffer.mDataEnd + data.length) = buffer.mDataEnd + data.length :=
    wrap64_of_lt (by omega)
  have inside : buffer.mDataEnd + data.length ≤ buffer.mData.length := by omega
  have addedOrdered : InOrder
      { buffer with
        mData := blit buffer.mData buffer.mDataEnd data
        mDataEnd := buffer.mDataEnd + data.length } :=
    ⟨by simp only; omega, room, by rw [length_blit _ _ inside, allocated], bounded⟩
  refine ⟨_, ?_, addedOrdered, ?_⟩
  · rw [copyBehind, memcpy_of_inside inside, Option.map_some, noWrap]
  · have endEq : buffer.mDataOffset + buffer.dataLength = buffer.mDataEnd := by omega
    have extended := slice_blit_extend buffer.mData data
      (show buffer.mDataOffset + buffer.dataLength ≤ buffer.mData.length by omega)
    rw [endEq] at extended
    rw [bytes, addedOrdered.dataLength_eq]
    simp only [getData]
    rw [show buffer.mDataEnd + data.length - buffer.mDataOffset =
      buffer.dataLength + data.length by omega]
    exact extended

/-- Growth keeps the string. -/
theorem enlargeBuffer_spec (ordered : buffer.InOrder) {size : Nat}
    (larger : buffer.mBufferLength < size) (representable : size < 2 ^ 64) :
    ∃ enlarged, buffer.enlargeBuffer size = some (enlarged, true) ∧ enlarged.InOrder ∧
      enlarged.mBufferLength = size ∧ enlarged.mDataEnd = buffer.mDataEnd ∧
      enlarged.bytes = buffer.bytes := by
  have offset := ordered.offset_le_end
  have inside := ordered.end_le_length
  have allocated := ordered.allocated
  have lengthEq := ordered.dataLength_eq
  have positive : size ≠ 0 := by omega
  have sourceLength : (buffer.mData.take buffer.mDataEnd).length = buffer.mDataEnd := by
    rw [List.length_take]
    omega
  have fits : 0 + buffer.mDataEnd ≤ (allocate size).length ∧
      buffer.mDataEnd ≤ buffer.mData.length := by
    rw [length_allocate]
    omega
  have enlargedOrdered : InOrder
      { buffer with
        mData := blit (allocate size) 0 (buffer.mData.take buffer.mDataEnd)
        mBufferLength := size } := by
    refine ⟨offset, by simp only; omega, ?_, representable⟩
    rw [length_blit _ _ (by rw [sourceLength]; exact fits.1), length_allocate]
  refine ⟨_, ?_, enlargedOrdered, rfl, rfl, ?_⟩
  · simp only [enlargeBuffer, if_neg positive, if_neg (Nat.not_le.mpr larger), memcpy,
      if_pos fits, Option.map_some]
  · have copied := slice_blit (allocate size) (buffer.mData.take buffer.mDataEnd)
      (Nat.zero_le _)
    rw [sourceLength, slice, List.drop_zero] at copied
    have sameLength : buffer.mDataEnd - buffer.mDataOffset = buffer.dataLength := lengthEq.symm
    rw [bytes, enlargedOrdered.dataLength_eq]
    simp only [getData]
    rw [← List.drop_take, copied, List.drop_take, sameLength]
    rfl

/-- `AddData` grows the buffer where it must and appends the data. -/
theorem addData_spec (ordered : buffer.InOrder)
    (fits : buffer.mDataEnd + data.length < 2 ^ 64) :
    ∃ added, buffer.addData data data.length = some (added, true) ∧ added.InOrder ∧
      added.bytes = buffer.bytes ++ data := by
  have noWrap : wrap64 (buffer.mDataEnd + data.length) = buffer.mDataEnd + data.length :=
    wrap64_of_lt fits
  by_cases larger : buffer.mBufferLength < buffer.mDataEnd + data.length
  · obtain ⟨enlarged, enlargedEq, enlargedOrdered, sizeEq, endEq, sameBytes⟩ :=
      enlargeBuffer_spec ordered larger fits
    obtain ⟨added, addedEq, addedOrdered, addedBytes⟩ :=
      copyBehind_spec enlargedOrdered (show enlarged.mDataEnd + data.length ≤
        enlarged.mBufferLength by omega)
    refine ⟨added, ?_, addedOrdered, by rw [addedBytes, sameBytes]⟩
    have needed : buffer.isNeedEnlargeBuffer data.length = true := by
      rw [isNeedEnlargeBuffer, noWrap]
      exact decide_eq_true larger
    rw [addData, if_pos needed, noWrap, enlargedEq, Option.bind_some]
    simp only [Bool.true_eq_false, if_false, addedEq, Option.map_some]
  · obtain ⟨added, addedEq, addedOrdered, addedBytes⟩ :=
      copyBehind_spec ordered (Nat.not_lt.mp larger)
    refine ⟨added, ?_, addedOrdered, addedBytes⟩
    have notNeeded : ¬ buffer.isNeedEnlargeBuffer data.length = true := by
      rw [isNeedEnlargeBuffer, noWrap, decide_eq_true_iff]
      exact larger
    rw [addData, if_neg notNeeded, addedEq, Option.map_some]

/-- A copy behind the end that was made has not passed the end of the
allocation. -/
theorem fits_of_copyBehind {length : Nat} {added : CBuffer} (ordered : buffer.InOrder)
    (copied : buffer.copyBehind data length = some added) : buffer.mDataEnd + length < 2 ^ 64 := by
  have allocated := ordered.allocated
  have bounded := ordered.length_lt
  obtain ⟨memory, memcpyEq, -⟩ := Option.map_eq_some_iff.mp copied
  unfold memcpy at memcpyEq
  split at memcpyEq
  · omega
  · contradiction

/-- So an `AddData` whose copies stay inside the allocations has not wrapped the
end. -/
theorem fits_of_addData {result : CBuffer × Bool} (ordered : buffer.InOrder)
    (addedEq : buffer.addData data data.length = some result) :
    buffer.mDataEnd + data.length < 2 ^ 64 := by
  unfold addData at addedEq
  split at addedEq
  · rename_i needed
    have larger : buffer.mBufferLength < wrap64 (buffer.mDataEnd + data.length) :=
      of_decide_eq_true needed
    obtain ⟨enlarged, enlargedEq, enlargedOrdered, -, endEq, -⟩ :=
      enlargeBuffer_spec ordered larger (Nat.mod_lt _ (by decide))
    rw [enlargedEq, Option.bind_some] at addedEq
    simp only [Bool.true_eq_false, if_false] at addedEq
    obtain ⟨added, copied, -⟩ := Option.map_eq_some_iff.mp addedEq
    rw [← endEq]
    exact fits_of_copyBehind enlargedOrdered copied
  · obtain ⟨added, copied, -⟩ := Option.map_eq_some_iff.mp addedEq
    exact fits_of_copyBehind ordered copied

end Spec

end CBuffer

/-! ## Every sequence of operations -/

namespace BufferString

/-- A call; the source of a copy has as many bytes as the call says. -/
inductive Operation
  | setData (data : List UInt8)
  | addData (data : List UInt8)
  | eraseFront (count : Nat)
  | eraseBack (count : Nat)
  | clear

/-- What a call does to a string. -/
def Operation.onString : Operation → List UInt8 → List UInt8
  | .setData data, _ => data
  | .addData data, text => text ++ data
  | .eraseFront count, text => text.drop (min count text.length)
  | .eraseBack count, text => text.take (text.length - min count text.length)
  | .clear, _ => []

/-- What a call does to a buffer, with what `AddData` returns; the other calls
do not fail. -/
def Operation.onBuffer : Operation → CBuffer → Option (CBuffer × Bool)
  | .setData data, buffer => (buffer.setDataChecked data data.length).map fun set => (set, true)
  | .addData data, buffer => buffer.addData data data.length
  | .eraseFront count, buffer => some ((buffer.eraseFront count).1, true)
  | .eraseBack count, buffer => some ((buffer.eraseBack count).1, true)
  | .clear, buffer => some (buffer.clear, true)

/-- The lengths keep the end of the data below 2^64. -/
def Operation.Fits : Operation → CBuffer → Prop
  | .setData data, _ => data.length < 2 ^ 64
  | .addData data, buffer => buffer.mDataEnd + data.length < 2 ^ 64
  | _, _ => True

/-- A buffer beside the string that the calls should make of it. -/
structure State where
  buffer : CBuffer
  text : List UInt8
  deriving DecidableEq

def State.new (size : Nat) : State where
  buffer := CBuffer.new size
  text := []

def step : Step State Operation
  | state, operation =>
      (operation.onBuffer state.buffer).map fun result =>
        { buffer := result.1, text := operation.onString state.text }

def allowed (state : State) (operation : Operation) : Prop :=
  operation.Fits state.buffer

instance (state : State) : DecidablePred (allowed state) := fun operation =>
  match operation with
  | .setData data => inferInstanceAs (Decidable (data.length < 2 ^ 64))
  | .addData data => inferInstanceAs (Decidable (state.buffer.mDataEnd + data.length < 2 ^ 64))
  | .eraseFront _ => isTrue trivial
  | .eraseBack _ => isTrue trivial
  | .clear => isTrue trivial

/-- The cursors are in order and the buffer holds the string. -/
structure Refines (state : State) : Prop where
  ordered : state.buffer.InOrder
  text_eq : state.buffer.bytes = state.text

/-- A call that fits makes its copies inside the allocations, does not fail and
does to the buffer what it does to the string. -/
theorem onBuffer_spec {state : State} (refines : Refines state) {operation : Operation}
    (fits : operation.Fits state.buffer) :
    ∃ after, operation.onBuffer state.buffer = some (after, true) ∧
      Refines ⟨after, operation.onString state.text⟩ := by
  obtain ⟨ordered, textEq⟩ := refines
  have lengthEq : state.text.length = state.buffer.dataLength := by
    rw [← textEq, ordered.length_bytes]
  cases operation with
  | setData data =>
      refine ⟨state.buffer.setData data data.length, ?_,
        CBuffer.setData_inOrder ordered (Nat.le_refl _) fits, ?_⟩
      · rw [Operation.onBuffer, CBuffer.setDataChecked_eq ordered, Option.map_some]
      · rw [CBuffer.bytes_setData _ (Nat.le_refl _) fits, List.take_length]
        rfl
  | addData data =>
      obtain ⟨added, addedEq, addedOrdered, addedBytes⟩ := CBuffer.addData_spec ordered fits
      exact ⟨added, addedEq, addedOrdered, by rw [addedBytes, textEq]; rfl⟩
  | eraseFront count =>
      refine ⟨_, rfl, ordered.eraseFront count, ?_⟩
      rw [ordered.bytes_eraseFront, textEq, Operation.onString]
      rcases Nat.le_total count state.text.length with within | beyond
      · rw [Nat.min_eq_left within]
      · rw [Nat.min_eq_right beyond, List.drop_eq_nil_of_le beyond, List.drop_length]
  | eraseBack count =>
      refine ⟨_, rfl, CBuffer.eraseBack_inOrder ordered count, ?_⟩
      rw [CBuffer.bytes_eraseBack ordered, textEq, Operation.onString]
      congr 1
      omega
  | clear => exact ⟨_, rfl, CBuffer.clear_inOrder ordered, CBuffer.bytes_of_start rfl rfl⟩

/-- The length or count of a call, a 64-bit number. -/
def Operation.passed : Operation → Nat
  | .setData data => data.length
  | .addData data => data.length
  | .eraseFront count => count
  | .eraseBack count => count
  | .clear => 0

/-- A call whose copies stay inside the allocations fits. -/
theorem onBuffer_of_some {state : State} (refines : Refines state) {operation : Operation}
    (passed : operation.passed < 2 ^ 64) {after : CBuffer} {result : Bool}
    (resultEq : operation.onBuffer state.buffer = some (after, result)) :
    result = true ∧ Refines ⟨after, operation.onString state.text⟩ := by
  have fits : operation.Fits state.buffer := by
    cases operation with
    | setData data => exact passed
    | addData data => exact CBuffer.fits_of_addData refines.ordered resultEq
    | eraseFront count => trivial
    | eraseBack count => trivial
    | clear => trivial
  obtain ⟨next, nextEq, refinesAfter⟩ := onBuffer_spec refines fits
  cases nextEq.symm.trans resultEq
  exact ⟨rfl, refinesAfter⟩

theorem refines_step {state after : State} {operation : Operation} (refines : Refines state)
    (fits : allowed state operation) (stepEq : step state operation = some after) :
    Refines after := by
  obtain ⟨buffer, resultEq, refinesAfter⟩ := onBuffer_spec refines fits
  rw [step, resultEq, Option.map_some] at stepEq
  cases stepEq
  exact refinesAfter

theorem refines_new {size : Nat} (representable : size < 2 ^ 64) : Refines (State.new size) where
  ordered := CBuffer.new_inOrder representable
  text_eq := CBuffer.bytes_of_start rfl rfl

/-- After every sequence of calls that fit, from every initial size, the cursors
are in order inside the allocation and the buffer holds the string; and the next
call that fits makes its copies inside the allocations and does not fail. -/
theorem buffer_refines_string {size : Nat} (representable : size < 2 ^ 64) {state : State}
    (reachable : Reachable step allowed (State.new size) state) :
    Refines state ∧ ∀ operation : Operation, operation.Fits state.buffer →
      ∃ after, operation.onBuffer state.buffer = some (after, true) := by
  have refines : Refines state :=
    reachable.invariant (refines_new representable) fun _ _ _ held fits stepEq =>
      refines_step held fits stepEq
  refine ⟨refines, fun operation fits => ?_⟩
  obtain ⟨after, resultEq, -⟩ := onBuffer_spec refines fits
  exact ⟨after, resultEq⟩

/-- A buffer of size zero grows twice and is cut at both ends. -/
theorem refines_after_calls : Refines ⟨⟨5, 4, 1, [1, 2, 3, 4, 5]⟩, [2, 3, 4]⟩ := by
  have executed : execute (restrict step allowed)
      [.addData [1, 2, 3], .eraseFront 1, .addData [4, 5], .eraseBack 1] (State.new 0) =
        some ⟨⟨5, 4, 1, [1, 2, 3, 4, 5]⟩, [2, 3, 4]⟩ := by decide
  exact (buffer_refines_string (by decide) (Reachable.of_execute executed)).1

end BufferString

end NginxFastcgi.Network
