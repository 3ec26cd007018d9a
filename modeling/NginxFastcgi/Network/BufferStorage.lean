import NginxFastcgi.Foundation.Heap
import NginxFastcgi.Network.BufferString

/-!
# `CBuffer` and its allocation

The buffer as it is stored, with the address of its allocation in a heap.  An
allocation may fail by throwing, and then the call ends where it is.  `AddData`
allocates first and frees the old allocation at the end; `SetData` frees it
first.

A use of what is not live, or a copy that leaves an allocation, is the result
`none`.
-/

namespace NginxFastcgi.Network.BufferStorage

open Foundation
open Foundation.MachineInt
open Foundation.Memory
open Foundation.Transition
open BufferString

/-- The members of a `CBuffer`; `none` is `NULL`. -/
structure Object where
  mBufferLength : Nat
  mDataEnd : Nat
  mDataOffset : Nat
  mData : Option Address

namespace Object

def dataLength (object : Object) : Nat :=
  sub64 object.mDataEnd object.mDataOffset

def eraseFront (object : Object) (count : Nat) : Object :=
  let eraseSize := if object.dataLength ≥ count then count else object.dataLength
  { object with mDataOffset := wrap64 (object.mDataOffset + eraseSize) }

def eraseBack (object : Object) (count : Nat) : Object :=
  let eraseSize := if object.dataLength ≥ count then count else object.dataLength
  { object with mDataEnd := sub64 object.mDataEnd eraseSize }

def clear (object : Object) : Object :=
  { object with mDataEnd := 0, mDataOffset := 0 }

/-- The buffer whose allocation has this content. -/
def withData (object : Object) (memory : List UInt8) : CBuffer where
  mBufferLength := object.mBufferLength
  mDataEnd := object.mDataEnd
  mDataOffset := object.mDataOffset
  mData := memory

end Object

structure State where
  heap : Heap UInt8
  object : Object

/-- How a call ends: with its result, where it has one, or by an exception. -/
inductive Outcome
  | returned (state : State) (result : Bool)
  | threw (state : State)

/-- What `new uint8_t[]` answers: an address, or an exception. -/
abbrev Allocation := Option Address

namespace State

/-- The constructor, for which the allocation does not fail. -/
def new (heap : Heap UInt8) (address : Address) (size : Nat) : State where
  heap := heap.set address (allocate size)
  object :=
    { mBufferLength := size
      mDataEnd := 0
      mDataOffset := 0
      mData := some address }

/-- `delete[] m_data`. -/
def deleteData (state : State) : Option (Heap UInt8) :=
  match state.object.mData with
  | none => some state.heap
  | some address => state.heap.free address

/-- The destructor. -/
def destroy (state : State) : Option State :=
  state.deleteData.map fun freed =>
    { heap := freed, object := { state.object with mData := none } }

/-- `memcpy` to `m_data + offset`. -/
def copyTo (state : State) (offset : Nat) (data : List UInt8) (length : Nat) : Option State :=
  state.object.mData.bind fun address =>
    (state.heap.live address).bind fun memory =>
      (memcpy memory offset data length).map fun copied =>
        { state with heap := state.heap.set address copied }

/-- The end of `SetData`. -/
def copyFront (state : State) (data : List UInt8) (length : Nat) : Option Outcome :=
  (state.copyTo 0 data length).map fun copied =>
    .returned
      { copied with object := { copied.object with mDataEnd := length, mDataOffset := 0 } } true

def setData (state : State) (data : List UInt8) (length : Nat) (allocation : Allocation) :
    Option Outcome :=
  if state.object.mBufferLength < length then
    state.deleteData.bind fun freed =>
      match allocation with
      | none => some (.threw { state with heap := freed })
      | some address =>
          (freed.allocate address (allocate length)).bind fun heap =>
            copyFront
              { heap := heap
                object := { state.object with mData := some address, mBufferLength := length } }
              data length
  else
    state.copyFront data length

/-- `EnlargeBuffer` from the allocation on. -/
def moveTo (state : State) (enlargeSize : Nat) (address : Address) : Option State :=
  (state.heap.allocate address (allocate enlargeSize)).bind fun heap =>
    (state.object.mData.bind heap.live).bind fun memory =>
      (memcpy (allocate enlargeSize) 0 memory state.object.mDataEnd).bind fun enlarged =>
        (deleteData { state with heap := heap.set address enlarged }).map fun freed =>
          { heap := freed
            object := { state.object with mData := some address, mBufferLength := enlargeSize } }

def enlargeBuffer (state : State) (size : Nat) (allocation : Allocation) : Option Outcome :=
  let enlargeSize := if size = 0 then wrap64 (state.object.mBufferLength * 2) else size
  if enlargeSize ≤ state.object.mBufferLength then
    some (.returned state false)
  else
    match allocation with
    | none => some (.threw state)
    | some address => (state.moveTo enlargeSize address).map fun moved => .returned moved true

/-- The end of `AddData`. -/
def copyBehind (state : State) (data : List UInt8) (length : Nat) : Option Outcome :=
  (state.copyTo state.object.mDataEnd data length).map fun copied =>
    .returned
      { copied with
        object := { copied.object with mDataEnd := wrap64 (state.object.mDataEnd + length) } } true

def addData (state : State) (data : List UInt8) (length : Nat) (allocation : Allocation) :
    Option Outcome :=
  if wrap64 (state.object.mDataEnd + length) > state.object.mBufferLength then
    (state.enlargeBuffer (wrap64 (state.object.mDataEnd + length)) allocation).bind fun
      | .threw thrown => some (.threw thrown)
      | .returned refused false => some (.returned refused false)
      | .returned enlarged true => enlarged.copyBehind data length
  else
    state.copyBehind data length

/-- A call that moves the cursors. -/
def moved (state : State) (object : Object) : Option Outcome :=
  some (.returned { state with object := object } true)

/-- A call, with the answer to its allocation. -/
def call (state : State) (allocation : Allocation) : Operation → Option Outcome
  | .setData data => state.setData data data.length allocation
  | .addData data => state.addData data data.length allocation
  | .eraseFront count => state.moved (state.object.eraseFront count)
  | .eraseBack count => state.moved (state.object.eraseBack count)
  | .clear => state.moved state.object.clear

end State

/-! ## What the allocation holds -/

/-- The allocation at `address` is live, and with its content the members are
those of `buffer`. -/
structure Holds (state : State) (address : Address) (buffer : CBuffer) : Prop where
  pointer : state.object.mData = some address
  live : state.heap.live address = some buffer.mData
  members : state.object.withData buffer.mData = buffer

section Spec

variable {state : State} {address : Address} {buffer : CBuffer} {data : List UInt8}
  {length : Nat} {allocation : Allocation} {outcome : Outcome}

theorem holds_new (heap : Heap UInt8) (address : Address) (size : Nat) :
    Holds (State.new heap address size) address (CBuffer.new size) :=
  ⟨rfl, Heap.live_set_self heap address _, rfl⟩

theorem Holds.bufferLength_eq (holds : Holds state address buffer) :
    state.object.mBufferLength = buffer.mBufferLength :=
  congrArg CBuffer.mBufferLength holds.members

theorem Holds.dataEnd_eq (holds : Holds state address buffer) :
    state.object.mDataEnd = buffer.mDataEnd :=
  congrArg CBuffer.mDataEnd holds.members

theorem copyTo_of_holds (holds : Holds state address buffer) (offset : Nat) :
    state.copyTo offset data length =
      (memcpy buffer.mData offset data length).map fun copied =>
        { state with heap := state.heap.set address copied } := by
  simp only [State.copyTo, holds.pointer, holds.live, Option.bind_some]

/-- A copy inside the allocation changes its content only. -/
theorem holds_copied (holds : Holds state address buffer) (memory : List UInt8) :
    Holds { state with heap := state.heap.set address memory } address
      { buffer with mData := memory } := by
  refine ⟨holds.pointer, Heap.live_set_self _ _ _, ?_⟩
  rw [← holds.members]
  rfl

theorem holds_moved (holds : Holds state address buffer) {object : Object}
    (samePointer : object.mData = state.object.mData) :
    Holds { state with object := object } address (object.withData buffer.mData) :=
  ⟨samePointer.trans holds.pointer, holds.live, rfl⟩

/-- The destructor frees what is live. -/
theorem destroy_of_holds (holds : Holds state address buffer) :
    ∃ destroyed, state.destroy = some destroyed ∧ destroyed.heap.live address = none := by
  rcases Heap.exists_free holds.live with ⟨freed, freedEq⟩
  refine ⟨{ heap := freed, object := { state.object with mData := none } }, ?_,
    (Heap.live_of_free freedEq).2.1⟩
  simp only [State.destroy, State.deleteData, holds.pointer, freedEq, Option.map_some]

/-- `SetData` on a buffer that is large enough. -/
theorem copyFront_cases (holds : Holds state address buffer)
    (copied : state.copyFront data length = some outcome) :
    ∃ after memory, outcome = .returned after true ∧
      memcpy buffer.mData 0 data length = some memory ∧
      Holds after address
        { buffer with mData := memory, mDataEnd := length, mDataOffset := 0 } := by
  rw [State.copyFront, copyTo_of_holds holds] at copied
  rcases Option.map_eq_some_iff.mp copied with ⟨_, copiedEq, rfl⟩
  rcases Option.map_eq_some_iff.mp copiedEq with ⟨memory, memcpyEq, rfl⟩
  have after := holds_copied holds memory
  refine ⟨_, memory, rfl, memcpyEq, after.pointer, after.live, ?_⟩
  simp only [Object.withData, holds.bufferLength_eq]

/-- `SetData` returns with what the buffer should be, or it throws after it has
freed the allocation. -/
theorem setData_cases (holds : Holds state address buffer)
    (called : state.setData data length allocation = some outcome) :
    (∃ after place set, outcome = .returned after true ∧
        buffer.setDataChecked data length = some set ∧ Holds after place set ∧
        (buffer.mBufferLength < length → allocation ≠ none)) ∨
      buffer.mBufferLength < length ∧ allocation = none ∧
        ∃ thrown, outcome = .threw thrown ∧ thrown.object = state.object ∧
          thrown.heap.live address = none := by
  unfold State.setData at called
  rw [holds.bufferLength_eq] at called
  split at called
  · rename_i short
    rcases Option.bind_eq_some_iff.mp called with ⟨freed, deleted, rest⟩
    simp only [State.deleteData, holds.pointer] at deleted
    rcases Heap.live_of_free deleted with ⟨-, gone, -⟩
    cases allocation with
    | none =>
        right
        cases rest
        exact ⟨short, rfl, _, rfl, rfl, gone⟩
    | some place =>
        left
        rcases Option.bind_eq_some_iff.mp rest with ⟨heap, allocated, copied⟩
        rcases Heap.allocate_eq_some_iff.mp allocated with ⟨-, rfl⟩
        have grown : Holds
            { heap := freed.set place (allocate length)
              object := { state.object with mData := some place, mBufferLength := length } }
            place (buffer.reserve length) := by
          refine ⟨rfl, ?_, ?_⟩
          · rw [CBuffer.reserve, CBuffer.bufferLength, if_pos short]
            exact Heap.live_set_self _ _ _
          · rw [CBuffer.reserve, CBuffer.bufferLength, if_pos short, ← holds.members]
            rfl
        rcases copyFront_cases grown copied with ⟨after, memory, outcomeEq, memcpyEq, held⟩
        refine ⟨after, place, _, outcomeEq, ?_, held, fun _ => Option.some_ne_none place⟩
        rw [CBuffer.setDataChecked, memcpyEq, Option.map_some]
  · rename_i enough
    left
    have kept : buffer.reserve length = buffer := if_neg enough
    rcases copyFront_cases holds called with ⟨after, memory, outcomeEq, memcpyEq, held⟩
    refine ⟨after, address, _, outcomeEq, ?_, held, fun short => absurd short enough⟩
    rw [CBuffer.setDataChecked, kept, memcpyEq, Option.map_some]

theorem copyBehind_cases (holds : Holds state address buffer)
    (copied : state.copyBehind data length = some outcome) :
    ∃ after added, outcome = .returned after true ∧ buffer.copyBehind data length = some added ∧
      Holds after address added := by
  rw [State.copyBehind, copyTo_of_holds holds] at copied
  rcases Option.map_eq_some_iff.mp copied with ⟨_, copiedEq, rfl⟩
  rcases Option.map_eq_some_iff.mp copiedEq with ⟨memory, memcpyEq, rfl⟩
  rw [holds.dataEnd_eq] at memcpyEq
  have after := holds_copied holds memory
  refine ⟨_, { buffer with mData := memory, mDataEnd := wrap64 (buffer.mDataEnd + length) }, rfl,
    ?_, after.pointer, after.live, ?_⟩
  · rw [CBuffer.copyBehind, memcpyEq, Option.map_some]
  · rw [← holds.members]
    rfl

/-- The old allocation stays live until the new one holds the copy. -/
theorem moveTo_cases (holds : Holds state address buffer) {enlargeSize : Nat} {place : Address}
    {after : State} (moved : state.moveTo enlargeSize place = some after) :
    ∃ enlarged, memcpy (allocate enlargeSize) 0 buffer.mData buffer.mDataEnd = some enlarged ∧
      Holds after place { buffer with mData := enlarged, mBufferLength := enlargeSize } := by
  rcases Option.bind_eq_some_iff.mp moved with ⟨heap, allocated, rest⟩
  rcases Heap.allocate_eq_some_iff.mp allocated with ⟨unused, rfl⟩
  have apart : address ≠ place := by
    rintro rfl
    rw [holds.live] at unused
    contradiction
  rw [holds.pointer, Option.bind_some, Heap.live_set_of_ne apart, holds.live, Option.bind_some,
    holds.dataEnd_eq] at rest
  rcases Option.bind_eq_some_iff.mp rest with ⟨enlarged, memcpyEq, rest⟩
  rcases Option.map_eq_some_iff.mp rest with ⟨freed, deleted, rfl⟩
  simp only [State.deleteData, holds.pointer, Heap.set_set] at deleted
  rcases Heap.live_of_free deleted with ⟨-, -, others⟩
  refine ⟨enlarged, memcpyEq, rfl, ?_, ?_⟩
  · exact (others place apart.symm).trans (Heap.live_set_self _ _ _)
  · rw [← holds.members]
    rfl

/-- `EnlargeBuffer` throws before it has changed anything. -/
theorem enlargeBuffer_cases (holds : Holds state address buffer) {size : Nat}
    (called : state.enlargeBuffer size allocation = some outcome) :
    outcome = .threw state ∨
      ∃ after place enlarged result, outcome = .returned after result ∧
        buffer.enlargeBuffer size = some (enlarged, result) ∧ Holds after place enlarged := by
  simp only [State.enlargeBuffer, holds.bufferLength_eq] at called
  unfold CBuffer.enlargeBuffer
  generalize (if size = 0 then wrap64 (buffer.mBufferLength * 2) else size) = enlargeSize
    at called ⊢
  by_cases small : enlargeSize ≤ buffer.mBufferLength
  · rw [if_pos small] at called
    cases called
    exact Or.inr ⟨state, address, buffer, false, rfl, if_pos small, holds⟩
  · rw [if_neg small] at called
    cases allocation with
    | none =>
        cases called
        exact Or.inl rfl
    | some place =>
        rcases Option.map_eq_some_iff.mp called with ⟨after, moved, rfl⟩
        rcases moveTo_cases holds moved with ⟨enlarged, memcpyEq, held⟩
        refine Or.inr ⟨after, place, _, true, rfl, ?_, held⟩
        simp only [if_neg small, memcpyEq, Option.map_some]

/-- `AddData` returns with what the buffer should be, or it throws and has
changed nothing. -/
theorem addData_cases (holds : Holds state address buffer)
    (called : state.addData data length allocation = some outcome) :
    outcome = .threw state ∨
      ∃ after place added result, outcome = .returned after result ∧
        buffer.addData data length = some (added, result) ∧ Holds after place added := by
  unfold State.addData at called
  rw [holds.bufferLength_eq, holds.dataEnd_eq] at called
  split at called
  · rename_i needed
    have needs : buffer.isNeedEnlargeBuffer length = true := decide_eq_true needed
    rcases Option.bind_eq_some_iff.mp called with ⟨enlargedOutcome, enlargedEq, rest⟩
    rcases enlargeBuffer_cases holds enlargedEq with
      rfl | ⟨after, place, enlarged, result, rfl, valueEq, held⟩
    · cases rest
      exact Or.inl rfl
    · cases result with
      | false =>
          cases rest
          refine Or.inr ⟨after, place, enlarged, false, rfl, ?_, held⟩
          simp only [CBuffer.addData, if_pos needs, valueEq, Option.bind_some, if_true]
      | true =>
          rcases copyBehind_cases held rest with ⟨final, added, rfl, copiedEq, finalHeld⟩
          refine Or.inr ⟨final, place, added, true, rfl, ?_, finalHeld⟩
          simp only [CBuffer.addData, if_pos needs, valueEq, Option.bind_some, Bool.true_eq_false,
            if_false, copiedEq, Option.map_some]
  · rename_i enough
    have fits : ¬ buffer.isNeedEnlargeBuffer length = true := fun needs =>
      enough (of_decide_eq_true needs)
    rcases copyBehind_cases holds called with ⟨after, added, rfl, copiedEq, held⟩
    refine Or.inr ⟨after, address, added, true, rfl, ?_, held⟩
    rw [CBuffer.addData, if_neg fits, copiedEq, Option.map_some]

/-- A call returns with what the buffer should be; or it throws, as an `AddData`
that has changed nothing or as a `SetData` whose allocation is gone. -/
theorem call_cases (holds : Holds state address buffer) {operation : Operation}
    (called : state.call allocation operation = some outcome) :
    (∃ after place next result, outcome = .returned after result ∧
        operation.onBuffer buffer = some (next, result) ∧ Holds after place next ∧
        ∀ data, operation = .setData data → buffer.mBufferLength < data.length →
          allocation ≠ none) ∨
      (∃ data, operation = .addData data) ∧ outcome = .threw state ∨
      ∃ data thrown, operation = .setData data ∧ buffer.mBufferLength < data.length ∧
        allocation = none ∧ outcome = .threw thrown ∧ thrown.object = state.object ∧
        thrown.heap.live address = none := by
  cases operation with
  | setData data =>
      rcases setData_cases holds called with
        ⟨after, place, set, rfl, setEq, held, allocates⟩ |
        ⟨short, failed, thrown, rfl, sameObject, gone⟩
      · refine Or.inl ⟨after, place, set, true, rfl, ?_, held, ?_⟩
        · rw [Operation.onBuffer, setEq, Option.map_some]
        · rintro other same
          cases same
          exact allocates
      · exact Or.inr (Or.inr ⟨data, thrown, rfl, short, failed, rfl, sameObject, gone⟩)
  | addData data =>
      rcases addData_cases holds called with rfl | ⟨after, place, added, result, rfl, addedEq, held⟩
      · exact Or.inr (Or.inl ⟨⟨data, rfl⟩, rfl⟩)
      · exact Or.inl ⟨after, place, added, result, rfl, addedEq, held, fun _ same => by cases same⟩
  | eraseFront count =>
      cases called
      refine Or.inl ⟨_, address, _, true, rfl, ?_, holds_moved holds rfl,
        fun _ same => by cases same⟩
      rw [← holds.members]
      rfl
  | eraseBack count =>
      cases called
      refine Or.inl ⟨_, address, _, true, rfl, ?_, holds_moved holds rfl,
        fun _ same => by cases same⟩
      rw [← holds.members]
      rfl
  | clear =>
      cases called
      refine Or.inl ⟨_, address, _, true, rfl, ?_, holds_moved holds rfl,
        fun _ same => by cases same⟩
      rw [← holds.members]
      rfl

end Spec

/-! ## Every run -/

/-- A buffer in its heap, beside the string that the calls which returned should
have made of it. -/
structure Run where
  state : State
  text : List UInt8

structure Call where
  operation : Operation
  allocation : Allocation

/-- A buffer of `size` bytes that was just constructed. -/
def Run.new (heap : Heap UInt8) (address : Address) (size : UInt64) : Run where
  state := State.new heap address size.toNat
  text := []

/-- A call, after which the buffer is used on even if it threw. -/
def step : Step Run Call
  | run, call =>
      if call.operation.passed < 2 ^ 64 then
        (run.state.call call.allocation call.operation).map fun
          | .returned state result =>
              { state := state
                text := if result then call.operation.onString run.text else run.text }
          | .threw state => { state := state, text := run.text }
      else
        none

/-- `m_data` points to a live allocation of `m_buffer_length` bytes, and the
string is held in it. -/
def Intact (run : Run) : Prop :=
  ∃ address memory, run.state.object.mData = some address ∧
    run.state.heap.live address = some memory ∧
    memory.length = run.state.object.mBufferLength ∧
    (run.state.object.withData memory).bytes = run.text

/-- A `SetData` that needs a larger allocation gets one. -/
def SetDataAllocates (run : Run) (call : Call) : Prop :=
  ∀ data, call.operation = .setData data → run.state.object.mBufferLength < data.length →
    call.allocation ≠ none

/-- The cursors are in order. -/
structure Ordered (run : Run) : Prop where
  offset_le_end : run.state.object.mDataOffset ≤ run.state.object.mDataEnd
  end_le_length : run.state.object.mDataEnd ≤ run.state.object.mBufferLength
  length_lt : run.state.object.mBufferLength < 2 ^ 64

variable {run after : Run} {call : Call}

/-- A buffer whose cursors are in order is intact when it holds its string. -/
theorem intact_of_holds {address : Address} {buffer : CBuffer}
    (holds : Holds run.state address buffer) (ordered : buffer.InOrder)
    (textEq : buffer.bytes = run.text) : Intact run ∧ Ordered run := by
  have members := holds.members
  refine ⟨⟨address, buffer.mData, holds.pointer, holds.live, ?_, ?_⟩, ?_⟩
  · rw [ordered.allocated, ← members]
    rfl
  · rw [members]
    exact textEq
  · rw [← members] at ordered
    exact ⟨ordered.offset_le_end, ordered.end_le_length, ordered.length_lt⟩

/-- A call leaves the buffer intact unless it is a `SetData` whose allocation
failed. -/
theorem step_exact (ordered : Ordered run) (intact : Intact run)
    (stepEq : step run call = some after) :
    Ordered after ∧ (Intact after ↔ SetDataAllocates run call) := by
  rcases intact with ⟨address, memory, pointer, live, lengthEq, textEq⟩
  have holds : Holds run.state address (run.state.object.withData memory) := ⟨pointer, live, rfl⟩
  have inOrder : (run.state.object.withData memory).InOrder :=
    ⟨ordered.offset_le_end, ordered.end_le_length, lengthEq, ordered.length_lt⟩
  simp only [step] at stepEq
  split at stepEq
  · rename_i passed
    rcases Option.map_eq_some_iff.mp stepEq with ⟨outcome, called, rfl⟩
    rcases call_cases holds called with
      ⟨state, place, next, result, rfl, resultEq, held, allocates⟩ | ⟨⟨data, isAddData⟩, rfl⟩ |
      ⟨data, thrown, isSetData, short, failed, rfl, sameObject, gone⟩
    · have refines : Refines ⟨run.state.object.withData memory, run.text⟩ := ⟨inOrder, textEq⟩
      rcases onBuffer_of_some refines passed resultEq with ⟨rfl, refinesAfter⟩
      obtain ⟨intactAfter, orderedAfter⟩ : Intact ⟨state, call.operation.onString run.text⟩ ∧
          Ordered ⟨state, call.operation.onString run.text⟩ :=
        intact_of_holds held refinesAfter.ordered refinesAfter.text_eq
      exact ⟨orderedAfter, iff_of_true intactAfter allocates⟩
    · refine ⟨ordered, iff_of_true ⟨address, memory, pointer, live, lengthEq, textEq⟩ ?_⟩
      intro other isSetData
      rw [isAddData] at isSetData
      contradiction
    · refine ⟨?_, iff_of_false ?_ ?_⟩
      · exact ⟨sameObject ▸ ordered.offset_le_end, sameObject ▸ ordered.end_le_length,
          sameObject ▸ ordered.length_lt⟩
      · rintro ⟨other, _, otherPointer, stillLive, -⟩
        simp only [sameObject, pointer, Option.some.injEq] at otherPointer
        rw [← otherPointer, gone] at stillLive
        contradiction
      · exact fun allocates => allocates data isSetData short failed
  · contradiction

/-- In every state of a run `m_data` points to a live allocation of the right
size and the string is held in it, also after calls that threw, exactly when no
`SetData` in the run fails to get a larger allocation. -/
theorem intact_iff_setDataAllocates (heap : Heap UInt8) (address : Address) (size : UInt64)
    (calls : List Call) :
    Always step Intact calls (Run.new heap address size) ↔
      EachStep step SetDataAllocates calls (Run.new heap address size) := by
  have representable : size.toNat < 2 ^ 64 := size.toNat_lt
  obtain ⟨intact, ordered⟩ : Intact (Run.new heap address size) ∧
      Ordered (Run.new heap address size) :=
    intact_of_holds (holds_new heap address size.toNat) (CBuffer.new_inOrder representable)
      (CBuffer.bytes_of_start rfl rfl)
  exact always_iff_eachStep_of_exact (fun _ _ _ => step_exact) ordered intact

/-- An intact buffer is freed by its destructor. -/
theorem destroy_of_intact (intact : Intact run) :
    ∃ address destroyed, run.state.object.mData = some address ∧
      run.state.destroy = some destroyed ∧ destroyed.heap.live address = none := by
  rcases intact with ⟨address, memory, pointer, live, -⟩
  obtain ⟨destroyed, freed, gone⟩ := destroy_of_holds
    (⟨pointer, live, rfl⟩ : Holds run.state address (run.state.object.withData memory))
  exact ⟨address, destroyed, pointer, freed, gone⟩

/-- A buffer with one byte is set to two, for which there is no memory; its
destructor would free the allocation again. -/
theorem not_intact :
    ∃ run, execute step [⟨.setData [1], none⟩, ⟨.setData [2, 3], none⟩] (Run.new {} 7 1) =
        some run ∧ ¬ Intact run ∧ run.state.destroy = none := by
  refine ⟨_, rfl, ?_, rfl⟩
  rintro ⟨address, memory, pointer, live, -⟩
  cases pointer
  contradiction

end NginxFastcgi.Network.BufferStorage
