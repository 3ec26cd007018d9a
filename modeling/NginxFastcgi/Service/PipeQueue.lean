import NginxFastcgi.Foundation.Blocks
import NginxFastcgi.Foundation.ByteOrder
import NginxFastcgi.Foundation.MachineInt
import NginxFastcgi.Foundation.Memory
import NginxFastcgi.Network.PollUnit

/-!
# `CPipeQueue`, pointers through a kernel pipe

The writer keeps pointers in a growing buffer and writes its bytes to a pipe;
the reader collects bytes in a buffer of 32 pointers and pops them.  The
offsets of the writer count bytes, those of the reader count pointers, and all
of them are signed 32-bit integers that are compared with unsigned sizes.

A `write` takes as many of the offered bytes as the kernel has room for, and a
`read` returns as many of the wanted ones as are available; no byte stands for
a failed call.  The result `none` of an operation means that it left the
memory it owns, or went through a null owner.
-/

namespace NginxFastcgi.Service

open Foundation.ByteOrder
open Foundation.MachineInt
open Foundation.Memory
open NginxFastcgi.Network

def kCommonConstant : Nat := 32

/-- A pointer of a 64-bit host; zero is `NULL`. -/
abbrev Pointer := UInt64

namespace Pointer

/-- `sizeof(T)`. -/
def size : Nat := 8

/-- The bytes of a pointer in memory. -/
def bytes (data : Pointer) : List UInt8 :=
  littleEndian size data.toNat

/-- The pointer found in eight bytes of memory. -/
def ofBytes (memory : List UInt8) : Pointer :=
  UInt64.ofNat (ofLittleEndian memory)

@[simp]
theorem length_bytes (data : Pointer) : data.bytes.length = size :=
  length_littleEndian size data.toNat

@[simp]
theorem ofBytes_bytes (data : Pointer) : ofBytes data.bytes = data := by
  have fits : data.toNat < 256 ^ 8 := data.toNat_lt
  apply UInt64.toNat_inj.mp
  rw [ofBytes, bytes, ofLittleEndian_littleEndian, size, Nat.mod_eq_of_lt fits,
    UInt64.toNat_ofNat_of_lt' fits]

end Pointer

/-- What allocated memory happens to contain, by position. -/
abbrev Contents := Nat → UInt8

/-- The first `length` bytes of some contents. -/
def fresh (contents : Contents) (length : Nat) : List UInt8 :=
  (List.range length).map contents

@[simp]
theorem length_fresh (contents : Contents) (length : Nat) :
    (fresh contents length).length = length := by
  rw [fresh, List.length_map, List.length_range]

/-! ## The reader -/

structure CPipeQueueReader extends CPollUnit where
  /-- Counts pointers, as does the end. -/
  mDataNumOffset : Int := 0
  mDataNumEnd : Int := 0
  /-- Counts bytes. -/
  mRemainingSize : Int := 0
  mBuf : List UInt8

namespace CPipeQueueReader

def new (contents : Contents) : CPipeQueueReader where
  mBuf := fresh contents (kCommonConstant * Pointer.size)

def attachPool (reader : CPipeQueueReader) (pool : PoolId) (fd : Int) : CPipeQueueReader :=
  { reader with
    toCPollUnit :=
      (({ reader.toCPollUnit with mFd := fd }).enableInput.disableOutput).attachedTo pool }

/-- The end of `Pop`, which takes the pointer at the offset. -/
def take (reader : CPipeQueueReader) : CPipeQueueReader × Pointer :=
  ({ reader with
      mRemainingSize := toInt32 (reader.mRemainingSize - Pointer.size)
      mDataNumOffset := toInt32 (reader.mDataNumOffset + 1) },
    Pointer.ofBytes (slice reader.mBuf (Pointer.size * reader.mDataNumOffset.toNat) Pointer.size))

/-- The buffer after the bytes behind its last pointer were moved to the
front. -/
def moveFront (reader : CPipeQueueReader) : CPipeQueueReader :=
  { reader with
    mDataNumOffset := 0
    mDataNumEnd := 0
    mBuf :=
      if reader.mRemainingSize > 0 then
        blit reader.mBuf 0 (slice reader.mBuf (Pointer.size * reader.mDataNumOffset.toNat)
          reader.mRemainingSize.toNat)
      else
        reader.mBuf }

/-- The buffer after a `read` put bytes behind the remaining ones. -/
def fill (reader : CPipeQueueReader) (data : List UInt8) : CPipeQueueReader :=
  let remaining := toInt32 (reader.mRemainingSize + data.length)
  { reader with
    mBuf := blit reader.mBuf reader.mRemainingSize.toNat data
    mRemainingSize := remaining
    mDataNumEnd := toInt32 (toSize remaining / Pointer.size : Nat) }

/-- `Pop`, with the bytes in the pipe and how many of them a `read` finds
available.  The result is the reader, the pointer and what is left in the
pipe. -/
def pop (reader : CPipeQueueReader) (pipe : List UInt8) (available : Nat) :
    Option (CPipeQueueReader × Pointer × List UInt8) :=
  if reader.mDataNumOffset ≥ reader.mDataNumEnd then
    let reader := reader.moveFront
    let wanted := reader.mBuf.length - reader.mRemainingSize
    let data := pipe.take (min available wanted.toNat)
    if data = [] then
      some (reader, 0, pipe)
    else if reader.mRemainingSize < 0 then
      none
    else
      let popped := (reader.fill data).take
      some (popped.1, popped.2, pipe.drop data.length)
  else
    let popped := reader.take
    some (popped.1, popped.2, pipe)

end CPipeQueueReader

/-! ## The writer -/

structure CPipeQueueWriter extends CPollUnit where
  mBuf : List UInt8
  /-- Counts bytes, as does the end. -/
  mDataSizeOffset : Int := 0
  mDataSizeEnd : Int := 0
  /-- Counts pointers. -/
  mBufVolume : Int := kCommonConstant

namespace CPipeQueueWriter

/-- The constructor, whose `malloc` is taken to succeed. -/
def new (contents : Contents) : CPipeQueueWriter where
  mBuf := fresh contents (kCommonConstant * Pointer.size)

def attachPool (writer : CPipeQueueWriter) (pool : PoolId) (fd : Int) : CPipeQueueWriter :=
  { writer with
    toCPollUnit :=
      (({ writer.toCPollUnit with mFd := fd }).disableInput.disableOutput).attachedTo pool }

/-- `GetOwner()->ModifyEvent(this)`. -/
def modifyOwnEvent (writer : CPipeQueueWriter) : Option CPipeQueueWriter :=
  writer.modifyEvent.map fun unit => { writer with toCPollUnit := unit }

/-- The end of `OutputNotify`, which resets an empty buffer. -/
def finishOutput (writer : CPipeQueueWriter) : Option CPipeQueueWriter :=
  if toInt32 (writer.mDataSizeEnd - writer.mDataSizeOffset) ≤ 0 then
    modifyOwnEvent
      { writer with
        toCPollUnit := writer.disableOutput
        mDataSizeEnd := 0
        mDataSizeOffset := 0 }
  else
    writer.modifyOwnEvent

/-- `OutputNotify`, with the room in the pipe: the writer, and the bytes the
kernel took. -/
def outputNotify (writer : CPipeQueueWriter) (room : Nat) :
    Option (CPipeQueueWriter × List UInt8) :=
  let offered := (writer.mDataSizeEnd - writer.mDataSizeOffset).toNat
  let count := min room offered
  -- The address `m_buf + m_data_size_offset` counts pointers.
  let start := Pointer.size * writer.mDataSizeOffset.toNat
  if count = 0 then
    writer.finishOutput.map fun finished => (finished, [])
  else if start + count ≤ writer.mBuf.length then
    let moved := { writer with mDataSizeOffset := toInt32 (writer.mDataSizeOffset + count) }
    moved.finishOutput.map fun finished => (finished, slice writer.mBuf start count)
  else
    none

/-- The test for a full buffer at the start of `Push`. -/
def Full (writer : CPipeQueueWriter) : Prop :=
  toSize writer.mDataSizeEnd ≥ wrap64 (toSize writer.mBufVolume * Pointer.size)

instance (writer : CPipeQueueWriter) : Decidable writer.Full :=
  inferInstanceAs (Decidable (_ ≥ _))

/-- The first part of `Push`, which makes room in a full buffer.  The last
argument is what `realloc` returns; the result `none` is the return of -1. -/
def makeRoom (writer : CPipeQueueWriter) (realloc : Option Contents) :
    Option CPipeQueueWriter :=
  if writer.Full then
    if toSize writer.mDataSizeOffset > Pointer.size then
      let length := toInt32 (writer.mDataSizeEnd - writer.mDataSizeOffset)
      some
        { writer with
          mBuf := blit writer.mBuf 0
            (slice writer.mBuf writer.mDataSizeOffset.toNat length.toNat)
          mDataSizeEnd := length
          mDataSizeOffset := 0 }
    else
      realloc.map fun contents =>
        { writer with
          mBuf := writer.mBuf ++ fresh contents writer.mBuf.length
          mBufVolume := toInt32 (writer.mBufVolume * 2)
          mDataSizeOffset := 0 }
  else
    some writer

/-- The second part of `Push`, which stores a pointer behind the last one and
asks for output. -/
def store (writer : CPipeQueueWriter) (data : Pointer) : Option CPipeQueueWriter :=
  if 0 ≤ writer.mDataSizeEnd ∧
      writer.mDataSizeEnd.toNat + Pointer.size ≤ writer.mBuf.length then
    modifyOwnEvent
      { writer with
        toCPollUnit := writer.enableOutput
        mBuf := blit writer.mBuf writer.mDataSizeEnd.toNat data.bytes
        mDataSizeEnd := toInt32 (writer.mDataSizeEnd + Pointer.size) }
  else
    none

/-- The test for an early flush at the end of `Push`. -/
def FlushDue (writer : CPipeQueueWriter) : Prop :=
  toSize (toInt32 (writer.mDataSizeEnd - writer.mDataSizeOffset)) ≥
      kCommonConstant * Pointer.size ∧
    toSize writer.mDataSizeEnd % (kCommonConstant * Pointer.size) = 0

instance (writer : CPipeQueueWriter) : Decidable writer.FlushDue :=
  inferInstanceAs (Decidable (_ ∧ _))

/-- How `Push` ends. -/
inductive PushOutcome
  /-- The return of -1, with nothing changed. -/
  | failed
  /-- The return of 0, with the bytes the kernel took in an early flush. -/
  | pushed (writer : CPipeQueueWriter) (written : List UInt8)

def push (writer : CPipeQueueWriter) (data : Pointer) (realloc : Option Contents)
    (room : Nat) : Option PushOutcome :=
  match writer.makeRoom realloc with
  | none => some .failed
  | some roomy =>
      (roomy.store data).bind fun stored =>
        if stored.FlushDue then
          (stored.outputNotify room).map fun flushed => .pushed flushed.1 flushed.2
        else
          some (.pushed stored [])

end CPipeQueueWriter

/-! ## The queue -/

/-- The queue is its reader and has a writer. -/
structure CPipeQueue extends CPipeQueueReader where
  mWriter : CPipeQueueWriter
  /-- The bytes in the kernel pipe between the two. -/
  kernelPipe : List UInt8 := []

namespace CPipeQueue

/-- A new queue after `AttachPool(from, to)`, which got the two descriptors from
`pipe`. -/
def attachPool (readerContents writerContents : Contents) (source target : PoolId)
    (readFd writeFd : Int) : CPipeQueue where
  toCPipeQueueReader := (CPipeQueueReader.new readerContents).attachPool target readFd
  mWriter := (CPipeQueueWriter.new writerContents).attachPool source writeFd

/-- `Push` with its return value. -/
def push (queue : CPipeQueue) (data : Pointer) (realloc : Option Contents) (room : Nat) :
    Option (CPipeQueue × Int) :=
  (queue.mWriter.push data realloc room).map fun
    | .failed => (queue, -1)
    | .pushed writer written =>
        ({ queue with mWriter := writer, kernelPipe := queue.kernelPipe ++ written }, 0)

/-- The `OutputNotify` of the writer. -/
def outputNotify (queue : CPipeQueue) (room : Nat) : Option CPipeQueue :=
  (queue.mWriter.outputNotify room).map fun output =>
    { queue with mWriter := output.1, kernelPipe := queue.kernelPipe ++ output.2 }

/-- The `Pop` of the reader. -/
def popData (queue : CPipeQueue) (available : Nat) : Option (CPipeQueue × Pointer) :=
  (queue.toCPipeQueueReader.pop queue.kernelPipe available).map fun popped =>
    ({ queue with toCPipeQueueReader := popped.1, kernelPipe := popped.2.2 }, popped.2.1)

/-- How one turn of the loop in `InputNotify` ends. -/
inductive Turn
  | finished (queue : CPipeQueue)
  /-- The loop goes on after `TaskNotify(data)`. -/
  | notified (queue : CPipeQueue) (taskNum : Nat) (data : Pointer)

/-- One turn of the loop in `InputNotify`. -/
def turn (queue : CPipeQueue) (taskNum available : Nat) : Option Turn :=
  if taskNum + 1 ≤ kCommonConstant * 2 then
    (queue.popData available).map fun popped =>
      if popped.2 = 0 then
        .finished popped.1
      else
        .notified popped.1 (taskNum + 1) popped.2
  else
    some (.finished queue)

end CPipeQueue

end NginxFastcgi.Service
