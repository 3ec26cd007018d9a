import NginxFastcgi.Fcgi.Ipc
import NginxFastcgi.Foundation.Loop
import NginxFastcgi.Foundation.Memory

/-!
# Output streams of the FastCGI library

A writer collects content behind eight bytes that are kept free for a header.
`EmptyBuffProc` makes a record of what was collected and writes it out;
closing the stream adds the records that end it.  Positions are offsets into
the buffer.
-/

namespace NginxFastcgi.Fcgi

open Foundation
open Foundation.Memory

/-- `EOF`. -/
def eof : Int := -1

/-- `FCGX_Stream` with its `FCGX_Stream_Data`, for a stream that writes. -/
structure Writer where
  buff : List UInt8
  type : UInt8
  isAnythingWritten : Bool
  rawWrite : Bool
  wrNext : Nat
  stop : Nat
  isClosed : Bool
  wasFCloseCalled : Bool
  fcgiErrno : Int
  deriving DecidableEq

/-- `emptyBuffProc(stream, FALSE)`, which stores nothing on no return. -/
abbrev EmptyProc := Writer → Request → Option (Writer × Request)

/-- The number of bytes `NewStream` gives the buffer.  An unaligned allocation
costs eight bytes of it. -/
def streamBufflen (bufflen : Nat) (unaligned : Bool) : Nat :=
  if unaligned then
    alignInt8 (min (max bufflen 32) (fcgiMaxLength + 1)) - 8
  else
    alignInt8 (min (max bufflen 32) (fcgiMaxLength + 1))

/-- `NewWriter` on the memory of the buffer. -/
def newWriter (memory : List UInt8) (type : UInt8) : Writer where
  buff := memory
  type := type
  isAnythingWritten := false
  rawWrite := false
  wrNext := fcgiHeaderLen
  stop := memory.length
  isClosed := false
  wasFCloseCalled := false
  fcgiErrno := 0

namespace Writer

/-- `SetError`. -/
def setError (writer : Writer) (errno : Int) : Writer :=
  { writer with
    fcgiErrno := if writer.fcgiErrno = 0 then errno else writer.fcgiErrno
    isClosed := true }

/-- Copy bytes to `wrNext` and advance it. -/
def store (writer : Writer) (bytes : List UInt8) : Writer :=
  { writer with
    buff := blit writer.buff writer.wrNext bytes
    wrNext := writer.wrNext + bytes.length }

/-- One turn of the loop of `FCGX_PutStr`, for `n` bytes of which `str` are
left. -/
def putStrTurn (emptyProc : EmptyProc) (n : Nat) :
    Loop.Body (List UInt8 × Writer × Request) (Int × Writer × Request)
  | (str, writer, request) =>
      let room := writer.stop - writer.wrNext
      let stored := if room ≠ 0 then writer.store (str.take room) else writer
      let left := if room ≠ 0 then str.drop room else str
      if room ≠ 0 ∧ left = [] then
        some (.done (n, stored, request))
      else if stored.isClosed then
        some (.done (-1, stored, request))
      else
        (emptyProc stored request).map fun (emptied, after) => .again (left, emptied, after)

/-- `FCGX_PutStr` for a stream with the given procedure. -/
def putStr (emptyProc : EmptyProc) (str : List UInt8) (writer : Writer) (request : Request) :
    Option (Int × Writer × Request) :=
  if str.length ≤ writer.stop - writer.wrNext then
    some (str.length, writer.store str, request)
  else
    Loop.run (putStrTurn emptyProc str.length) (str.length + 2) (str, writer, request)

/-- The first part of `EmptyBuffProc`: the header and the padding around the
content, or the space of the header given back. -/
def encapsulate (writer : Writer) (requestId : Nat) : Writer :=
  if writer.rawWrite then
    writer
  else if writer.wrNext - fcgiHeaderLen > 0 then
    let cLen := writer.wrNext - fcgiHeaderLen
    let eLen := alignInt8 cLen
    let padded := writer.store (List.replicate (eLen - cLen) 0)
    { padded with
      buff := blit padded.buff 0 (makeHeader writer.type requestId cLen (eLen - cLen)).bytes }
  else
    { writer with wrNext := 0 }

/-- The buffer is empty: keep the space of a header free. -/
def reopen (writer : Writer) : Writer :=
  if writer.rawWrite then writer else { writer with wrNext := writer.wrNext + fcgiHeaderLen }

/-- The last part of `EmptyBuffProc`: write out what the buffer holds. -/
def writeOut (writer : Writer) (request : Request) : Writer × Request :=
  if writer.wrNext ≠ 0 then
    let marked := { writer with isAnythingWritten := true }
    match request.ipc.writeItAll (writer.buff.take writer.wrNext) with
    | (some errno, ipc) => (marked.setError errno, { request with ipc := ipc })
    | (none, ipc) => ({ marked with wrNext := 0 }.reopen, { request with ipc := ipc })
  else
    (writer.reopen, request)

/-- `EmptyBuffProc(stream, FALSE)`. -/
def emptyBuffProc : EmptyProc := fun writer request =>
  some ((writer.encapsulate request.requestId).writeOut request)

/-- The end-of-stream record of `WriteCloseRecords`, unless nothing was ever
written to the error stream. -/
def writeEof (writer : Writer) (request : Request) : Option (Writer × Request) :=
  if writer.type = fcgiStderr ∧ writer.wrNext = 0 ∧ writer.isAnythingWritten = false then
    some (writer, request)
  else
    (putStr emptyBuffProc (makeHeader writer.type request.requestId 0 0).bytes writer
      request).map Prod.snd

/-- The record with which the last writer of `WriteCloseRecords` ends the
request. -/
def writeEndRequest (writer : Writer) (request : Request) : Option (Writer × Request) :=
  if request.nWriters = 1 then
    (putStr emptyBuffProc ((makeHeader fcgiEndRequest request.requestId 8 0).bytes ++
      (makeEndRequestBody request.appStatus fcgiRequestComplete).bytes) writer request).map Prod.snd
  else
    some (writer, request)

/-- `WriteCloseRecords`. -/
def writeCloseRecords (writer : Writer) (request : Request) : Option (Writer × Request) := do
  let (writer, request) ← writeEof { writer with rawWrite := true } request
  let (writer, request) ← writeEndRequest writer request
  some (writer, { request with nWriters := request.nWriters - 1 })

/-- `EmptyBuffProc(stream, TRUE)`. -/
def emptyBuffProcClose (writer : Writer) (request : Request) : Option (Writer × Request) :=
  (writeCloseRecords (writer.encapsulate request.requestId) request).map fun (writer, request) =>
    writer.writeOut request

/-- `FCGX_PutChar`.  Without a result the assertion on the buffer procedure
fails. -/
def putChar (c : UInt8) (writer : Writer) (request : Request) :
    Option (Int × Writer × Request) :=
  if writer.wrNext ≠ writer.stop then
    some (c.toNat, writer.store [c], request)
  else if writer.isClosed then
    some (eof, writer, request)
  else
    (emptyBuffProc writer request).bind fun (writer, request) =>
      if writer.wrNext ≠ writer.stop then
        some (c.toNat, writer.store [c], request)
      else if writer.isClosed then
        some (eof, writer, request)
      else
        none

/-- `FCGX_FFlush`. -/
def fflush (writer : Writer) (request : Request) : Option (Int × Writer × Request) :=
  if writer.isClosed then
    some (0, writer, request)
  else
    (emptyBuffProc writer request).map fun (writer, request) =>
      (if writer.isClosed then -1 else 0, writer, request)

/-- The end of `FCGX_FClose`. -/
def shut (writer : Writer) : Writer :=
  { writer with wasFCloseCalled := true, isClosed := true, stop := writer.wrNext }

/-- `FCGX_FClose`. -/
def fclose (writer : Writer) (request : Request) : Option (Int × Writer × Request) :=
  if writer.wasFCloseCalled then
    some (if writer.fcgiErrno = 0 then 0 else eof, writer, request)
  else
    (emptyBuffProcClose writer request).map fun (writer, request) =>
      (if writer.fcgiErrno = 0 then 0 else eof, writer.shut, request)

end Writer

end NginxFastcgi.Fcgi
