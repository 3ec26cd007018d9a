import NginxFastcgi.Fcgi.Ipc
import NginxFastcgi.Fcgi.Params
import NginxFastcgi.Foundation.Loop
import NginxFastcgi.Foundation.Memory

/-!
# Input streams of the FastCGI library

A reader hands out the content of the records of one type and request.
`FillBuffProc` reads from the connection until some content is in the buffer,
and calls itself, bounded to one record, for the records it interprets on the
way.  Positions are offsets into the buffer, and `buff` ends at `buffStop`.
-/

namespace NginxFastcgi.Fcgi

open Foundation
open Foundation.Memory

def fcgxUnsupportedVersion : Int := -2
def fcgxProtocolError : Int := -3
def fcgxParamsError : Int := -4
def fcgxCallSeqError : Int := -5

/-- `OS_Read` of at most `len` bytes: the error number, or the bytes. -/
def Ipc.osRead (ipc : Ipc) (len : Nat) : Except Int (List UInt8) × Ipc :=
  match ipc.reads with
  | [] => (.ok [], ipc)
  | .failed errno :: reads => (.error errno, { ipc with reads := reads })
  | .data bytes :: reads =>
      if bytes.length ≤ len then
        (.ok bytes, { ipc with reads := reads })
      else
        (.ok (bytes.take len), { ipc with reads := .data (bytes.drop len) :: reads })

/-- `FCGX_Stream` with its `FCGX_Stream_Data`, for a stream that reads. -/
structure Reader where
  buff : List UInt8
  bufflen : Nat
  type : UInt8
  eorStop : Bool
  skip : Bool
  contentLen : Nat
  paddingLen : Nat
  rdNext : Nat
  stop : Nat
  stopUnget : Nat
  isClosed : Bool
  fcgiErrno : Int
  deriving DecidableEq

/-- `fillBuffProc`, without a result where it does not return. -/
abbrev FillProc := Reader → Request → Option (Reader × Request)

/-- The status of a `Process...` function, negative for an error. -/
abbrev HeaderProc := FCGIHeader → Reader → Request → Option (Int × Reader × Request)

def streamRecord : Int := 0
def skipRecord : Int := 1
def beginRecord : Int := 2
def mgmtRecord : Int := 3

/-- `NewReader`. -/
def newReader (bufflen : Nat) (type : UInt8) : Reader where
  buff := []
  bufflen := bufflen
  type := type
  eorStop := false
  skip := false
  contentLen := 0
  paddingLen := 0
  rdNext := 0
  stop := 0
  stopUnget := 0
  isClosed := false
  fcgiErrno := 0

/-- The number of bytes that the coming reads return. -/
def readsLength : List ReadAnswer → Nat
  | [] => 0
  | .data bytes :: reads => bytes.length + readsLength reads
  | .failed _ :: reads => readsLength reads

namespace Reader

/-- `SetError`. -/
def setError (reader : Reader) (errno : Int) : Reader :=
  { reader with
    fcgiErrno := if reader.fcgiErrno = 0 then errno else reader.fcgiErrno
    isClosed := true }

/-- `SetReaderType`. -/
def setReaderType (reader : Reader) (streamType : UInt8) : Reader :=
  { reader with
    type := streamType
    eorStop := false
    skip := false
    contentLen := 0
    paddingLen := 0
    stop := reader.rdNext
    isClosed := false }

/-- The bytes of the buffer that were not consumed. -/
def ahead (reader : Reader) : List UInt8 :=
  reader.buff.drop reader.rdNext

/-- The bytes a client can take without another fill. -/
def window (reader : Reader) : List UInt8 :=
  slice reader.buff reader.rdNext (reader.stop - reader.rdNext)

def advance (reader : Reader) (count : Nat) : Reader :=
  { reader with rdNext := reader.rdNext + count }

/-- What the connection can still deliver to the reader, in bytes. -/
def pending (reader : Reader) (request : Request) : Nat :=
  reader.buff.length - reader.rdNext + readsLength request.ipc.reads

/-! ## Taking bytes -/

/-- The part of `FCGX_GetChar` behind the fill.  It does not return where the
assertion on the fill procedure fails. -/
def charAfterFill : Reader × Request → Option (Option UInt8 × Reader × Request)
  | (reader, request) =>
      if reader.isClosed then
        some (none, reader, request)
      else if reader.rdNext ≠ reader.stop then
        some (some (reader.buff.getD reader.rdNext 0),
          { reader with stopUnget := reader.rdNext }.advance 1, request)
      else
        none

/-- `FCGX_GetChar`, with `none` for `EOF`. -/
def getChar (fill : FillProc) (reader : Reader) (request : Request) :
    Option (Option UInt8 × Reader × Request) :=
  if reader.isClosed then
    some (none, reader, request)
  else if reader.rdNext ≠ reader.stop then
    some (some (reader.buff.getD reader.rdNext 0), reader.advance 1, request)
  else
    (fill reader request).bind charAfterFill

/-- The end of a turn of `FCGX_GetStr`. -/
def strAfterFill (moved : List UInt8) :
    Reader × Request → Loop.Turn (List UInt8 × Reader × Request) (List UInt8 × Reader × Request)
  | (reader, request) =>
      if reader.isClosed then
        .done (moved, reader, request)
      else
        .again (moved, { reader with stopUnget := reader.rdNext }, request)

/-- One turn of the loop of `FCGX_GetStr`, for `n` bytes of which `str` were
moved. -/
def getStrTurn (fill : FillProc) (n : Nat) :
    Loop.Body (List UInt8 × Reader × Request) (List UInt8 × Reader × Request)
  | (str, reader, request) =>
      let m := min (n - str.length) (reader.stop - reader.rdNext)
      let moved := str ++ slice reader.buff reader.rdNext m
      let next := reader.advance m
      if (reader.rdNext ≠ reader.stop ∧ moved.length = n) ∨ next.isClosed then
        some (.done (moved, next, request))
      else
        (fill next request).map (strAfterFill moved)

/-- `FCGX_GetStr`, which returns the bytes it stored. -/
def getStr (fill : FillProc) (n : Nat) (reader : Reader) (request : Request) :
    Option (List UInt8 × Reader × Request) :=
  if reader.isClosed ∨ n = 0 then
    some ([], reader, request)
  else if n ≤ reader.stop - reader.rdNext then
    some (slice reader.buff reader.rdNext n, reader.advance n, request)
  else
    Loop.run (getStrTurn fill n) (2 * reader.pending request + 2) ([], reader, request)

/-- The loop of `FCGX_GetLine`, with `n` bytes of room left: the bytes stored
and whether `EOF` ended it. -/
def getLineLoop (fill : FillProc) :
    Nat → List UInt8 → Reader → Request → Option (List UInt8 × Reader × Request)
  | 0, str, reader, request => some (str, reader, request)
  | n + 1, str, reader, request =>
      (getChar fill reader request).bind fun
        | (none, reader, request) => some (str, reader, request)
        | (some c, reader, request) =>
            if c = 10 then
              some (str ++ [c], reader, request)
            else
              getLineLoop fill n (str ++ [c]) reader request

/-- `FCGX_GetLine` for a buffer of `n` bytes: `none` for the null pointer. -/
def getLine (fill : FillProc) (n : Nat) (reader : Reader) (request : Request) :
    Option (Option (List UInt8) × Reader × Request) :=
  (getLineLoop fill (n - 1) [] reader request).map fun (str, reader, request) =>
    (if str = [] ∧ 1 < n then none else some str, reader, request)

/-- `FCGX_UnGetChar`.  It does not return where it would store in front of the
buffer. -/
def unGetChar (c : UInt8) (reader : Reader) : Option (Option UInt8 × Reader) :=
  if reader.isClosed ∨ reader.rdNext = reader.stopUnget then
    some (none, reader)
  else if reader.rdNext = 0 then
    none
  else
    some (c, { reader with
      rdNext := reader.rdNext - 1
      buff := blit reader.buff (reader.rdNext - 1) [c] })

section Cases

variable {fill : FillProc} {reader : Reader} {request : Request}

theorem charAfterFill_of_closed (closed : reader.isClosed = true) :
    charAfterFill (reader, request) = some (none, reader, request) := by
  rw [charAfterFill, if_pos closed]

theorem charAfterFill_of_window (isOpen : reader.isClosed = false)
    (window : reader.rdNext ≠ reader.stop) :
    charAfterFill (reader, request) =
      some (some (reader.buff.getD reader.rdNext 0),
        { reader with stopUnget := reader.rdNext }.advance 1, request) := by
  rw [charAfterFill, if_neg (by simp [isOpen]), if_pos window]

theorem charAfterFill_of_used (isOpen : reader.isClosed = false)
    (used : reader.rdNext = reader.stop) : charAfterFill (reader, request) = none := by
  rw [charAfterFill, if_neg (by simp [isOpen]), if_neg (not_not_intro used)]

theorem getChar_of_closed (closed : reader.isClosed = true) :
    getChar fill reader request = some (none, reader, request) := by
  rw [getChar, if_pos closed]

theorem getChar_of_window (isOpen : reader.isClosed = false)
    (window : reader.rdNext ≠ reader.stop) :
    getChar fill reader request =
      some (some (reader.buff.getD reader.rdNext 0), reader.advance 1, request) := by
  rw [getChar, if_neg (by simp [isOpen]), if_pos window]

theorem getChar_of_used (isOpen : reader.isClosed = false)
    (used : reader.rdNext = reader.stop) :
    getChar fill reader request = (fill reader request).bind charAfterFill := by
  rw [getChar, if_neg (by simp [isOpen]), if_neg (not_not_intro used)]

end Cases

end Reader

end NginxFastcgi.Fcgi
