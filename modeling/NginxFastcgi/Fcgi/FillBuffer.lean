import NginxFastcgi.Fcgi.Reader

/-!
# Filling the buffer of an input stream

`FillBuffProc` and the functions it interprets headers with.  `ReadParams` is
used on both levels: for the environment of a request, and for the names that
a management record asks for.
-/

namespace NginxFastcgi.Fcgi

open Foundation

namespace Reader

/-! ## Parameters -/

/-- The rest of a length of `ReadParams` whose first byte was read; `none`
where the three bytes behind it are not there. -/
def readLength (fill : FillProc) (first : UInt8) (reader : Reader) (request : Request) :
    Option (Option Nat × Reader × Request) :=
  if first &&& 0x80 ≠ 0 then
    (getStr fill 3 reader request).map fun (lenBuff, reader, request) =>
      (if lenBuff.length = 3 then
          some ((first &&& 0x7f).toNat <<< 24 + (lenBuff.getD 0 0).toNat <<< 16 +
            (lenBuff.getD 1 0).toNat <<< 8 + (lenBuff.getD 2 0).toNat)
        else
          none,
        reader, request)
  else
    some (some first.toNat, reader, request)

/-- The failing exits of `ReadParams`. -/
def paramsError (params : Params) (reader : Reader) (request : Request) :
    Loop.Turn (Params × Reader × Request) (Int × Params × Reader × Request) :=
  .done (-1, params, reader.setError fcgxParamsError, request)

/-- The part of a turn of `ReadParams` that has both lengths.  Their sum is an
`int`; where it overflows the allocation fails. -/
def readNameValue (fill : FillProc) (params : Params) (nameLen valueLen : Nat) (reader : Reader)
    (request : Request) :
    Option (Loop.Turn (Params × Reader × Request) (Int × Params × Reader × Request)) :=
  if nameLen + valueLen + 2 ≥ 2 ^ 31 then
    none
  else do
    let (name, reader, request) ← getStr fill nameLen reader request
    if name.length ≠ nameLen then
      some (paramsError params reader request)
    else
      let (value, reader, request) ← getStr fill valueLen reader request
      if value.length ≠ valueLen then
        some (paramsError params reader request)
      else
        some (.again (params.putParam (name ++ equalsSign :: value), reader, request))

/-- One turn of the loop of `ReadParams`. -/
def readParamsTurn (fill : FillProc) :
    Loop.Body (Params × Reader × Request) (Int × Params × Reader × Request)
  | (params, reader, request) => do
      match ← getChar fill reader request with
      | (none, reader, request) => some (.done (0, params, reader, request))
      | (some first, reader, request) =>
          match ← readLength fill first reader request with
          | (none, reader, request) => some (paramsError params reader request)
          | (some nameLen, reader, request) =>
              match ← getChar fill reader request with
              | (none, reader, request) => some (paramsError params reader request)
              | (some second, reader, request) =>
                  match ← readLength fill second reader request with
                  | (none, reader, request) => some (paramsError params reader request)
                  | (some valueLen, reader, request) =>
                      readNameValue fill params nameLen valueLen reader request

/-- `ReadParams`. -/
def readParams (fill : FillProc) (params : Params) (reader : Reader) (request : Request) :
    Option (Int × Params × Reader × Request) :=
  Loop.run (readParamsTurn fill) (reader.pending request + 1) (params, reader, request)

/-! ## The loop -/

/-- The turns of the loop of `FillBuffProc` carry the bytes of the header that
are there so far. -/
abbrev FillTurn := Loop.Turn (List UInt8 × Reader × Request) (Reader × Request)

/-- The stream while a header is interpreted: it ends with the record. -/
def atRecord (reader : Reader) : Reader :=
  { reader with eorStop := true, stop := reader.rdNext }

/-- The stream after the interpretation of a header. -/
def pastHeader (reader : Reader) : Reader :=
  { reader with eorStop := false, isClosed := false }

/-- What follows from the status of a header. -/
def afterHeader : Int × Reader × Request → FillTurn
  | (status, reader, request) =>
      let reader := reader.pastHeader
      if status = streamRecord then
        if reader.contentLen = 0 then
          .done ({ reader with stop := reader.rdNext, isClosed := true }, request)
        else
          .again ([], reader, request)
      else if status = skipRecord then
        .again ([], { reader with skip := true }, request)
      else if status = beginRecord then
        .done (reader, request)
      else if status = mgmtRecord then
        .again ([], reader, request)
      else
        .done (reader.setError status, request)

/-- The part of a turn of `FillBuffProc` behind content and padding: the end
of a bounded read, or the next piece of the header. -/
def endOfRecord (processHeader : HeaderProc) (header : List UInt8) (reader : Reader)
    (request : Request) : Option FillTurn :=
  if reader.eorStop then
    some (.done ({ reader with stop := reader.rdNext, isClosed := true }, request))
  else
    let count := min (fcgiHeaderLen - header.length) (reader.buff.length - reader.rdNext)
    let header := header ++ Memory.slice reader.buff reader.rdNext count
    let reader := reader.advance count
    if header.length < fcgiHeaderLen then
      some (.again (header, reader, request))
    else
      (processHeader (FCGIHeader.ofBytes header) reader.atRecord request).map afterHeader

/-- The part of a turn behind the content. -/
def skipPadding (processHeader : HeaderProc) (header : List UInt8) (reader : Reader)
    (request : Request) : Option FillTurn :=
  if reader.paddingLen > 0 then
    let count := min reader.paddingLen (reader.buff.length - reader.rdNext)
    let reader := { reader with paddingLen := reader.paddingLen - count }.advance count
    if reader.paddingLen > 0 then
      some (.again (header, reader, request))
    else
      endOfRecord processHeader header reader request
  else
    endOfRecord processHeader header reader request

/-- The part of a turn for which the buffer is not empty. -/
def useContent (processHeader : HeaderProc) (header : List UInt8) (reader : Reader)
    (request : Request) : Option FillTurn :=
  if reader.contentLen > 0 then
    let count := min reader.contentLen (reader.buff.length - reader.rdNext)
    let reader := { reader with contentLen := reader.contentLen - count }
    if reader.skip then
      let reader := reader.advance count
      if reader.contentLen > 0 then
        some (.again (header, reader, request))
      else
        skipPadding processHeader header { reader with skip := false } request
    else
      some (.done ({ reader with stop := reader.rdNext + count }, request))
  else
    skipPadding processHeader header reader request

/-- The turn of a read that returned. -/
def afterRead (processHeader : HeaderProc) (header : List UInt8) (reader : Reader)
    (request : Request) : Except Int (List UInt8) × Ipc → Option FillTurn
  | (.error errno, ipc) => some (.done (reader.setError errno, { request with ipc := ipc }))
  | (.ok [], ipc) =>
      some (.done (reader.setError fcgxProtocolError, { request with ipc := ipc }))
  | (.ok (byte :: bytes), ipc) =>
      useContent processHeader header { reader with buff := byte :: bytes, rdNext := 0 }
        { request with ipc := ipc }

/-- One turn of the loop of `FillBuffProc`. -/
def fillTurn (processHeader : HeaderProc) :
    Loop.Body (List UInt8 × Reader × Request) (Reader × Request)
  | (header, reader, request) =>
      if reader.rdNext = reader.buff.length then
        afterRead processHeader header reader request (request.ipc.osRead reader.bufflen)
      else
        useContent processHeader header reader request

/-- `FillBuffProc` with the given interpretation of headers. -/
def fillWith (processHeader : HeaderProc) : FillProc := fun reader request =>
  Loop.run (fillTurn processHeader) (reader.pending request + 1) ([], reader, request)

/-- `FillBuffProc` while `eorStop` is set, which never comes to a header. -/
def fillContent : FillProc :=
  fillWith fun _ _ _ => none

/-! ## Interpreting headers -/

/-- Write a response of the library itself. -/
def respond (status : Int) (response : List UInt8) (reader : Reader) (request : Request) :
    Int × Reader × Request :=
  match request.ipc.writeItAll response with
  | (some errno, ipc) => (-1, reader.setError errno, { request with ipc := ipc })
  | (none, ipc) => (status, reader, { request with ipc := ipc })

def maxConnsName : List UInt8 := textBytes "FCGI_MAX_CONNS"
def maxReqsName : List UInt8 := textBytes "FCGI_MAX_REQS"
def mpxsConnsName : List UInt8 := textBytes "FCGI_MPXS_CONNS"

/-- The value that is reported for a name. -/
def variableValue (name : List UInt8) : Option UInt8 :=
  if name = maxConnsName then some 49
  else if name = maxReqsName then some 49
  else if name = mpxsConnsName then some 48
  else none

/-- The name of an entry up to the first `=`, unless a null byte comes before
it: then `strchr` finds nothing and the null pointer is written to. -/
def entryName (entry : List UInt8) : Option (List UInt8) :=
  let name := entry.takeWhile (· ≠ equalsSign)
  if 0 ∈ name then none else some name

/-- The loop over the parameters: the response behind its header.  It fails
where the 64 bytes of the response are overrun. -/
def valuesLoop : List (List UInt8) → List UInt8 → Option (List UInt8)
  | [], response => some response
  | entry :: entries, response =>
      (entryName entry).bind fun name =>
        match variableValue name with
        | none => valuesLoop entries response
        | some value =>
            if fcgiHeaderLen + response.length + name.length + 4 > 64 then
              none
            else
              valuesLoop entries (response ++ UInt8.ofNat name.length :: 1 :: name ++ [value])

/-- The answer to `FCGI_GET_VALUES`.  The padding, which the library leaves as it
finds it, is zero here. -/
def valuesResponse (entries : List (List UInt8)) : Option (List UInt8) :=
  (valuesLoop entries []).map fun response =>
    (makeHeader fcgiGetValuesResult fcgiNullRequestId response.length
        (alignInt8 response.length - response.length)).bytes ++
      response ++ List.replicate (alignInt8 response.length - response.length) 0

/-- `ProcessManagementRecord`. -/
def processManagementRecord (type : UInt8) (reader : Reader) (request : Request) :
    Option (Int × Reader × Request) :=
  if type = fcgiGetValues then
    (readParams fillContent (Params.newParams 3 (by decide)) reader request).bind
      fun (_, params, reader, request) =>
        if reader.fcgiErrno ≠ 0 ∨ reader.contentLen ≠ 0 then
          some (fcgxProtocolError, reader, request)
        else
          (valuesResponse params.entries).map fun response =>
            respond mgmtRecord response reader request
  else
    some (respond mgmtRecord
      ((makeHeader fcgiUnknownType fcgiNullRequestId 8 0).bytes ++ makeUnknownTypeBody type)
      reader request)

/-- `ProcessBeginRecord`. -/
def processBeginRecord (requestId : Nat) (reader : Reader) (request : Request) :
    Option (Int × Reader × Request) :=
  if requestId = 0 ∨ reader.contentLen ≠ 8 then
    some (fcgxProtocolError, reader, request)
  else if request.isBeginProcessed then
    some (respond skipRecord
      ((makeHeader fcgiEndRequest requestId 8 0).bytes ++
        (makeEndRequestBody 0 fcgiCantMpxConn).bytes) reader request)
  else
    (getStr fillContent 8 reader { request with requestId := requestId }).map
      fun (memory, reader, request) =>
        if memory.length ≠ 8 then
          (fcgxProtocolError, reader, request)
        else
          let body := FCGIBeginRequestBody.ofBytes memory
          (beginRecord, reader,
            { request with
              keepConnection := body.flags &&& fcgiKeepConn ≠ 0
              role := joinBytes body.roleB1 body.roleB0
              isBeginProcessed := true })

/-- `ProcessHeader`. -/
def processHeader : HeaderProc := fun header reader request =>
  if header.version ≠ fcgiVersion1 then
    some (fcgxUnsupportedVersion, reader, request)
  else
    let requestId := header.requestId
    let reader :=
      { reader with
        contentLen := header.contentLength
        paddingLen := header.paddingLength.toNat }
    if header.type = fcgiBeginRequest then
      processBeginRecord requestId reader request
    else if requestId = fcgiNullRequestId then
      processManagementRecord header.type reader request
    else if requestId ≠ request.requestId then
      some (skipRecord, reader, request)
    else if header.type ≠ reader.type then
      some (fcgxProtocolError, reader, request)
    else
      some (streamRecord, reader, request)

/-- `FillBuffProc`. -/
def fillBuffProc : FillProc :=
  fillWith processHeader

end Reader

end NginxFastcgi.Fcgi
