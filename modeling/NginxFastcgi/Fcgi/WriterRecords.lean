import NginxFastcgi.Fcgi.Writer

/-!
# What a writer sends

An open stream keeps what it accepted apart from what it sent, and everything
it sends is a record of content that was accepted before.  Closing it adds the
record that ends the stream and, for the last writer of a request, the record
that ends the request.  All of this is for a connection that takes what is
written, in parts of any size.
-/

namespace NginxFastcgi.Fcgi

open Foundation
open Foundation.Memory

namespace Writer

/-- A stream that neither failed nor was closed. -/
structure Open (writer : Writer) : Prop where
  aligned : 8 ∣ writer.buff.length
  large : 16 ≤ writer.buff.length
  small : writer.buff.length ≤ 65536
  stop_eq : writer.stop = writer.buff.length
  header_le : 8 ≤ writer.wrNext
  le_stop : writer.wrNext ≤ writer.stop
  not_raw : writer.rawWrite = false
  not_closed : writer.isClosed = false
  not_fclosed : writer.wasFCloseCalled = false
  no_error : writer.fcgiErrno = 0

/-- The content that was not made a record yet. -/
def content (writer : Writer) : List UInt8 :=
  slice writer.buff 8 (writer.wrNext - 8)

/-- A record of stream content, as `EmptyBuffProc` makes them. -/
structure IsChunk (type : UInt8) (requestId : Nat) (record : Record) : Prop where
  type_eq : record.type = type
  requestId_eq : record.requestId = requestId
  nonempty : record.content ≠ []
  aligned : 8 ∣ record.bytes.length

variable {writer : Writer}

theorem Open.length_content (isOpen : writer.Open) :
    writer.content.length = writer.wrNext - 8 := by
  have low := isOpen.header_le
  have high := isOpen.le_stop
  rw [isOpen.stop_eq] at high
  exact length_slice _ (by omega)

/-! ## Storing content -/

theorem Open.store (isOpen : writer.Open) {bytes : List UInt8}
    (fits : bytes.length ≤ writer.stop - writer.wrNext) : (writer.store bytes).Open := by
  have high := isOpen.le_stop
  have length : (blit writer.buff writer.wrNext bytes).length = writer.buff.length := by
    apply length_blit
    rw [isOpen.stop_eq] at high fits
    omega
  constructor
  · rw [Writer.store, length]
    exact isOpen.aligned
  · rw [Writer.store, length]
    exact isOpen.large
  · rw [Writer.store, length]
    exact isOpen.small
  · simp only [Writer.store, length, isOpen.stop_eq]
  · exact Nat.le_add_right_of_le isOpen.header_le
  · simp only [Writer.store]
    omega
  · exact isOpen.not_raw
  · exact isOpen.not_closed
  · exact isOpen.not_fclosed
  · exact isOpen.no_error

theorem Open.content_store (isOpen : writer.Open) (bytes : List UInt8) :
    (writer.store bytes).content = writer.content ++ bytes := by
  have low := isOpen.header_le
  have high := isOpen.le_stop
  rw [isOpen.stop_eq] at high
  have within : 8 + (writer.wrNext - 8) ≤ writer.buff.length := by
    omega
  have extended := slice_blit_extend writer.buff bytes within
  rw [Nat.add_sub_of_le low] at extended
  rw [content, content, ← extended]
  simp only [Writer.store]
  congr 1
  omega

/-! ## Making records -/

/-- The buffer holds `records`, which carry what the writer collected. -/
structure Encapsulates (writer : Writer) (requestId : Nat) (buff : List UInt8)
    (records : List Record) : Prop where
  encapsulate_eq :
    writer.encapsulate requestId = { writer with buff := buff, wrNext := (wire records).length }
  length_eq : buff.length = writer.buff.length
  within : (wire records).length ≤ writer.stop
  held : buff.take (wire records).length = wire records
  chunks : ∀ record ∈ records, IsChunk writer.type requestId record
  content_eq : records.flatMap Record.content = writer.content
  nil_iff : records = [] ↔ writer.content = []

theorem Open.encapsulate_of_empty (isOpen : writer.Open) (empty : writer.content = [])
    (requestId : Nat) : Encapsulates writer requestId writer.buff [] := by
  have length := isOpen.length_content
  rw [empty, List.length_nil] at length
  constructor
  · simp [encapsulate, isOpen.not_raw, ← length, fcgiHeaderLen]
  · rfl
  · simp
  · simp
  · simp
  · simp [empty]
  · simp [empty]

/-- The padding stays inside the buffer, as the buffer is a multiple of eight
bytes long. -/
theorem Open.padded_le (isOpen : writer.Open) :
    8 + alignInt8 (writer.wrNext - 8) ≤ writer.stop := by
  have low := isOpen.header_le
  have high := isOpen.le_stop
  have small := isOpen.small
  have large := isOpen.large
  rw [isOpen.stop_eq] at high ⊢
  have aligned : 8 ∣ writer.buff.length - 8 := Nat.dvd_sub isOpen.aligned (Nat.dvd_refl 8)
  have inside := alignInt8_le (n := writer.wrNext - 8) (by omega) aligned (by omega)
  omega

/-- The bytes that align the content. -/
def zeros (writer : Writer) : List UInt8 :=
  List.replicate (alignInt8 (writer.wrNext - 8) - (writer.wrNext - 8)) 0

theorem Open.fits_align (isOpen : writer.Open) : writer.wrNext - 8 + 7 < 2 ^ 32 := by
  have high := isOpen.le_stop
  have small := isOpen.small
  rw [isOpen.stop_eq] at high
  omega

theorem Open.length_zeros (isOpen : writer.Open) :
    writer.wrNext - 8 + writer.zeros.length = alignInt8 (writer.wrNext - 8) := by
  rw [zeros, List.length_replicate]
  exact Nat.add_sub_of_le (le_alignInt8 isOpen.fits_align)

/-- The record made of the content. -/
def chunk (writer : Writer) (isOpen : writer.Open) (requestId : Nat)
    (fits : requestId < 65536) : Record where
  type := writer.type
  requestId := requestId
  content := writer.content
  padding := writer.zeros
  requestId_lt := fits
  content_le := by
    have high := isOpen.le_stop
    have small := isOpen.small
    rw [isOpen.stop_eq] at high
    rw [isOpen.length_content, fcgiMaxLength]
    omega
  padding_lt := by
    have below := alignInt8_lt isOpen.fits_align
    rw [zeros, List.length_replicate]
    omega

section Chunk

variable (isOpen : writer.Open) {requestId : Nat} (fits : requestId < 65536)

theorem length_bytes_chunk :
    (writer.chunk isOpen requestId fits).bytes.length = 8 + alignInt8 (writer.wrNext - 8) := by
  rw [Record.length_bytes, ← isOpen.length_zeros, ← isOpen.length_content]
  rfl

theorem isChunk_chunk (nonempty : writer.content ≠ []) :
    IsChunk writer.type requestId (writer.chunk isOpen requestId fits) := by
  refine ⟨rfl, rfl, nonempty, ?_⟩
  rw [length_bytes_chunk]
  exact Nat.dvd_add (Nat.dvd_refl 8) (dvd_alignInt8 isOpen.fits_align)

include isOpen in
/-- Behind the header the buffer holds the content and its padding. -/
theorem drop_store_zeros :
    ((writer.store writer.zeros).buff.take (8 + alignInt8 (writer.wrNext - 8))).drop 8 =
      writer.content ++ writer.zeros := by
  have low := isOpen.header_le
  rw [← isOpen.content_store, content, slice, List.drop_take]
  simp only [store]
  congr 1
  have length := isOpen.length_zeros
  omega

theorem encapsulate_chunk (nonempty : writer.content ≠ []) :
    Encapsulates writer requestId
      (blit (writer.store writer.zeros).buff 0 (writer.chunk isOpen requestId fits).header.bytes)
      [writer.chunk isOpen requestId fits] := by
  have low := isOpen.header_le
  have high := isOpen.le_stop
  have length := isOpen.length_content
  have padding := isOpen.length_zeros
  have padded := isOpen.padded_le
  have total := length_bytes_chunk isOpen fits
  have positive : 0 < writer.wrNext - 8 := by
    rw [← length]
    exact List.length_pos_iff.mpr nonempty
  rw [isOpen.stop_eq] at high padded
  have single : wire [writer.chunk isOpen requestId fits] =
      (writer.chunk isOpen requestId fits).bytes := List.append_nil _
  have stored : (writer.store writer.zeros).buff.length = writer.buff.length :=
    length_blit _ _ (by omega)
  constructor
  · have header : (writer.chunk isOpen requestId fits).header =
        makeHeader writer.type requestId (writer.wrNext - 8) writer.zeros.length := by
      rw [Record.header, ← length]
      rfl
    have ends : writer.wrNext + writer.zeros.length =
        (wire [writer.chunk isOpen requestId fits]).length := by
      rw [single, total]
      omega
    have some_content : writer.wrNext - fcgiHeaderLen > 0 := positive
    rw [encapsulate, if_neg (by simp [isOpen.not_raw]), if_pos some_content, header, ← ends]
    simp only [zeros, List.length_replicate, fcgiHeaderLen, store]
  · rw [length_blit _ _ (by simp [stored]; omega), stored]
  · rw [single, total, isOpen.stop_eq]
    exact padded
  · have behind := drop_store_zeros isOpen
    rw [List.drop_take, Nat.add_sub_cancel_left] at behind
    rw [single, total, blit, List.take_zero, List.nil_append, Record.bytes]
    have split := @List.take_length_add_append _ (writer.chunk isOpen requestId fits).header.bytes
      ((writer.store writer.zeros).buff.drop 8) (alignInt8 (writer.wrNext - 8))
    rw [FCGIHeader.length_bytes, behind] at split
    exact split
  · simpa using isChunk_chunk isOpen fits nonempty
  · simp [chunk]
  · simp [nonempty]

end Chunk

/-! ## Emptying the buffer -/

variable {request : Request}

theorem writeOut_spec (sound : request.ipc.Sound) (writer : Writer) :
    ∃ after, writer.writeOut request =
        ({ writer with
            isAnythingWritten := writer.isAnythingWritten || decide (writer.wrNext ≠ 0)
            wrNext := if writer.rawWrite then 0 else fcgiHeaderLen }, after) ∧
      request.Sends after (writer.buff.take writer.wrNext) := by
  obtain ⟨noError, sends⟩ := Request.sends_writeItAll sound (writer.buff.take writer.wrNext)
  by_cases nothing : writer.wrNext = 0
  · refine ⟨request, ?_, ?_⟩
    · rcases writer with ⟨buff, type, written, raw, wrNext, stop, closed, fclosed, errno⟩
      simp only at nothing
      cases raw <;> simp [writeOut, reopen, nothing, fcgiHeaderLen]
    · rw [nothing, List.take_zero]
      exact Request.Sends.refl sound
  · refine ⟨_, ?_, sends⟩
    rw [writeOut, if_pos nothing]
    generalize request.ipc.writeItAll (writer.buff.take writer.wrNext) = outcome at noError
    obtain ⟨error, ipc⟩ := outcome
    simp only at noError
    subst noError
    simp only [reopen, nothing, ne_eq, not_false_eq_true, decide_true, Bool.or_true]
    split <;> simp_all

/-- From one state to another `records` went out while `put` was accepted. -/
structure Emits (writer : Writer) (request : Request) (after : Writer) (sent : Request)
    (records : List Record) (put : List UInt8) : Prop where
  isOpen : after.Open
  type_eq : after.type = writer.type
  sends : request.Sends sent (wire records)
  chunks : ∀ record ∈ records, IsChunk writer.type request.requestId record
  content_eq : records.flatMap Record.content ++ after.content = writer.content ++ put
  written_eq : after.isAnythingWritten = (writer.isAnythingWritten || !records.isEmpty)

theorem Emits.refl (isOpen : writer.Open) (sound : request.ipc.Sound) :
    Emits writer request writer request [] [] := by
  constructor
  · exact isOpen
  · rfl
  · exact Request.Sends.refl sound
  · simp
  · simp
  · simp

theorem Emits.trans {middle after : Writer} {sent final : Request} {records later : List Record}
    {put more : List UInt8} (first : Emits writer request middle sent records put)
    (second : Emits middle sent after final later more) :
    Emits writer request after final (records ++ later) (put ++ more) := by
  constructor
  · exact second.isOpen
  · rw [second.type_eq, first.type_eq]
  · rw [wire_append]
    exact first.sends.trans second.sends
  · intro record member
    rcases List.mem_append.mp member with early | late
    · exact first.chunks record early
    · have chunk := second.chunks record late
      rwa [first.type_eq, first.sends.requestId_eq] at chunk
  · rw [List.flatMap_append, List.append_assoc, second.content_eq, ← List.append_assoc,
      first.content_eq, List.append_assoc]
  · rw [second.written_eq, first.written_eq]
    cases records <;> simp

theorem Emits.store {after : Writer} {sent : Request} {records : List Record}
    {put bytes : List UInt8} (emits : Emits writer request after sent records put)
    (fits : bytes.length ≤ after.stop - after.wrNext) :
    Emits writer request (after.store bytes) sent records (put ++ bytes) := by
  constructor
  · exact emits.isOpen.store fits
  · exact emits.type_eq
  · exact emits.sends
  · exact emits.chunks
  · rw [emits.isOpen.content_store, ← List.append_assoc, emits.content_eq, List.append_assoc]
  · exact emits.written_eq

/-- The records made of the content. -/
theorem Open.encapsulates (isOpen : writer.Open) {requestId : Nat} (fits : requestId < 65536) :
    ∃ buff records, Encapsulates writer requestId buff records := by
  by_cases empty : writer.content = []
  · exact ⟨_, _, isOpen.encapsulate_of_empty empty requestId⟩
  · exact ⟨_, _, encapsulate_chunk isOpen fits empty⟩

/-- Emptying the buffer turns the content into a record and sends it. -/
theorem emptyBuffProc_emits (isOpen : writer.Open) (sound : request.ipc.Sound)
    (fits : request.requestId < 65536) :
    ∃ after sent records, emptyBuffProc writer request = some (after, sent) ∧
      Emits writer request after sent records [] ∧ after.wrNext = fcgiHeaderLen := by
  obtain ⟨buff, records, encapsulates⟩ := isOpen.encapsulates fits
  obtain ⟨sent, wroteEq, sends⟩ := writeOut_spec sound (writer.encapsulate request.requestId)
  refine ⟨_, sent, records, congrArg some wroteEq, ?_, ?_⟩
  · rw [encapsulates.encapsulate_eq] at sends ⊢
    simp only [encapsulates.held] at sends
    simp only [isOpen.not_raw, Bool.false_eq_true, if_false]
    have length := encapsulates.length_eq
    have large := isOpen.large
    constructor
    · constructor
      · simpa [length] using isOpen.aligned
      · simpa [length] using isOpen.large
      · simpa [length] using isOpen.small
      · simpa [length] using isOpen.stop_eq
      · exact Nat.le_refl _
      · simp only [isOpen.stop_eq, fcgiHeaderLen]
        omega
      · rfl
      · exact isOpen.not_closed
      · exact isOpen.not_fclosed
      · exact isOpen.no_error
    · rfl
    · exact sends
    · exact encapsulates.chunks
    · simp [encapsulates.content_eq, content, fcgiHeaderLen]
    · cases records with
      | nil => simp
      | cons record records =>
          simp [Record.bytes]
  · simp [encapsulates.encapsulate_eq, isOpen.not_raw]

/-! ## Putting strings -/

/-- A stream state that says which bytes it accepted, kept by storing bytes
and by emptying the buffer, which makes room. -/
structure PutRule (emptyProc : EmptyProc)
    (accepted : List UInt8 → Writer → Request → Prop) : Prop where
  not_closed : ∀ {put writer request}, accepted put writer request → writer.isClosed = false
  store : ∀ {put writer request bytes}, accepted put writer request →
    bytes.length ≤ writer.stop - writer.wrNext →
    accepted (put ++ bytes) (writer.store bytes) request
  empty : ∀ {put writer request}, accepted put writer request →
    ∃ after sent, emptyProc writer request = some (after, sent) ∧ accepted put after sent ∧
      after.stop - after.wrNext ≠ 0

section PutRule

variable {emptyProc : EmptyProc} {accepted : List UInt8 → Writer → Request → Prop}
  (rule : PutRule emptyProc accepted)
include rule

/-- One turn puts what fits, and makes room if that is not all. -/
theorem PutRule.turn {put left : List UInt8} (n : Nat) (held : accepted put writer request)
    (nonempty : left ≠ []) :
    (∃ moved rest after sent,
      putStrTurn emptyProc n (left, writer, request) = some (.again (rest, after, sent)) ∧
        left = moved ++ rest ∧ rest ≠ [] ∧ accepted (put ++ moved) after sent ∧
        after.stop - after.wrNext ≠ 0 ∧ (writer.stop - writer.wrNext ≠ 0 → moved ≠ [])) ∨
    ∃ after, putStrTurn emptyProc n (left, writer, request) = some (.done (n, after, request)) ∧
      accepted (put ++ left) after request := by
  by_cases full : writer.stop - writer.wrNext = 0
  · obtain ⟨after, sent, emptied, kept, room⟩ := rule.empty held
    refine Or.inl ⟨[], left, after, sent, ?_, rfl, nonempty, ?_, room, absurd full⟩
    · simp [putStrTurn, full, rule.not_closed held, emptied]
    · rwa [List.append_nil]
  · have stored := rule.store held (List.length_take_le (writer.stop - writer.wrNext) left)
    by_cases whole : left.drop (writer.stop - writer.wrNext) = []
    · rw [List.take_of_length_le (List.drop_eq_nil_iff.mp whole)] at stored
      refine Or.inr ⟨_, ?_, stored⟩
      simp [putStrTurn, full, whole, List.take_of_length_le (List.drop_eq_nil_iff.mp whole)]
    · obtain ⟨after, sent, emptied, kept, room⟩ := rule.empty stored
      refine Or.inl ⟨left.take (writer.stop - writer.wrNext), _, after, sent, ?_,
        (List.take_append_drop _ _).symm, whole, kept, room, ?_⟩
      · simp [putStrTurn, full, whole, rule.not_closed stored, emptied]
      · intro _
        simp [full, nonempty]

/-- `FCGX_PutStr` returns, and the stream accepted the whole string. -/
theorem PutRule.putStr {put : List UInt8} (held : accepted put writer request)
    (str : List UInt8) :
    ∃ after sent, writer.putStr emptyProc str request = some ((str.length : Int), after, sent) ∧
      accepted (put ++ str) after sent := by
  unfold Writer.putStr
  split
  · rename_i fits
    exact ⟨_, _, rfl, rule.store held fits⟩
  · rename_i long
    have nonempty : str ≠ [] := by
      rintro rfl
      exact long (Nat.zero_le _)
    obtain ⟨⟨n, after, sent⟩, runs, rfl, done⟩ := Loop.run_total (putStrTurn emptyProc str.length)
      (fun state => state.1 ≠ [] ∧
        ∃ moved, moved ++ state.1 = str ∧ accepted (put ++ moved) state.2.1 state.2.2)
      (fun result => result.1 = str.length ∧ accepted (put ++ str) result.2.1 result.2.2)
      (fun state => state.1.length +
        if state.2.1.stop - state.2.1.wrNext = 0 then 1 else 0)
      (by
        rintro ⟨left, writer, request⟩ ⟨leftNonempty, moved, rfl, held⟩
        rcases rule.turn (moved ++ left).length held leftNonempty with
          ⟨next, rest, after, sent, turnEq, rfl, restNonempty, kept, room, progress⟩ |
          ⟨after, turnEq, kept⟩
        · refine Or.inl ⟨_, turnEq, ⟨restNonempty, moved ++ next, ?_, ?_⟩, ?_⟩
          · rw [List.append_assoc]
          · rwa [← List.append_assoc]
          · simp only [room, if_false, List.length_append]
            split
            · omega
            · rename_i notFull
              have moves := List.length_pos_iff.mpr (progress notFull)
              omega
        · rw [List.append_assoc] at kept
          exact Or.inr ⟨_, turnEq, rfl, kept⟩)
      (str.length + 2) (str, writer, request)
      ⟨nonempty, [], rfl, by rwa [List.append_nil]⟩
      (by
        dsimp only
        split <;> omega)
    exact ⟨after, sent, runs, done⟩

end PutRule

theorem putRule_emits (fits : request.requestId < 65536) :
    PutRule emptyBuffProc fun put after sent =>
      ∃ records, Emits writer request after sent records put := by
  constructor
  · rintro put after sent ⟨records, emits⟩
    exact emits.isOpen.not_closed
  · rintro put after sent bytes ⟨records, emits⟩ room
    exact ⟨records, emits.store room⟩
  · rintro put after sent ⟨records, emits⟩
    have sentFits : sent.requestId < 65536 := by
      rw [emits.sends.requestId_eq]
      exact fits
    obtain ⟨emptied, final, later, emptyEq, more, wrNext⟩ :=
      emptyBuffProc_emits emits.isOpen emits.sends.sound sentFits
    refine ⟨emptied, final, emptyEq, ⟨records ++ later, ?_⟩, ?_⟩
    · simpa using emits.trans more
    · have large := more.isOpen.large
      rw [more.isOpen.stop_eq, wrNext, fcgiHeaderLen]
      omega

/-- `FCGX_PutStr` on an open stream. -/
theorem putStr_emits (isOpen : writer.Open) (sound : request.ipc.Sound)
    (fits : request.requestId < 65536) (str : List UInt8) :
    ∃ after sent records,
      putStr emptyBuffProc str writer request = some ((str.length : Int), after, sent) ∧
        Emits writer request after sent records str := by
  have start : ∃ records, Emits writer request writer request records [] :=
    ⟨[], Emits.refl isOpen sound⟩
  obtain ⟨after, sent, putEq, records, emits⟩ := (putRule_emits fits).putStr start str
  exact ⟨after, sent, records, putEq, emits⟩

/-- `FCGX_PutChar` on an open stream. -/
theorem putChar_emits (isOpen : writer.Open) (sound : request.ipc.Sound)
    (fits : request.requestId < 65536) (c : UInt8) :
    ∃ after sent records, putChar c writer request = some ((c.toNat : Int), after, sent) ∧
      Emits writer request after sent records [c] := by
  have high := isOpen.le_stop
  by_cases full : writer.wrNext = writer.stop
  · obtain ⟨emptied, sent, records, emptyEq, emits, wrNext⟩ :=
      emptyBuffProc_emits isOpen sound fits
    have large := emits.isOpen.large
    have room : emptied.wrNext < emptied.stop := by
      rw [emits.isOpen.stop_eq, wrNext, fcgiHeaderLen]
      omega
    refine ⟨emptied.store [c], sent, records, ?_, emits.store (Nat.sub_pos_of_lt room)⟩
    simp [putChar, full, isOpen.not_closed, emptyEq, Nat.ne_of_lt room]
  · have room : writer.wrNext < writer.stop := Nat.lt_of_le_of_ne high full
    refine ⟨_, request, [], ?_, (Emits.refl isOpen sound).store (Nat.sub_pos_of_lt room)⟩
    simp [putChar, full]

/-- `FCGX_FFlush` on an open stream leaves nothing collected. -/
theorem fflush_emits (isOpen : writer.Open) (sound : request.ipc.Sound)
    (fits : request.requestId < 65536) :
    ∃ after sent records, fflush writer request = some (0, after, sent) ∧
      Emits writer request after sent records [] ∧ after.content = [] := by
  obtain ⟨after, sent, records, emptyEq, emits, wrNext⟩ := emptyBuffProc_emits isOpen sound fits
  refine ⟨after, sent, records, ?_, emits, ?_⟩
  · simp [fflush, isOpen.not_closed, emptyEq, emits.isOpen.not_closed]
  · simp [content, wrNext, fcgiHeaderLen]

/-! ## Closing -/

/-- The record that ends a stream. -/
def eofRecord (type : UInt8) (requestId : Nat) (fits : requestId < 65536) : Record where
  type := type
  requestId := requestId
  content := []
  padding := []
  requestId_lt := fits
  content_le := Record.empty_le
  padding_lt := Record.empty_lt

/-- A buffer whose bytes go out as they are. -/
structure Raw (writer : Writer) : Prop where
  large : 16 ≤ writer.buff.length
  stop_eq : writer.stop = writer.buff.length
  le_stop : writer.wrNext ≤ writer.stop
  raw : writer.rawWrite = true
  not_closed : writer.isClosed = false
  no_error : writer.fcgiErrno = 0

/-- The bytes in front of `wrNext`. -/
def held (writer : Writer) : List UInt8 :=
  writer.buff.take writer.wrNext

/-- From one state to another all of `put` was accepted as it is. -/
structure PutsRaw (writer : Writer) (request : Request) (put : List UInt8) (after : Writer)
    (sent : Request) : Prop where
  isRaw : after.Raw
  sends : ∃ out, request.Sends sent out ∧ out ++ after.held = writer.held ++ put

theorem putRule_putsRaw : PutRule emptyBuffProc (PutsRaw writer request) := by
  constructor
  · intro put after sent puts
    exact puts.isRaw.not_closed
  · rintro put after sent bytes ⟨isRaw, out, sends, outEq⟩ room
    have high := isRaw.le_stop
    rw [isRaw.stop_eq] at high room
    have length : (blit after.buff after.wrNext bytes).length = after.buff.length :=
      length_blit _ _ (by omega)
    have within : 0 + after.wrNext ≤ after.buff.length := by
      omega
    have extended := slice_blit_extend after.buff bytes within
    have heldEq : (after.store bytes).held = after.held ++ bytes := by
      simpa [slice, held, Writer.store] using extended
    refine ⟨⟨?_, ?_, ?_, isRaw.raw, isRaw.not_closed, isRaw.no_error⟩, out, sends, ?_⟩
    · simpa [Writer.store, length] using isRaw.large
    · simp [Writer.store, length, isRaw.stop_eq]
    · simp only [Writer.store, isRaw.stop_eq]
      omega
    · rw [heldEq, ← List.append_assoc, outEq, List.append_assoc]
  · rintro put after sent ⟨isRaw, out, sends, outEq⟩
    have large := isRaw.large
    obtain ⟨final, wroteEq, more⟩ := writeOut_spec sends.sound after
    have unframed : after.encapsulate sent.requestId = after := by simp [encapsulate, isRaw.raw]
    have emptyEq : emptyBuffProc after sent = some (after.writeOut sent) := by
      rw [emptyBuffProc, unframed]
    rw [wroteEq] at emptyEq
    refine ⟨_, final, emptyEq, ⟨⟨large, isRaw.stop_eq, ?_, isRaw.raw, isRaw.not_closed,
      isRaw.no_error⟩, _, sends.trans more, ?_⟩, ?_⟩
    · simp [isRaw.raw]
    · simpa [held, isRaw.raw] using outEq
    · simp only [isRaw.raw, if_true, isRaw.stop_eq]
      omega

theorem Raw.putStr (isRaw : writer.Raw) (sound : request.ipc.Sound) (str : List UInt8) :
    ∃ n after sent, putStr emptyBuffProc str writer request = some (n, after, sent) ∧
      PutsRaw writer request str after sent := by
  have start : PutsRaw writer request [] writer request :=
    ⟨isRaw, [], Request.Sends.refl sound, by simp⟩
  obtain ⟨after, sent, putEq, puts⟩ := putRule_putsRaw.putStr start str
  exact ⟨_, after, sent, putEq, puts⟩

theorem PutsRaw.trans {middle after : Writer} {sent final : Request} {put more : List UInt8}
    (first : PutsRaw writer request put middle sent)
    (second : PutsRaw middle sent more after final) :
    PutsRaw writer request (put ++ more) after final := by
  obtain ⟨out, sends, outEq⟩ := first.sends
  obtain ⟨later, sendsLater, laterEq⟩ := second.sends
  refine ⟨second.isRaw, _, sends.trans sendsLater, ?_⟩
  rw [List.append_assoc, laterEq, ← List.append_assoc, outEq, List.append_assoc]

/-- The end-of-stream record, where there is one. -/
def eofRecords (writer : Writer) (records : List Record) (requestId : Nat)
    (fits : requestId < 65536) : List Record :=
  if writer.type = fcgiStderr ∧ records = [] ∧ writer.isAnythingWritten = false then
    []
  else
    [eofRecord writer.type requestId fits]

/-- The record of the last writer, where this is it. -/
def endRecords (request : Request) (fits : request.requestId < 65536) : List Record :=
  if request.nWriters = 1 then
    [endRequestRecord request.requestId fits request.appStatus fcgiRequestComplete]
  else
    []

theorem writeEof_puts (isRaw : writer.Raw) (sound : request.ipc.Sound)
    (fits : request.requestId < 65536) {records : List Record}
    (atEnd : writer.wrNext = (wire records).length) :
    ∃ after sent, writeEof writer request = some (after, sent) ∧
      PutsRaw writer request (wire (eofRecords writer records request.requestId fits))
        after sent := by
  have nothing : writer.wrNext = 0 ↔ records = [] := by
    rw [atEnd]
    cases records <;> simp [Record.bytes]
  unfold writeEof eofRecords
  simp only [nothing]
  split
  · exact ⟨writer, request, rfl, isRaw, [], Request.Sends.refl sound, by simp⟩
  · obtain ⟨n, after, sent, putEq, puts⟩ :=
      isRaw.putStr sound (makeHeader writer.type request.requestId 0 0).bytes
    refine ⟨after, sent, by rw [putEq]; rfl, ?_⟩
    simpa [eofRecord, Record.bytes, Record.header] using puts

theorem writeEndRequest_puts (isRaw : writer.Raw) (sound : request.ipc.Sound)
    (fits : request.requestId < 65536) :
    ∃ after sent, writeEndRequest writer request = some (after, sent) ∧
      PutsRaw writer request (wire (endRecords request fits)) after sent := by
  unfold writeEndRequest endRecords
  split
  · obtain ⟨n, after, sent, putEq, puts⟩ := isRaw.putStr sound
      ((makeHeader fcgiEndRequest request.requestId 8 0).bytes ++
        (makeEndRequestBody request.appStatus fcgiRequestComplete).bytes)
    refine ⟨after, sent, by rw [putEq]; rfl, ?_⟩
    simpa [endRequestRecord, Record.bytes, Record.header] using puts
  · exact ⟨writer, request, rfl, isRaw, [], Request.Sends.refl sound, by simp⟩

/-- A stream that was closed without an error. -/
structure Closed (writer : Writer) : Prop where
  closed : writer.isClosed = true
  fclosed : writer.wasFCloseCalled = true
  no_room : writer.stop = writer.wrNext
  no_error : writer.fcgiErrno = 0

theorem Encapsulates.raw {requestId : Nat} {buff : List UInt8} {records : List Record}
    (encapsulates : Encapsulates writer requestId buff records) (isOpen : writer.Open) :
    Raw { writer.encapsulate requestId with rawWrite := true } := by
  rw [encapsulates.encapsulate_eq]
  constructor
  · simpa [encapsulates.length_eq] using isOpen.large
  · simpa [encapsulates.length_eq] using isOpen.stop_eq
  · exact encapsulates.within
  · rfl
  · exact isOpen.not_closed
  · exact isOpen.no_error

/-- Both kinds of records that close a stream go through the buffer. -/
theorem writeCloseRecords_puts {requestId : Nat} {buff : List UInt8} {records : List Record}
    (encapsulates : Encapsulates writer requestId buff records) (isOpen : writer.Open)
    (sound : request.ipc.Sound) (fits : request.requestId < 65536) :
    ∃ after sent, writeCloseRecords (writer.encapsulate requestId) request =
        some (after, { sent with nWriters := sent.nWriters - 1 }) ∧
      PutsRaw { writer.encapsulate requestId with rawWrite := true } request
        (wire (eofRecords writer records request.requestId fits ++ endRecords request fits))
        after sent := by
  have isRaw := encapsulates.raw isOpen
  rw [encapsulates.encapsulate_eq] at isRaw ⊢
  obtain ⟨middle, sent, eofEq, first⟩ := writeEof_puts isRaw sound fits rfl
  obtain ⟨out, sends, -⟩ := first.sends
  have sentFits : sent.requestId < 65536 := by
    rw [sends.requestId_eq]
    exact fits
  obtain ⟨after, final, endEq, second⟩ := writeEndRequest_puts first.isRaw sends.sound sentFits
  have sameEnd : endRecords sent sentFits = endRecords request fits := by
    simp only [endRecords, sends.requestId_eq, sends.nWriters_eq, sends.appStatus_eq]
  refine ⟨after, final, ?_, ?_⟩
  · simp only [writeCloseRecords, eofEq, endEq, Option.bind_eq_bind, Option.bind_some]
  · rw [sameEnd] at second
    rw [wire_append]
    exact first.trans second

/-- `FCGX_FClose` on an open stream sends what was collected and the records
that close the stream. -/
theorem fclose_spec (isOpen : writer.Open) (sound : request.ipc.Sound)
    (fits : request.requestId < 65536) :
    ∃ after sent records, fclose writer request = some (0, after, sent) ∧ after.Closed ∧
      (∀ record ∈ records, IsChunk writer.type request.requestId record) ∧
      records.flatMap Record.content = writer.content ∧
      Request.Sends { request with nWriters := request.nWriters - 1 } sent
        (wire (records ++ (eofRecords writer records request.requestId fits ++
          endRecords request fits))) := by
  obtain ⟨buff, records, encapsulates⟩ := isOpen.encapsulates fits
  obtain ⟨after, sent, closeEq, puts⟩ :=
    writeCloseRecords_puts encapsulates isOpen sound fits
  obtain ⟨out, sends, outEq⟩ := puts.sends
  have frame := sends.frame
  have lowered : Request.Sends { request with nWriters := request.nWriters - 1 }
      { sent with nWriters := sent.nWriters - 1 } out := by
    refine ⟨sends.written, sends.reads, sends.sound, ?_⟩
    rw [frame]
  obtain ⟨final, wroteEq, rest⟩ := writeOut_spec lowered.sound after
  have heldFirst : held { writer.encapsulate request.requestId with rawWrite := true } =
      wire records := by
    rw [encapsulates.encapsulate_eq]
    exact encapsulates.held
  rw [heldFirst] at outEq
  refine ⟨(after.writeOut { sent with nWriters := sent.nWriters - 1 }).1.shut, final, records,
    ?_, ?_, encapsulates.chunks, encapsulates.content_eq, ?_⟩
  · rw [fclose, if_neg (by simp [isOpen.not_fclosed]), emptyBuffProcClose, closeEq,
      Option.map_some, Option.map_some]
    simp only [wroteEq, puts.isRaw.no_error, ↓reduceIte]
  · rw [wroteEq]
    exact ⟨rfl, rfl, rfl, puts.isRaw.no_error⟩
  · rw [wire_append, ← outEq]
    exact lowered.trans rest

/-! ## A new stream -/

theorem streamBufflen_bounds (bufflen : Nat) (unaligned : Bool) :
    8 ∣ streamBufflen bufflen unaligned ∧ 16 ≤ streamBufflen bufflen unaligned ∧
      streamBufflen bufflen unaligned ≤ 65536 := by
  have fits : min (max bufflen 32) (fcgiMaxLength + 1) + 7 < 2 ^ 32 := by
    simp only [fcgiMaxLength]
    omega
  have atLeast := le_alignInt8 fits
  have atMost : alignInt8 (min (max bufflen 32) (fcgiMaxLength + 1)) ≤ 65536 :=
    alignInt8_le fits (by decide) (Nat.min_le_right _ _)
  have divides := dvd_alignInt8 fits
  simp only [fcgiMaxLength] at atLeast atMost divides
  simp only [streamBufflen, fcgiMaxLength]
  split
  · exact ⟨Nat.dvd_sub divides (Nat.dvd_refl 8), by omega, by omega⟩
  · exact ⟨divides, by omega, atMost⟩

/-- Memory of the size that `NewStream` allocates. -/
def IsStreamMemory (memory : List UInt8) : Prop :=
  ∃ bufflen unaligned, memory.length = streamBufflen bufflen unaligned

theorem newWriter_open {memory : List UInt8} (sized : IsStreamMemory memory) (type : UInt8) :
    (newWriter memory type).Open := by
  obtain ⟨bufflen, unaligned, length⟩ := sized
  obtain ⟨divides, large, small⟩ := streamBufflen_bounds bufflen unaligned
  rw [← length] at divides large small
  exact ⟨divides, large, small, rfl, Nat.le_refl _, by simp [newWriter, fcgiHeaderLen]; omega,
    rfl, rfl, rfl, rfl⟩

@[simp]
theorem content_newWriter (memory : List UInt8) (type : UInt8) :
    (newWriter memory type).content = [] := by
  simp [content, newWriter, fcgiHeaderLen]

/-! ## A closed stream -/

section Closed

variable (closed : writer.Closed) (request)
include closed

theorem Closed.putStr (str : List UInt8) :
    ∃ result after, writer.putStr emptyBuffProc str request = some (result, after, request) ∧
      after.Closed ∧ (result < 0 ∨ str = []) := by
  by_cases empty : str = []
  · subst empty
    exact ⟨0, writer.store [], by simp [Writer.putStr],
      ⟨closed.closed, closed.fclosed, closed.no_room, closed.no_error⟩, Or.inr rfl⟩
  · have long : ¬ str.length ≤ writer.stop - writer.wrNext := by
      rw [closed.no_room, Nat.sub_self]
      exact Nat.not_le_of_lt (List.length_pos_iff.mpr empty)
    refine ⟨-1, writer, ?_, closed, Or.inl (by decide)⟩
    rw [Writer.putStr, if_neg long]
    simp [Loop.run, putStrTurn, closed.no_room, closed.closed]

theorem Closed.putChar (c : UInt8) :
    writer.putChar c request = some (eof, writer, request) := by
  simp [Writer.putChar, closed.no_room, closed.closed]

theorem Closed.fflush : writer.fflush request = some (0, writer, request) := by
  simp [Writer.fflush, closed.closed]

theorem Closed.fclose : writer.fclose request = some (0, writer, request) := by
  simp [Writer.fclose, closed.fclosed, closed.no_error]

end Closed

end Writer
end NginxFastcgi.Fcgi
