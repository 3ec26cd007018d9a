import NginxFastcgi.Fcgi.ReadBounds

/-!
# The phases of a fill

`FillBuffProc` passes over content, passes over padding, and collects a header.
Each phase takes a number of bytes, as many at a time as the buffer holds, and
reads when it is empty.  `leads_take` is the one rule for all three: what
follows a phase depends on the bytes that come and not on the reads that bring
them.
-/

namespace NginxFastcgi.Fcgi

open Foundation
open Foundation.Loop
open Foundation.Memory

/-- The bytes that come before a read that fails or returns nothing. -/
def readsBytes : List ReadAnswer → List UInt8
  | .data (byte :: bytes) :: reads => byte :: bytes ++ readsBytes reads
  | _ => []

/-- The error that is set then. -/
def readsError : List ReadAnswer → Int
  | .data (_ :: _) :: reads => readsError reads
  | .failed errno :: _ => errno
  | _ => fcgxProtocolError

@[simp]
theorem readsBytes_bringing (bytes : List UInt8) :
    readsBytes (Ipc.bringing bytes).reads = bytes := by
  cases bytes <;> simp [Ipc.bringing, readsBytes]

@[simp]
theorem readsError_bringing (bytes : List UInt8) :
    readsError (Ipc.bringing bytes).reads = fcgxProtocolError := by
  cases bytes <;> simp [Ipc.bringing, readsError]

/-- A read that brings something brings the next bytes. -/
theorem osRead_of_cons {ipc : Ipc} {len : Nat} (room : 0 < len)
    (something : readsBytes ipc.reads ≠ []) :
    ∃ byte chunk reads, ipc.osRead len = (.ok (byte :: chunk), { ipc with reads := reads }) ∧
      (byte :: chunk).length ≤ len ∧ byte :: chunk ++ readsBytes reads = readsBytes ipc.reads ∧
      readsError reads = readsError ipc.reads := by
  unfold Ipc.osRead
  generalize ipc.reads = reads at something
  match reads with
  | [] => contradiction
  | .failed errno :: reads => contradiction
  | .data [] :: reads => contradiction
  | .data (byte :: bytes) :: reads =>
      by_cases fits : (byte :: bytes).length ≤ len
      · refine ⟨byte, bytes, reads, ?_, fits, rfl, rfl⟩
        simp only [if_pos fits]
      · have notNil : (byte :: bytes).drop len ≠ [] := by
          rw [ne_eq, List.drop_eq_nil_iff]
          exact fits
        obtain ⟨next, later, dropEq⟩ := List.exists_cons_of_ne_nil notNil
        obtain ⟨less, lenEq⟩ := Nat.exists_eq_succ_of_ne_zero (Nat.ne_of_gt room)
        have takeEq : (byte :: bytes).take len = byte :: bytes.take less := by
          rw [lenEq, List.take_succ_cons]
        refine ⟨byte, bytes.take less, .data ((byte :: bytes).drop len) :: reads, ?_, ?_, ?_, ?_⟩
        · simp only [if_neg fits, takeEq]
        · rw [← takeEq]
          exact List.length_take_le _ _
        · rw [dropEq, readsBytes, ← dropEq, ← takeEq, ← List.append_assoc,
            List.take_append_drop, readsBytes]
        · rw [dropEq, readsError, readsError]

/-- A read that brings nothing tells the error. -/
theorem osRead_of_nil {ipc : Ipc} (len : Nat) (nothing : readsBytes ipc.reads = []) :
    ∃ reads, ipc.osRead len = (.error (readsError ipc.reads), { ipc with reads := reads }) ∨
      ipc.osRead len = (.ok [], { ipc with reads := reads }) ∧
        readsError ipc.reads = fcgxProtocolError := by
  rcases ipc with ⟨writes, written, reads⟩
  match reads with
  | [] => exact ⟨[], Or.inr ⟨rfl, rfl⟩⟩
  | .failed errno :: reads => exact ⟨reads, Or.inl rfl⟩
  | .data [] :: reads => exact ⟨reads, Or.inr ⟨rfl, rfl⟩⟩
  | .data (byte :: bytes) :: reads => contradiction

namespace Reader

/-- The bytes in front of the client, in the buffer or not. -/
def upcoming (reader : Reader) (request : Request) : List UInt8 :=
  reader.ahead ++ readsBytes request.ipc.reads

/-- Some bytes were taken and nothing else happened. -/
structure Moved (count : Nat) (reader : Reader) (request : Request) (after : Reader)
    (sent : Request) : Prop where
  filling : after.Filling
  reader_eq : after = { reader with buff := after.buff, rdNext := after.rdNext }
  request_eq : sent = { request with ipc := { request.ipc with reads := sent.ipc.reads } }
  upcoming_eq : after.upcoming sent = (reader.upcoming request).drop count
  error_eq : readsError sent.ipc.reads = readsError request.ipc.reads

/-- The bytes of the connection ran out. -/
structure Starved (reader : Reader) (request : Request) (after : Reader) (sent : Request) :
    Prop where
  closed : after.isClosed = true
  errno_eq : after.fcgiErrno = (reader.setError (readsError request.ipc.reads)).fcgiErrno
  request_eq : sent = { request with ipc := { request.ipc with reads := sent.ipc.reads } }

variable {headerProc : HeaderProc} {reader after : Reader} {request sent : Request} {count : Nat}
  {post : Reader × Request → Prop}

theorem Moved.refl (filling : reader.Filling) : Moved 0 reader request reader request :=
  ⟨filling, rfl, rfl, rfl, rfl⟩

theorem Moved.trans {more : Nat} {final : Reader} {last : Request}
    (first : Moved count reader request after sent) (second : Moved more after sent final last) :
    Moved (count + more) reader request final last := by
  constructor
  · exact second.filling
  · rw [second.reader_eq, first.reader_eq]
  · rw [second.request_eq, first.request_eq]
  · rw [second.upcoming_eq, first.upcoming_eq, List.drop_drop]
  · rw [second.error_eq, first.error_eq]

theorem upcoming_advance (within : count ≤ reader.buff.length - reader.rdNext) :
    (reader.advance count).upcoming request = (reader.upcoming request).drop count := by
  rw [upcoming, upcoming, List.drop_append_of_le_length]
  · rw [ahead, ahead, advance, List.drop_drop]
  · rw [ahead, List.length_drop]
    exact within

theorem moved_advance (request : Request) (filling : reader.Filling)
    (within : count ≤ reader.buff.length - reader.rdNext) :
    Moved count reader request (reader.advance count) request :=
  ⟨filling.advance within, rfl, rfl, upcoming_advance within, rfl⟩

theorem length_upcoming_ge (reader : Reader) (request : Request) :
    reader.buff.length - reader.rdNext ≤ (reader.upcoming request).length := by
  rw [upcoming, List.length_append, ahead, List.length_drop]
  exact Nat.le_add_right _ _

/-- What the buffer holds comes first. -/
theorem slice_eq_take_upcoming (request : Request)
    (within : count ≤ reader.buff.length - reader.rdNext) :
    slice reader.buff reader.rdNext count = (reader.upcoming request).take count := by
  rw [upcoming, List.take_append_of_le_length]
  · rfl
  · rw [ahead, List.length_drop]
    exact within

/-! ## One turn -/

theorem ahead_of_empty (empty : reader.rdNext = reader.buff.length) : reader.ahead = [] := by
  rw [ahead, empty, List.drop_length]

/-- A turn for which nothing comes. -/
theorem fillTurn_of_nil (headerProc : HeaderProc) (filling : reader.Filling)
    (nothing : reader.upcoming request = []) (header : List UInt8) :
    ∃ last final, fillTurn headerProc (header, reader, request) = some (.done (last, final)) ∧
      Starved reader request last final := by
  obtain ⟨noAhead, noReads⟩ := List.append_eq_nil_iff.mp nothing
  have inside := filling.rdNext_le
  have empty : reader.rdNext = reader.buff.length :=
    Nat.le_antisymm inside (List.drop_eq_nil_iff.mp noAhead)
  rw [fillTurn, if_pos empty]
  obtain ⟨reads, failed | ⟨ended, errorEq⟩⟩ :=
    osRead_of_nil reader.bufflen noReads
  · rw [failed]
    exact ⟨_, _, rfl, rfl, rfl, rfl⟩
  · rw [ended]
    refine ⟨_, _, rfl, rfl, ?_, rfl⟩
    rw [errorEq]

/-- A turn for which bytes come has them in the buffer. -/
theorem fillTurn_of_cons (headerProc : HeaderProc) (filling : reader.Filling)
    (something : reader.upcoming request ≠ []) :
    ∃ next now, Moved 0 reader request next now ∧ next.rdNext ≠ next.buff.length ∧
      ∀ header, fillTurn headerProc (header, reader, request) =
        useContent headerProc header next now := by
  by_cases empty : reader.rdNext = reader.buff.length
  · have noAhead := ahead_of_empty empty
    rw [upcoming, noAhead, List.nil_append] at something
    obtain ⟨byte, chunk, reads, readEq, fits, bytesEq, errorEq⟩ :=
      osRead_of_cons filling.room something
    refine ⟨{ reader with buff := byte :: chunk, rdNext := 0 },
      { request with ipc := { request.ipc with reads := reads } },
      ⟨⟨filling.room, fits, Nat.zero_le _, filling.not_closed⟩, rfl, rfl, ?_, errorEq⟩,
      (Nat.succ_ne_zero _).symm, ?_⟩
    · rw [List.drop_zero, upcoming, upcoming, noAhead, List.nil_append, ← bytesEq]
      rfl
    · intro header
      rw [fillTurn, if_pos empty, readEq]
      rfl
  · refine ⟨reader, request, .refl filling, empty, fun header => ?_⟩
    rw [fillTurn, if_neg empty]

/-! ## Taking a number of bytes -/

/-- The reader with other counters. -/
def counting (reader : Reader) (contentLen paddingLen : Nat) : Reader :=
  { reader with contentLen := contentLen, paddingLen := paddingLen }

/-- A phase that takes `need` bytes, of which `taken` are there.  The state for
another turn depends on what was taken. -/
def phaseTurn (need : Nat) (resume : List UInt8 → List UInt8 × Nat × Nat)
    (finish : List UInt8 → Reader → Request → Option FillTurn) (taken : List UInt8)
    (reader : Reader) (request : Request) : Option FillTurn :=
  let count := min (need - taken.length) (reader.buff.length - reader.rdNext)
  let taken := taken ++ slice reader.buff reader.rdNext count
  let next := resume taken
  if taken.length < need then
    some (.again (next.1, (reader.advance count).counting next.2.1 next.2.2, request))
  else
    finish taken (reader.advance count) request

section Take

variable {need : Nat} {resume : List UInt8 → List UInt8 × Nat × Nat}
  {finish : List UInt8 → Reader → Request → Option FillTurn}

theorem Starved.of_moved {last : Reader} {final : Request}
    (moved : Moved count reader request after sent) {other : Reader}
    (starved : Starved other sent last final) (errnoEq : other.fcgiErrno = after.fcgiErrno) :
    Starved reader request last final := by
  refine ⟨starved.closed, ?_, ?_⟩
  · rw [starved.errno_eq, moved.error_eq]
    simp only [setError]
    rw [errnoEq, moved.reader_eq]
  · rw [starved.request_eq, moved.request_eq]

/-- The turns of a phase that is resumed come back to it. -/
def Resumes (headerProc : HeaderProc) (need : Nat) (resume : List UInt8 → List UInt8 × Nat × Nat)
    (finish : List UInt8 → Reader → Request → Option FillTurn) (reader : Reader) : Prop :=
  ∀ taken next now, next = { reader with buff := next.buff, rdNext := next.rdNext } →
    next.rdNext ≤ next.buff.length → taken.length < need →
    useContent headerProc (resume taken).1 (next.counting (resume taken).2.1 (resume taken).2.2)
      now = phaseTurn need resume finish taken next now

theorem Resumes.of_moved (resumes : Resumes headerProc need resume finish reader)
    (moved : Moved count reader request after sent) :
    Resumes headerProc need resume finish after := by
  intro taken next now nextEq inside short
  apply resumes taken next now _ inside short
  rw [nextEq, moved.reader_eq]

theorem Filling.counting (filling : reader.Filling) (contentLen paddingLen : Nat) :
    (reader.counting contentLen paddingLen).Filling :=
  ⟨filling.room, filling.buff_le, filling.rdNext_le, filling.not_closed⟩

/-- Another turn finds the connection at its end, or the buffer refilled. -/
theorem leads_resume (resumes : Resumes headerProc need resume finish reader)
    (filling : reader.Filling) {taken : List UInt8} (short : taken.length < need)
    (starve : reader.upcoming request = [] →
      ∀ last final, Starved reader request last final → post (last, final))
    (refilled : ∀ next now, Moved 0 reader request next now → next.rdNext ≠ next.buff.length →
      Leads (fillTurn headerProc) (phaseTurn need resume finish taken next now) post) :
    Leads (fillTurn headerProc) (some (.again ((resume taken).1,
      reader.counting (resume taken).2.1 (resume taken).2.2, request))) post := by
  have counted := filling.counting (resume taken).2.1 (resume taken).2.2
  apply Leads.again
  by_cases nothing : reader.upcoming request = []
  · obtain ⟨last, final, turnEq, starved⟩ :=
      fillTurn_of_nil headerProc counted nothing (resume taken).1
    rw [turnEq]
    exact .done (starve nothing last final
      ⟨starved.closed, starved.errno_eq, starved.request_eq⟩)
  · obtain ⟨next, now, moved, nonempty, turnEq⟩ :=
      fillTurn_of_cons headerProc counted nothing
    have uncounted : Moved 0 reader request
        { reader with buff := next.buff, rdNext := next.rdNext } now :=
      ⟨⟨filling.room, moved.reader_eq ▸ moved.filling.buff_le, moved.filling.rdNext_le,
        filling.not_closed⟩, rfl, moved.request_eq, moved.upcoming_eq, moved.error_eq⟩
    have nextEq : next =
        ({ reader with buff := next.buff, rdNext := next.rdNext } : Reader).counting
          (resume taken).2.1 (resume taken).2.2 := moved.reader_eq
    have resumed := resumes taken { reader with buff := next.buff, rdNext := next.rdNext } now rfl
      moved.filling.rdNext_le short
    rw [turnEq, nextEq, resumed]
    exact refilled _ now uncounted nonempty

/-- A phase that finds bytes in the buffer. -/
theorem leads_take_of_nonempty (resumes : Resumes headerProc need resume finish reader)
    (filling : reader.Filling) (nonempty : reader.rdNext ≠ reader.buff.length)
    {taken : List UInt8} (within : taken.length ≤ need)
    (starve : (reader.upcoming request).length < need - taken.length →
      ∀ last final, Starved reader request last final → post (last, final))
    (reach : need - taken.length ≤ (reader.upcoming request).length → ∀ after sent,
      Moved (need - taken.length) reader request after sent →
      Leads (fillTurn headerProc)
        (finish (taken ++ (reader.upcoming request).take (need - taken.length)) after sent) post) :
    Leads (fillTurn headerProc) (phaseTurn need resume finish taken reader request) post := by
  induction leftEq : need - taken.length using Nat.strong_induction_on
    generalizing taken reader request with
  | _ left inductionHypothesis =>
      rw [leftEq] at starve reach
      have inside := filling.rdNext_le
      have available := length_upcoming_ge reader request
      have inBuffer : min left (reader.buff.length - reader.rdNext) ≤
          reader.buff.length - reader.rdNext := Nat.min_le_right _ _
      have moved := moved_advance request filling inBuffer
      have sliceEq := slice_eq_take_upcoming request inBuffer
      unfold phaseTurn
      dsimp only
      rw [leftEq, sliceEq]
      by_cases enough : left ≤ reader.buff.length - reader.rdNext
      · rw [Nat.min_eq_left enough] at moved ⊢
        rw [if_neg]
        · exact reach (enough.trans available) _ _ moved
        · rw [List.length_append, List.length_take]
          omega
      · rw [Nat.min_eq_right (Nat.le_of_not_le enough)] at moved ⊢
        have takenLength : (taken ++ (reader.upcoming request).take
            (reader.buff.length - reader.rdNext)).length =
              taken.length + (reader.buff.length - reader.rdNext) := by
          rw [List.length_append, List.length_take, Nat.min_eq_left available]
        have upcomingLength : ((reader.advance (reader.buff.length - reader.rdNext)).upcoming
            request).length = (reader.upcoming request).length -
              (reader.buff.length - reader.rdNext) := by
          rw [moved.upcoming_eq, List.length_drop]
        rw [if_pos (by omega)]
        apply leads_resume (resumes.of_moved moved) moved.filling (by omega)
        · intro nothing last final starved
          rw [nothing] at upcomingLength
          apply starve
          · simp only [List.length_nil] at upcomingLength
            omega
          · exact Starved.of_moved moved starved rfl
        · intro next now refilled nextNonempty
          have whole := moved.trans refilled
          rw [Nat.add_zero] at whole
          apply inductionHypothesis (left - (reader.buff.length - reader.rdNext)) (by omega)
            (resumes.of_moved whole) whole.filling nextNonempty (by omega)
          · intro few last final starved
            rw [whole.upcoming_eq, List.length_drop] at few
            exact starve (by omega) last final (Starved.of_moved whole starved rfl)
          · intro enoughLeft final last finalMoved
            have total := whole.trans finalMoved
            have sumEq : reader.buff.length - reader.rdNext + (need - (taken ++
                (reader.upcoming request).take
                  (reader.buff.length - reader.rdNext)).length) = left := by
              omega
            rw [sumEq] at total
            have reached := reach (by
              rw [whole.upcoming_eq, List.length_drop] at enoughLeft
              omega) final last total
            rw [whole.upcoming_eq, List.append_assoc, ← List.take_add, sumEq]
            exact reached
          · omega

/-- A phase is left with the next bytes, or the bytes run out. -/
theorem leads_take (resumes : Resumes headerProc need resume finish reader)
    (filling : reader.Filling) {taken : List UInt8} (within : taken.length ≤ need)
    (starve : (reader.upcoming request).length < need - taken.length →
      ∀ last final, Starved reader request last final → post (last, final))
    (reach : need - taken.length ≤ (reader.upcoming request).length → ∀ after sent,
      Moved (need - taken.length) reader request after sent →
      Leads (fillTurn headerProc)
        (finish (taken ++ (reader.upcoming request).take (need - taken.length)) after sent) post) :
    Leads (fillTurn headerProc) (phaseTurn need resume finish taken reader request) post := by
  by_cases nonempty : reader.rdNext = reader.buff.length
  · have turnEq : phaseTurn need resume finish taken reader request =
        if taken.length < need then
          some (.again ((resume taken).1,
            reader.counting (resume taken).2.1 (resume taken).2.2, request))
        else
          finish taken reader request := by
      have nothing : min (need - taken.length) (reader.buff.length - reader.rdNext) = 0 := by
        omega
      unfold phaseTurn
      dsimp only
      rw [nothing, slice_zero_length, List.append_nil]
      rfl
    rw [turnEq]
    split
    · rename_i short
      apply leads_resume resumes filling short
      · intro nothing last final starved
        apply starve _ last final starved
        rw [nothing, List.length_nil]
        omega
      · intro next now refilled nextNonempty
        apply leads_take_of_nonempty (resumes.of_moved refilled) refilled.filling nextNonempty
          within
        · intro few last final starved
          rw [refilled.upcoming_eq, List.drop_zero] at few
          exact starve few last final (Starved.of_moved refilled starved rfl)
        · intro enough final last moved
          have total := refilled.trans moved
          rw [Nat.zero_add] at total
          rw [refilled.upcoming_eq, List.drop_zero] at enough ⊢
          exact reach enough final last total
    · rename_i whole
      have none : need - taken.length = 0 := by
        omega
      have reached := reach (by omega) reader request (none ▸ .refl filling)
      rwa [none, List.take_zero, List.append_nil] at reached
  · exact leads_take_of_nonempty resumes filling nonempty within starve reach

end Take

/-! ## The three phases -/

section Phases

variable {header : List UInt8}

theorem length_append_slice (inside : reader.rdNext ≤ reader.buff.length) (taken : List UInt8)
    (count : Nat) :
    (taken ++ slice reader.buff reader.rdNext
      (min count (reader.buff.length - reader.rdNext))).length =
        taken.length + min count (reader.buff.length - reader.rdNext) := by
  rw [List.length_append, length_slice _ (by omega)]

theorem useContent_of_skip (skips : reader.skip = true) {contentLen : Nat}
    (some_content : contentLen > 0) (paddingLen : Nat) :
    useContent headerProc header (reader.counting contentLen paddingLen) request =
      let count := min contentLen (reader.buff.length - reader.rdNext)
      if contentLen - count > 0 then
        some (.again (header, (reader.advance count).counting (contentLen - count) paddingLen,
          request))
      else
        skipPadding headerProc header
          { reader.advance count with
            contentLen := contentLen - count, paddingLen := paddingLen, skip := false }
          request := by
  have positive : (reader.counting contentLen paddingLen).contentLen > 0 := some_content
  unfold useContent
  rw [if_pos positive]
  exact if_pos skips

theorem skipPadding_of_padding {paddingLen : Nat} (some_padding : paddingLen > 0) :
    skipPadding headerProc header (reader.counting 0 paddingLen) request =
      let count := min paddingLen (reader.buff.length - reader.rdNext)
      if paddingLen - count > 0 then
        some (.again (header, (reader.advance count).counting 0 (paddingLen - count), request))
      else
        endOfRecord headerProc header ((reader.advance count).counting 0 (paddingLen - count))
          request := by
  have positive : (reader.counting 0 paddingLen).paddingLen > 0 := some_padding
  unfold skipPadding
  rw [if_pos positive]
  rfl

/-- Passing over content. -/
theorem useContent_eq_phase (headerProc : HeaderProc) (header : List UInt8) (request : Request)
    (inside : reader.rdNext ≤ reader.buff.length) (skips : reader.skip = true) {contentLen : Nat}
    (paddingLen : Nat) (taken : List UInt8) (short : taken.length < contentLen) :
    useContent headerProc header (reader.counting (contentLen - taken.length) paddingLen) request =
      phaseTurn contentLen (fun taken => (header, contentLen - taken.length, paddingLen))
        (fun _ reader request => skipPadding headerProc header
          { reader with contentLen := 0, paddingLen := paddingLen, skip := false } request)
        taken reader request := by
  have lengthEq := length_append_slice inside taken (contentLen - taken.length)
  rw [useContent_of_skip skips (Nat.sub_pos_of_lt short)]
  unfold phaseTurn
  dsimp only
  rw [lengthEq]
  generalize countEq : min (contentLen - taken.length) (reader.buff.length - reader.rdNext) = count
  by_cases more : contentLen - taken.length - count > 0
  · rw [if_pos more, if_pos (by omega), Nat.sub_add_eq]
  · rw [if_neg more, if_neg (by omega), Nat.eq_zero_of_not_pos more]

/-- Passing over padding. -/
theorem skipPadding_eq_phase (headerProc : HeaderProc) (header : List UInt8) (request : Request)
    (inside : reader.rdNext ≤ reader.buff.length) {paddingLen : Nat} (taken : List UInt8)
    (short : taken.length < paddingLen) :
    skipPadding headerProc header (reader.counting 0 (paddingLen - taken.length)) request =
      phaseTurn paddingLen (fun taken => (header, 0, paddingLen - taken.length))
        (fun _ reader request => endOfRecord headerProc header (reader.counting 0 0) request)
        taken reader request := by
  have lengthEq := length_append_slice inside taken (paddingLen - taken.length)
  rw [skipPadding_of_padding (Nat.sub_pos_of_lt short)]
  unfold phaseTurn
  dsimp only
  rw [lengthEq]
  generalize countEq : min (paddingLen - taken.length) (reader.buff.length - reader.rdNext) = count
  by_cases more : paddingLen - taken.length - count > 0
  · rw [if_pos more, if_pos (by omega), Nat.sub_add_eq]
  · rw [if_neg more, if_neg (by omega), Nat.eq_zero_of_not_pos more]

/-- Collecting a header. -/
theorem endOfRecord_eq_phase (headerProc : HeaderProc) (request : Request)
    (unbounded : reader.eorStop = false) (taken : List UInt8) :
    endOfRecord headerProc taken (reader.counting 0 0) request =
      phaseTurn fcgiHeaderLen (fun taken => (taken, 0, 0))
        (fun header reader request => (headerProc (FCGIHeader.ofBytes header)
          (reader.counting 0 0).atRecord request).map afterHeader)
        taken reader request := by
  unfold endOfRecord phaseTurn
  rw [if_neg (by simp [counting, unbounded])]
  rfl

theorem useContent_of_contentLen_zero (noContent : reader.contentLen = 0) :
    useContent headerProc header reader request =
      skipPadding headerProc header reader request := by
  rw [useContent, if_neg (by omega)]

theorem skipPadding_of_paddingLen_zero (noPadding : reader.paddingLen = 0) :
    skipPadding headerProc header reader request =
      endOfRecord headerProc header reader request := by
  rw [skipPadding, if_neg (by omega)]

theorem counting_of_eq {contentLen paddingLen : Nat} (content : reader.contentLen = contentLen)
    (padding : reader.paddingLen = paddingLen) :
    reader.counting contentLen paddingLen = reader := by
  rw [← content, ← padding]
  rfl

/-- The padding behind a record. -/
theorem leads_skipPadding (filling : reader.Filling) (noContent : reader.contentLen = 0)
    (starve : (reader.upcoming request).length < reader.paddingLen →
      ∀ last final, Starved reader request last final → post (last, final))
    (reach : reader.paddingLen ≤ (reader.upcoming request).length → ∀ after sent,
      Moved reader.paddingLen (reader.counting 0 0) request after sent →
      Leads (fillTurn headerProc) (endOfRecord headerProc header after sent) post) :
    Leads (fillTurn headerProc) (skipPadding headerProc header reader request) post := by
  by_cases some_padding : 0 < reader.paddingLen
  · have start := skipPadding_eq_phase headerProc header request filling.rdNext_le [] some_padding
    rw [List.length_nil, Nat.sub_zero, counting_of_eq noContent rfl] at start
    rw [start]
    apply leads_take _ filling (Nat.zero_le _) starve
    · intro enough after sent moved
      exact reach enough _ _ ⟨moved.filling.counting 0 0, by rw [moved.reader_eq]; rfl,
        moved.request_eq, moved.upcoming_eq, moved.error_eq⟩
    · intro taken next now nextEq inside short
      rw [useContent_of_contentLen_zero rfl, skipPadding_eq_phase _ _ _ inside _ short]
  · have noPadding := Nat.eq_zero_of_not_pos some_padding
    rw [skipPadding_of_paddingLen_zero noPadding]
    apply reach (by omega)
    rw [counting_of_eq noContent noPadding, noPadding]
    exact .refl filling

theorem Moved.counting (moved : Moved count reader request after sent)
    (contentLen paddingLen : Nat) :
    Moved count (reader.counting contentLen paddingLen) request
      (after.counting contentLen paddingLen) sent :=
  ⟨moved.filling.counting contentLen paddingLen, by
    rw [moved.reader_eq]
    rfl, moved.request_eq, moved.upcoming_eq, moved.error_eq⟩

/-- The end of a record whose content is not handed out is reached with the
bytes of the record, but not without any. -/
theorem leads_discard (filling : reader.Filling)
    (passes : reader.skip = true ∨ reader.contentLen = 0)
    (starve : (reader.upcoming request).length < max 1 (reader.contentLen + reader.paddingLen) →
      ∀ last final, Starved reader request last final → post (last, final))
    (reach : max 1 (reader.contentLen + reader.paddingLen) ≤ (reader.upcoming request).length →
      ∀ after sent, Moved (reader.contentLen + reader.paddingLen)
        { reader with
          contentLen := 0, paddingLen := 0, skip := reader.skip && reader.contentLen == 0 }
        request after sent →
      Leads (fillTurn headerProc) (endOfRecord headerProc header after sent) post) :
    Leads (fillTurn headerProc) (fillTurn headerProc (header, reader, request)) post := by
  by_cases nothing : reader.upcoming request = []
  · obtain ⟨last, final, turnEq, starved⟩ :=
      fillTurn_of_nil headerProc filling nothing header
    rw [turnEq]
    apply Leads.done (starve _ last final starved)
    rw [nothing, List.length_nil]
    omega
  · obtain ⟨next, now, moved, nonempty, turnEq⟩ :=
      fillTurn_of_cons headerProc filling nothing
    have some_left := List.length_pos_of_ne_nil nothing
    have contentEq : next.contentLen = reader.contentLen := by
      rw [moved.reader_eq]
    have paddingEq : next.paddingLen = reader.paddingLen := by
      rw [moved.reader_eq]
    rw [turnEq]
    by_cases noContent : reader.contentLen = 0
    · rw [useContent_of_contentLen_zero (contentEq.trans noContent)]
      apply leads_skipPadding moved.filling (contentEq.trans noContent)
      · intro few last final starved
        rw [moved.upcoming_eq, List.drop_zero, paddingEq] at few
        exact starve (by omega) last final (Starved.of_moved moved starved rfl)
      · intro enough after sent padded
        rw [moved.upcoming_eq, List.drop_zero, paddingEq] at enough
        have whole := (moved.counting 0 0).trans padded
        rw [paddingEq, Nat.zero_add] at whole
        apply reach (by omega)
        rw [noContent, Nat.zero_add]
        simpa [Reader.counting, noContent] using whole
    · have skips : next.skip = true := by
        rw [moved.reader_eq]
        exact passes.resolve_right noContent
      have start := useContent_eq_phase headerProc header now moved.filling.rdNext_le skips
        reader.paddingLen [] (Nat.pos_of_ne_zero noContent)
      rw [List.length_nil, Nat.sub_zero, counting_of_eq contentEq paddingEq] at start
      rw [start]
      apply leads_take _ moved.filling (Nat.zero_le _)
      · intro few last final starved
        rw [moved.upcoming_eq, List.drop_zero, List.length_nil, Nat.sub_zero] at few
        exact starve (by omega) last final (Starved.of_moved moved starved rfl)
      · intro enough after sent passed
        rw [moved.upcoming_eq, List.drop_zero, List.length_nil, Nat.sub_zero] at enough
        rw [List.length_nil, Nat.sub_zero] at passed
        have content := moved.trans passed
        rw [Nat.zero_add] at content
        have upcomingEq := content.upcoming_eq
        have through : ({ after with
            contentLen := 0, paddingLen := reader.paddingLen, skip := false } : Reader).Filling :=
          ⟨content.filling.room, content.filling.buff_le, content.filling.rdNext_le,
            content.filling.not_closed⟩
        apply leads_skipPadding through rfl
        · intro few last final starved
          change (after.upcoming sent).length < reader.paddingLen at few
          rw [upcomingEq, List.length_drop] at few
          exact starve (by omega) last final (Starved.of_moved content starved rfl)
        · intro enoughPadding final last padded
          change reader.paddingLen ≤ (after.upcoming sent).length at enoughPadding
          rw [upcomingEq, List.length_drop] at enoughPadding
          apply reach (by omega)
          refine ⟨padded.filling, ?_, ?_, ?_, ?_⟩
          · rw [padded.reader_eq, content.reader_eq]
            simp [Reader.counting, noContent]
          · rw [padded.request_eq, content.request_eq]
          · rw [padded.upcoming_eq, ← List.drop_drop]
            exact congrArg (List.drop reader.paddingLen) upcomingEq
          · rw [padded.error_eq, content.error_eq]
      · intro taken other now otherEq inside short
        have otherSkips : other.skip = true := by
          rw [otherEq, skips]
        exact useContent_eq_phase _ _ _ inside otherSkips _ _ short

/-- The reader with a piece of the content for the client. -/
def handOut (reader : Reader) : Reader :=
  let count := min reader.contentLen (reader.buff.length - reader.rdNext)
  { reader with contentLen := reader.contentLen - count, stop := reader.rdNext + count }

/-- The content that is handed out. -/
theorem leads_content (filling : reader.Filling) (some_content : 0 < reader.contentLen)
    (wanted : reader.skip = false)
    (starve : reader.upcoming request = [] →
      ∀ last final, Starved reader request last final → post (last, final))
    (reach : ∀ next now, Moved 0 reader request next now → next.rdNext ≠ next.buff.length →
      post (next.handOut, now)) :
    Leads (fillTurn headerProc) (fillTurn headerProc (header, reader, request)) post := by
  by_cases nothing : reader.upcoming request = []
  · obtain ⟨last, final, turnEq, starved⟩ :=
      fillTurn_of_nil headerProc filling nothing header
    rw [turnEq]
    exact .done (starve nothing last final starved)
  · obtain ⟨next, now, moved, nonempty, turnEq⟩ :=
      fillTurn_of_cons headerProc filling nothing
    have contentEq : next.contentLen = reader.contentLen := by
      rw [moved.reader_eq]
    have positive : next.contentLen > 0 := by
      rw [contentEq]
      exact some_content
    have skipEq : ¬ next.skip = true := by
      rw [moved.reader_eq, wanted]
      exact Bool.false_ne_true
    have handedOut : useContent headerProc header next now = some (.done (next.handOut, now)) := by
      unfold useContent
      rw [if_pos positive]
      exact if_neg skipEq
    rw [turnEq, handedOut]
    exact .done (reach next now moved nonempty)

/-- The header of the next record. -/
theorem leads_header (filling : reader.Filling) (unbounded : reader.eorStop = false)
    (noContent : reader.contentLen = 0) (noPadding : reader.paddingLen = 0)
    (starve : (reader.upcoming request).length < fcgiHeaderLen →
      ∀ last final, Starved reader request last final → post (last, final))
    (reach : fcgiHeaderLen ≤ (reader.upcoming request).length → ∀ after sent,
      Moved fcgiHeaderLen reader request after sent →
      Leads (fillTurn headerProc)
        ((headerProc (FCGIHeader.ofBytes ((reader.upcoming request).take fcgiHeaderLen))
          after.atRecord sent).map afterHeader) post) :
    Leads (fillTurn headerProc) (endOfRecord headerProc [] reader request) post := by
  have start := endOfRecord_eq_phase headerProc request unbounded []
  rw [counting_of_eq noContent noPadding] at start
  rw [start]
  apply leads_take _ filling (Nat.zero_le _) starve
  · intro enough after sent moved
    have same : after.counting 0 0 = after := by
      apply counting_of_eq
      · rw [moved.reader_eq, noContent]
      · rw [moved.reader_eq, noPadding]
    rw [same]
    exact reach enough after sent moved
  · intro taken next now nextEq inside short
    have eorEq : next.eorStop = false := by
      rw [nextEq, unbounded]
    rw [useContent_of_contentLen_zero rfl, skipPadding_of_paddingLen_zero rfl,
      endOfRecord_eq_phase _ _ eorEq]

end Phases

end Reader

end NginxFastcgi.Fcgi
