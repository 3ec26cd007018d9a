import NginxFastcgi.Fcgi.FillBuffer

/-!
# Reading stays inside the buffer and ends

Whatever the peer sends and however it is cut into reads, the positions of a
reader stay inside its buffer, and every turn of every loop uses up bytes of
the connection.
-/

namespace NginxFastcgi.Fcgi

open Foundation
open Foundation.Loop

namespace Reader

/-- The positions of a reader between two calls. -/
structure Usable (reader : Reader) : Prop where
  room : 0 < reader.bufflen
  buff_le : reader.buff.length ≤ reader.bufflen
  rdNext_le : reader.rdNext ≤ reader.buff.length
  window : reader.isClosed = false → reader.rdNext ≤ reader.stop ∧
    reader.stop ≤ reader.buff.length

/-- The positions of an open reader inside `FillBuffProc`. -/
structure Filling (reader : Reader) : Prop where
  room : 0 < reader.bufflen
  buff_le : reader.buff.length ≤ reader.bufflen
  rdNext_le : reader.rdNext ≤ reader.buff.length
  not_closed : reader.isClosed = false

/-- At most `bound` bytes are left, and less if the buffer is used up. -/
structure Progress (bound : Nat) (reader : Reader) (request : Request) : Prop where
  pending_le : reader.pending request ≤ bound
  used_up : reader.rdNext = reader.buff.length → reader.pending request < bound

/-- A fill is done with a usable reader.  If it is open it has bytes to take,
or the fill used some up. -/
structure Filled (bound : Nat) (reader : Reader) (request : Request) : Prop where
  usable : reader.Usable
  pending_le : reader.pending request ≤ bound
  progress : reader.isClosed = false → reader.rdNext ≠ reader.stop ∨
    reader.pending request < bound

/-- What a turn that may use up `bound` bytes leaves. -/
def TurnFilled (bound : Nat) : Option FillTurn → Prop
  | none => True
  | some (.again (header, reader, request)) =>
      header.length < fcgiHeaderLen ∧ reader.Filling ∧ reader.pending request < bound
  | some (.done (reader, request)) => Filled bound reader request

/-- What an interpretation of headers may do to the reader. -/
def HeaderBounded (headerProc : HeaderProc) : Prop :=
  ∀ ⦃header : FCGIHeader⦄ ⦃reader after : Reader⦄ ⦃request sent : Request⦄ ⦃status : Int⦄,
    reader.Filling → headerProc header reader.atRecord request = some (status, after, sent) →
    after.Usable ∧ after.pending sent ≤ reader.pending request ∧
      (status = beginRecord → after.isClosed = false)

/-- What a fill procedure does to an open reader without a window. -/
def FillBounded (fill : FillProc) : Prop :=
  ∀ ⦃reader after : Reader⦄ ⦃request sent : Request⦄, reader.Usable → reader.isClosed = false →
    fill reader request = some (after, sent) → Filled (reader.pending request) after sent

variable {reader : Reader} {request : Request} {bound : Nat} {headerProc : HeaderProc}
  {header : List UInt8}

theorem Filling.advance (filling : reader.Filling) {count : Nat}
    (within : count ≤ reader.buff.length - reader.rdNext) : (reader.advance count).Filling := by
  have inside := filling.rdNext_le
  refine ⟨filling.room, filling.buff_le, ?_, filling.not_closed⟩
  change reader.rdNext + count ≤ reader.buff.length
  omega

theorem pending_advance (request : Request) {count : Nat}
    (within : count ≤ reader.buff.length - reader.rdNext) :
    (reader.advance count).pending request + count = reader.pending request := by
  simp only [pending, advance]
  omega

/-! ## One turn of a fill -/

theorem afterHeader_filled {status : Int} (usable : reader.Usable)
    (opened : status = beginRecord → reader.isClosed = false)
    (lower : reader.pending request < bound) :
    TurnFilled bound (some (afterHeader (status, reader, request))) := by
  have looping : ∀ skip, ({ reader with
      eorStop := false, isClosed := false, skip := skip } : Reader).Filling :=
    fun skip => ⟨usable.room, usable.buff_le, usable.rdNext_le, rfl⟩
  have closed : ∀ stop errno, Filled bound { reader with
      eorStop := false, stop := stop, isClosed := true, fcgiErrno := errno } request :=
    fun stop errno => ⟨⟨usable.room, usable.buff_le, usable.rdNext_le, by simp⟩,
      Nat.le_of_lt lower, by simp⟩
  unfold afterHeader
  dsimp only
  split
  · split
    · exact closed _ _
    · exact ⟨by decide, looping _, lower⟩
  · split
    · exact ⟨by decide, looping _, lower⟩
    · split
      · rename_i begins
        exact ⟨⟨usable.room, usable.buff_le, usable.rdNext_le,
          fun _ => usable.window (opened begins)⟩, Nat.le_of_lt lower, fun _ => Or.inr lower⟩
      · split
        · exact ⟨by decide, looping _, lower⟩
        · exact closed _ _

theorem endOfRecord_filled (bounded : HeaderBounded headerProc) (filling : reader.Filling)
    (short : header.length < fcgiHeaderLen) (progress : Progress bound reader request) :
    TurnFilled bound (endOfRecord headerProc header reader request) := by
  have inside := filling.rdNext_le
  have within : min (fcgiHeaderLen - header.length) (reader.buff.length - reader.rdNext) ≤
      reader.buff.length - reader.rdNext := Nat.min_le_right _ _
  have advanced := filling.advance within
  have used := pending_advance request within
  have pendingLe := progress.pending_le
  have lower : (reader.advance (min (fcgiHeaderLen - header.length)
      (reader.buff.length - reader.rdNext))).pending request < bound := by
    by_cases empty : reader.rdNext = reader.buff.length
    · exact Nat.lt_of_le_of_lt (Nat.le.intro used) (progress.used_up empty)
    · omega
  unfold endOfRecord
  split
  · exact ⟨⟨filling.room, filling.buff_le, inside, by simp⟩, progress.pending_le, by simp⟩
  · dsimp only
    split
    · rename_i still
      exact ⟨still, advanced, lower⟩
    · cases statusEq : headerProc (FCGIHeader.ofBytes _) _ request with
      | none => exact trivial
      | some result =>
          rcases result with ⟨status, after, sent⟩
          obtain ⟨usable, pendingAfter, opened⟩ := bounded advanced statusEq
          exact afterHeader_filled usable opened (Nat.lt_of_le_of_lt pendingAfter lower)

theorem skipPadding_filled (bounded : HeaderBounded headerProc) (filling : reader.Filling)
    (short : header.length < fcgiHeaderLen) (progress : Progress bound reader request) :
    TurnFilled bound (skipPadding headerProc header reader request) := by
  have inside := filling.rdNext_le
  have within : min reader.paddingLen (reader.buff.length - reader.rdNext) ≤
      reader.buff.length - reader.rdNext := Nat.min_le_right _ _
  have advanced := filling.advance within
  have used := pending_advance request within
  have pendingLe := progress.pending_le
  unfold skipPadding
  split
  · rename_i padded
    have lower : (reader.advance (min reader.paddingLen
        (reader.buff.length - reader.rdNext))).pending request < bound := by
      by_cases empty : reader.rdNext = reader.buff.length
      · exact Nat.lt_of_le_of_lt (Nat.le.intro used) (progress.used_up empty)
      · omega
    dsimp only
    split
    · exact ⟨short, ⟨advanced.room, advanced.buff_le, advanced.rdNext_le, advanced.not_closed⟩,
        lower⟩
    · exact endOfRecord_filled bounded
        ⟨advanced.room, advanced.buff_le, advanced.rdNext_le, advanced.not_closed⟩ short
        ⟨Nat.le_of_lt lower, fun _ => lower⟩
  · exact endOfRecord_filled bounded filling short progress

theorem useContent_filled (bounded : HeaderBounded headerProc) (filling : reader.Filling)
    (short : header.length < fcgiHeaderLen) (nonempty : reader.rdNext ≠ reader.buff.length)
    (pendingLe : reader.pending request ≤ bound) :
    TurnFilled bound (useContent headerProc header reader request) := by
  have inside := filling.rdNext_le
  have within : min reader.contentLen (reader.buff.length - reader.rdNext) ≤
      reader.buff.length - reader.rdNext := Nat.min_le_right _ _
  have advanced := filling.advance within
  have used := pending_advance request within
  unfold useContent
  split
  · rename_i content
    have lower : (reader.advance (min reader.contentLen
        (reader.buff.length - reader.rdNext))).pending request < bound := by
      omega
    dsimp only
    split
    · split
      · exact ⟨short, ⟨advanced.room, advanced.buff_le, advanced.rdNext_le,
          advanced.not_closed⟩, lower⟩
      · exact skipPadding_filled bounded
          ⟨advanced.room, advanced.buff_le, advanced.rdNext_le, advanced.not_closed⟩ short
          ⟨Nat.le_of_lt lower, fun _ => lower⟩
    · refine ⟨⟨filling.room, filling.buff_le, inside, fun _ => ⟨Nat.le_add_right _ _, ?_⟩⟩,
        pendingLe, fun _ => Or.inl ?_⟩
      · simp only
        omega
      · simp only
        omega
  · exact skipPadding_filled bounded filling short ⟨pendingLe, fun empty => absurd empty nonempty⟩

theorem osRead_bounded (ipc : Ipc) (len : Nat) :
    readsLength (ipc.osRead len).2.reads ≤ readsLength ipc.reads ∧
      ∀ bytes, (ipc.osRead len).1 = .ok bytes → bytes.length ≤ len ∧
        bytes.length + readsLength (ipc.osRead len).2.reads = readsLength ipc.reads := by
  unfold Ipc.osRead
  split
  · rename_i noReads
    simp [noReads, readsLength]
  · rename_i noReads
    simp [noReads, readsLength]
  · rename_i data reads readsEq
    split
    · rename_i fits
      simp [readsEq, readsLength, fits]
    · rename_i long
      have split : len + (data.length - len) = data.length := by omega
      simp only [readsEq, readsLength, List.length_drop, Except.ok.injEq, forall_eq',
        List.length_take]
      omega

theorem fillTurn_filled (bounded : HeaderBounded headerProc) (filling : reader.Filling)
    (short : header.length < fcgiHeaderLen) (pendingLe : reader.pending request ≤ bound) :
    TurnFilled bound (fillTurn headerProc (header, reader, request)) := by
  have usable : ∀ errno, (reader.setError errno).Usable :=
    fun errno => ⟨filling.room, filling.buff_le, filling.rdNext_le, by simp [setError]⟩
  by_cases empty : reader.rdNext = reader.buff.length
  · rw [fillTurn, if_pos empty]
    obtain ⟨fewer, taken⟩ := osRead_bounded request.ipc reader.bufflen
    generalize request.ipc.osRead reader.bufflen = outcome at fewer taken
    rcases outcome with ⟨result, ipc⟩
    have less : ∀ errno, (reader.setError errno).pending { request with ipc := ipc } ≤ bound := by
      intro errno
      simp only [pending, setError] at pendingLe ⊢
      simp only at fewer
      omega
    rcases result with errno | bytes
    · exact ⟨usable errno, less errno, by simp [setError]⟩
    · cases bytes with
      | nil => exact ⟨usable _, less _, by simp [setError]⟩
      | cons byte bytes =>
          obtain ⟨fits, total⟩ := taken (byte :: bytes) rfl
          have refilled : ({ reader with buff := byte :: bytes, rdNext := 0 } : Reader).Filling :=
            ⟨filling.room, fits, Nat.zero_le _, filling.not_closed⟩
          apply useContent_filled bounded refilled short (by simp)
          simp only [pending] at pendingLe ⊢
          simp only at total
          omega
  · rw [fillTurn, if_neg empty]
    exact useContent_filled bounded filling short empty pendingLe

/-- A fill with bounded headers is bounded, and so is each of its turns. -/
theorem fillWith_bounded (bounded : HeaderBounded headerProc) :
    FillBounded (fillWith headerProc) := by
  intro reader after request sent usable isOpen fillEq
  apply run_post
    (fun state => state.1.length < fcgiHeaderLen ∧ state.2.1.Filling ∧
      state.2.1.pending state.2.2 ≤ reader.pending request)
    (fun result => Filled (reader.pending request) result.1 result.2)
    _ _ _ fillEq
  · rintro ⟨header, current, now⟩ ⟨laterHeader, later, then_⟩ ⟨short, filling, pendingLe⟩ bodyEq
    have filled := fillTurn_filled bounded filling short pendingLe
    rw [bodyEq] at filled
    exact ⟨filled.1, filled.2.1, Nat.le_of_lt filled.2.2⟩
  · rintro ⟨header, current, now⟩ ⟨last, final⟩ ⟨short, filling, pendingLe⟩ bodyEq
    have filled := fillTurn_filled bounded filling short pendingLe
    rwa [bodyEq] at filled
  · exact ⟨Nat.zero_lt_succ _, ⟨usable.room, usable.buff_le, usable.rdNext_le, isOpen⟩,
      Nat.le_refl _⟩

theorem headerBounded_none : HeaderBounded fun _ _ _ => none := by
  intro header reader after request sent status filling statusEq
  contradiction

theorem fillContent_bounded : FillBounded fillContent :=
  fillWith_bounded headerBounded_none

/-! ## Taking bytes -/

variable {fill : FillProc} {after : Reader} {sent : Request}

theorem Usable.advance (usable : reader.Usable) (isOpen : reader.isClosed = false) {count : Nat}
    (within : count ≤ reader.stop - reader.rdNext) : (reader.advance count).Usable := by
  obtain ⟨low, high⟩ := usable.window isOpen
  refine ⟨usable.room, usable.buff_le, ?_, fun _ => ⟨?_, high⟩⟩
  · change reader.rdNext + count ≤ reader.buff.length
    omega
  · change reader.rdNext + count ≤ reader.stop
    omega

theorem Usable.pending_advance (usable : reader.Usable) (request : Request)
    (isOpen : reader.isClosed = false)
    {count : Nat} (within : count ≤ reader.stop - reader.rdNext) :
    (reader.advance count).pending request + count = reader.pending request := by
  obtain ⟨low, high⟩ := usable.window isOpen
  exact Reader.pending_advance request (by omega)

/-- A usable reader with at most `bound` bytes to come. -/
structure Bounded (bound : Nat) (reader : Reader) (request : Request) : Prop where
  usable : reader.Usable
  pending_le : reader.pending request ≤ bound

theorem Usable.takeChar (usable : reader.Usable) (request : Request)
    (isOpen : reader.isClosed = false) (window : reader.rdNext ≠ reader.stop) :
    (reader.advance 1).Usable ∧ (reader.advance 1).pending request < reader.pending request := by
  obtain ⟨low, high⟩ := usable.window isOpen
  have one : 1 ≤ reader.stop - reader.rdNext := by omega
  have used := usable.pending_advance request isOpen one
  exact ⟨usable.advance isOpen one, by omega⟩

theorem charAfterFill_bounded {c : Option UInt8} (filled : Filled bound reader request)
    (charEq : charAfterFill (reader, request) = some (c, after, sent)) :
    Bounded bound after sent ∧ (c ≠ none → after.pending sent < bound) := by
  have pendingLe := filled.pending_le
  cases closed : reader.isClosed with
  | true =>
      rw [charAfterFill_of_closed closed] at charEq
      cases charEq
      exact ⟨⟨filled.usable, pendingLe⟩, absurd rfl⟩
  | false =>
      by_cases used : reader.rdNext = reader.stop
      · rw [charAfterFill_of_used closed used] at charEq
        contradiction
      · rw [charAfterFill_of_window closed used] at charEq
        cases charEq
        have marked : ({ reader with stopUnget := reader.rdNext } : Reader).Usable :=
          ⟨filled.usable.room, filled.usable.buff_le, filled.usable.rdNext_le,
            filled.usable.window⟩
        obtain ⟨usable, lower⟩ := marked.takeChar request closed used
        have less := Nat.lt_of_lt_of_le lower pendingLe
        exact ⟨⟨usable, Nat.le_of_lt less⟩, fun _ => less⟩

theorem getChar_bounded (bounded : FillBounded fill) (usable : reader.Usable)
    {c : Option UInt8} (getEq : getChar fill reader request = some (c, after, sent)) :
    Bounded (reader.pending request) after sent ∧
      (c ≠ none → after.pending sent < reader.pending request) := by
  cases closed : reader.isClosed with
  | true =>
      rw [getChar_of_closed closed] at getEq
      cases getEq
      exact ⟨⟨usable, Nat.le_refl _⟩, absurd rfl⟩
  | false =>
      by_cases used : reader.rdNext = reader.stop
      · rw [getChar_of_used closed used] at getEq
        obtain ⟨⟨filled, now⟩, fillEq, charEq⟩ := Option.bind_eq_some_iff.mp getEq
        exact charAfterFill_bounded (bounded usable closed fillEq) charEq
      · rw [getChar_of_window closed used] at getEq
        cases getEq
        obtain ⟨taken, lower⟩ := usable.takeChar request closed used
        exact ⟨⟨taken, Nat.le_of_lt lower⟩, fun _ => lower⟩

/-- What a turn of `FCGX_GetStr` leaves. -/
def StrBounded (bound : Nat) :
    Turn (List UInt8 × Reader × Request) (List UInt8 × Reader × Request) → Prop
  | .again (_, reader, request) => Bounded bound reader request ∧ reader.isClosed = false
  | .done (_, reader, request) => Bounded bound reader request

theorem getStrTurn_bounded (bounded : FillBounded fill) (usable : reader.Usable)
    (isOpen : reader.isClosed = false) {n : Nat} {str : List UInt8}
    {turn : Turn (List UInt8 × Reader × Request) (List UInt8 × Reader × Request)}
    (turnEq : getStrTurn fill n (str, reader, request) = some turn) :
    StrBounded (reader.pending request) turn := by
  have within : min (n - str.length) (reader.stop - reader.rdNext) ≤ reader.stop - reader.rdNext :=
    Nat.min_le_right _ _
  have advanced := usable.advance isOpen within
  have used := usable.pending_advance request isOpen within
  have pendingLe := Nat.le.intro used
  unfold getStrTurn at turnEq
  dsimp only at turnEq
  split at turnEq
  · cases turnEq
    exact ⟨advanced, pendingLe⟩
  · obtain ⟨⟨filled, now⟩, fillEq, afterEq⟩ := Option.map_eq_some_iff.mp turnEq
    have done := bounded advanced isOpen fillEq
    have total := Nat.le_trans done.pending_le pendingLe
    subst afterEq
    unfold strAfterFill
    dsimp only
    split
    · exact ⟨done.usable, total⟩
    · rename_i stillOpen
      rw [Bool.not_eq_true] at stillOpen
      exact ⟨⟨⟨done.usable.room, done.usable.buff_le, done.usable.rdNext_le, done.usable.window⟩,
        total⟩, stillOpen⟩

theorem getStr_bounded (bounded : FillBounded fill) (usable : reader.Usable) {n : Nat}
    {str : List UInt8} (getEq : getStr fill n reader request = some (str, after, sent)) :
    Bounded (reader.pending request) after sent := by
  unfold getStr at getEq
  split at getEq
  · cases getEq
    exact ⟨usable, Nat.le_refl _⟩
  · rename_i wanted
    have isOpen : reader.isClosed = false := by simpa using fun closed => wanted (Or.inl closed)
    split at getEq
    · rename_i fits
      cases getEq
      have used := usable.pending_advance request isOpen fits
      exact ⟨usable.advance isOpen fits, Nat.le.intro used⟩
    · apply run_post
        (fun state => Bounded (reader.pending request) state.2.1 state.2.2 ∧
          state.2.1.isClosed = false)
        (fun result => Bounded (reader.pending request) result.2.1 result.2.2)
        _ _ ⟨⟨usable, Nat.le_refl _⟩, isOpen⟩ getEq
      · rintro ⟨moved, current, now⟩ ⟨later, next, then_⟩ ⟨held, stillOpen⟩ turnEq
        obtain ⟨⟨nextUsable, pendingLe⟩, nextOpen⟩ :=
          getStrTurn_bounded bounded held.usable stillOpen turnEq
        exact ⟨⟨nextUsable, Nat.le_trans pendingLe held.pending_le⟩, nextOpen⟩
      · rintro ⟨moved, current, now⟩ ⟨whole, last, final⟩ ⟨held, stillOpen⟩ turnEq
        obtain ⟨lastUsable, pendingLe⟩ :=
          getStrTurn_bounded bounded held.usable stillOpen turnEq
        exact ⟨lastUsable, Nat.le_trans pendingLe held.pending_le⟩

theorem length_slice_le (memory : List UInt8) (offset length : Nat) :
    (Memory.slice memory offset length).length ≤ length :=
  List.length_take_le _ _

/-- What a turn of `FCGX_GetStr` leaves, in terms of the bytes it moved. -/
def StrShort (n : Nat) :
    Turn (List UInt8 × Reader × Request) (List UInt8 × Reader × Request) → Prop
  | .again (moved, reader, _) => moved.length < n ∧ reader.isClosed = false
  | .done (moved, reader, _) => moved.length = n → reader.isClosed = false

theorem getStrTurn_short (isOpen : reader.isClosed = false) {n : Nat} {str : List UInt8}
    (short : str.length < n)
    {turn : Turn (List UInt8 × Reader × Request) (List UInt8 × Reader × Request)}
    (turnEq : getStrTurn fill n (str, reader, request) = some turn) : StrShort n turn := by
  unfold getStrTurn at turnEq
  dsimp only at turnEq
  split at turnEq
  · cases turnEq
    exact fun _ => isOpen
  · rename_i notDone
    obtain ⟨⟨filled, now⟩, fillEq, afterEq⟩ := Option.map_eq_some_iff.mp turnEq
    have movedShort : (str ++ Memory.slice reader.buff reader.rdNext
        (min (n - str.length) (reader.stop - reader.rdNext))).length < n := by
      have sliceLe := length_slice_le reader.buff reader.rdNext
        (min (n - str.length) (reader.stop - reader.rdNext))
      rw [List.length_append] at notDone ⊢
      by_cases used : reader.rdNext = reader.stop
      · rw [used, Nat.sub_self, Nat.min_zero, Memory.slice_zero_length]
        exact short
      · have notWhole := not_and.mp (not_or.mp notDone).1 used
        omega
    subst afterEq
    unfold strAfterFill
    dsimp only
    split
    · exact fun whole => absurd whole (Nat.ne_of_lt movedShort)
    · rename_i stillOpen
      exact ⟨movedShort, by simpa using stillOpen⟩

/-- A string that is as long as it was asked for leaves the stream open. -/
theorem getStr_open (isOpen : reader.isClosed = false) {n : Nat} {str : List UInt8}
    (getEq : getStr fill n reader request = some (str, after, sent)) (whole : str.length = n)
    (positive : 0 < n) : after.isClosed = false := by
  unfold getStr at getEq
  rw [if_neg (by simp [isOpen]; omega)] at getEq
  split at getEq
  · cases getEq
    exact isOpen
  · have post : str.length = n → after.isClosed = false := by
      apply run_post
        (fun state => state.1.length < n ∧ state.2.1.isClosed = false)
        (fun result => result.1.length = n → result.2.1.isClosed = false)
        _ _ ⟨positive, isOpen⟩ getEq
      · rintro ⟨moved, current, now⟩ ⟨later, next, then_⟩ ⟨short, stillOpen⟩ turnEq
        exact getStrTurn_short stillOpen short turnEq
      · rintro ⟨moved, current, now⟩ ⟨later, last, final⟩ ⟨short, stillOpen⟩ turnEq
        exact getStrTurn_short stillOpen short turnEq
    exact post whole

/-! ## Parameters -/

theorem Bounded.mono {less : Nat} (held : Bounded less reader request) (le : less ≤ bound) :
    Bounded bound reader request :=
  ⟨held.usable, Nat.le_trans held.pending_le le⟩

theorem readLength_bounded (bounded : FillBounded fill) (usable : reader.Usable) {first : UInt8}
    {length : Option Nat}
    (readEq : readLength fill first reader request = some (length, after, sent)) :
    Bounded (reader.pending request) after sent := by
  unfold readLength at readEq
  split at readEq
  · obtain ⟨⟨lenBuff, next, now⟩, getEq, rest⟩ := Option.map_eq_some_iff.mp readEq
    cases rest
    exact getStr_bounded bounded usable getEq
  · cases readEq
    exact ⟨usable, Nat.le_refl _⟩

/-- What a turn of `ReadParams` leaves. -/
def ParamsBounded (bound : Nat) :
    Turn (Params × Reader × Request) (Int × Params × Reader × Request) → Prop
  | .again (_, reader, request) => reader.Usable ∧ reader.pending request < bound
  | .done (_, _, reader, request) => Bounded bound reader request

theorem paramsError_bounded (params : Params) (held : Bounded bound reader request) :
    ParamsBounded bound (paramsError params reader request) :=
  ⟨⟨held.usable.room, held.usable.buff_le, held.usable.rdNext_le, by simp [setError]⟩,
    held.pending_le⟩

theorem readNameValue_bounded (bounded : FillBounded fill) (usable : reader.Usable)
    (lower : reader.pending request < bound) {params : Params} {nameLen valueLen : Nat}
    {turn : Turn (Params × Reader × Request) (Int × Params × Reader × Request)}
    (readEq : readNameValue fill params nameLen valueLen reader request = some turn) :
    ParamsBounded bound turn := by
  unfold readNameValue at readEq
  split at readEq
  · contradiction
  · obtain ⟨⟨name, middle, now⟩, nameEq, rest⟩ := Option.bind_eq_some_iff.mp readEq
    have first := getStr_bounded bounded usable nameEq
    have firstLower := Nat.lt_of_le_of_lt first.pending_le lower
    dsimp only at rest
    split at rest
    · cases rest
      exact paramsError_bounded params (first.mono (Nat.le_of_lt lower))
    · obtain ⟨⟨value, last, final⟩, valueEq, rest⟩ := Option.bind_eq_some_iff.mp rest
      have second := getStr_bounded bounded first.usable valueEq
      have secondLower := Nat.lt_of_le_of_lt second.pending_le firstLower
      dsimp only at rest
      split at rest
      · cases rest
        exact paramsError_bounded params (second.mono (Nat.le_of_lt firstLower))
      · cases rest
        exact ⟨second.usable, secondLower⟩

theorem readParamsTurn_bounded (bounded : FillBounded fill) (usable : reader.Usable)
    {params : Params} {turn : Turn (Params × Reader × Request) (Int × Params × Reader × Request)}
    (turnEq : readParamsTurn fill (params, reader, request) = some turn) :
    ParamsBounded (reader.pending request) turn := by
  unfold readParamsTurn at turnEq
  obtain ⟨⟨c, first, now⟩, charEq, rest⟩ := Option.bind_eq_some_iff.mp turnEq
  obtain ⟨held, lower⟩ := getChar_bounded bounded usable charEq
  cases c with
  | none =>
      cases rest
      exact held
  | some c =>
      have firstLower := lower (by simp)
      obtain ⟨⟨nameLen, second, now⟩, lengthEq, rest⟩ := Option.bind_eq_some_iff.mp rest
      have named := readLength_bounded bounded held.usable lengthEq
      cases nameLen with
      | none =>
          cases rest
          exact paramsError_bounded params (named.mono (Nat.le_of_lt firstLower))
      | some nameLen =>
          obtain ⟨⟨d, third, now⟩, charEq, rest⟩ := Option.bind_eq_some_iff.mp rest
          have again := (getChar_bounded bounded named.usable charEq).1.mono named.pending_le
          cases d with
          | none =>
              cases rest
              exact paramsError_bounded params (again.mono (Nat.le_of_lt firstLower))
          | some d =>
              obtain ⟨⟨valueLen, fourth, now⟩, lengthEq, rest⟩ := Option.bind_eq_some_iff.mp rest
              have valued :=
                (readLength_bounded bounded again.usable lengthEq).mono again.pending_le
              cases valueLen with
              | none =>
                  cases rest
                  exact paramsError_bounded params (valued.mono (Nat.le_of_lt firstLower))
              | some valueLen =>
                  exact readNameValue_bounded bounded valued.usable
                    (Nat.lt_of_le_of_lt valued.pending_le firstLower) rest

theorem readParams_bounded (bounded : FillBounded fill) (usable : reader.Usable)
    {params last : Params} {result : Int}
    (readEq : readParams fill params reader request = some (result, last, after, sent)) :
    Bounded (reader.pending request) after sent := by
  apply run_post
    (fun state => Bounded (reader.pending request) state.2.1 state.2.2)
    (fun result => Bounded (reader.pending request) result.2.2.1 result.2.2.2)
    _ _ ⟨usable, Nat.le_refl _⟩ readEq
  · rintro ⟨params, current, now⟩ ⟨more, next, then_⟩ held turnEq
    obtain ⟨nextUsable, lower⟩ := readParamsTurn_bounded bounded held.usable turnEq
    exact ⟨nextUsable, Nat.le_trans (Nat.le_of_lt lower) held.pending_le⟩
  · rintro ⟨params, current, now⟩ ⟨result, more, last, final⟩ held turnEq
    have done := readParamsTurn_bounded bounded held.usable turnEq
    exact done.mono held.pending_le

/-! ## Interpreting headers -/

/-- Responses leave the input alone. -/
theorem respond_bounded {status given : Int} {response : List UInt8} (usable : reader.Usable)
    (respondEq : respond status response reader request = (given, after, sent)) :
    Bounded (reader.pending request) after sent ∧ (given = beginRecord → given = status) := by
  have reads : (request.ipc.writeItAll response).2.reads = request.ipc.reads := rfl
  unfold respond at respondEq
  generalize request.ipc.writeItAll response = wrote at reads respondEq
  rcases wrote with ⟨error, ipc⟩
  have same : ∀ reader : Reader, reader.pending { request with ipc := ipc } =
      reader.pending request := by
    intro reader
    simp only at reads
    simp only [pending, reads]
  cases error with
  | none =>
      cases respondEq
      exact ⟨⟨usable, Nat.le_of_eq (same reader)⟩, fun _ => rfl⟩
  | some errno =>
      cases respondEq
      refine ⟨⟨⟨usable.room, usable.buff_le, usable.rdNext_le, by simp [setError]⟩,
        Nat.le_of_eq (same (reader.setError errno))⟩, ?_⟩
      intro begins
      contradiction

/-- The stream while a header is interpreted, with the lengths of its record. -/
theorem Filling.usable_atRecord (filling : reader.Filling) (contentLen paddingLen : Nat) :
    ({ reader.atRecord with contentLen := contentLen, paddingLen := paddingLen } : Reader).Usable :=
  ⟨filling.room, filling.buff_le, filling.rdNext_le,
    fun _ => ⟨Nat.le_refl _, filling.rdNext_le⟩⟩

theorem processManagementRecord_bounded {type : UInt8} {status : Int} (usable : reader.Usable)
    (processEq : processManagementRecord type reader request = some (status, after, sent)) :
    Bounded (reader.pending request) after sent ∧ status ≠ beginRecord := by
  unfold processManagementRecord at processEq
  split at processEq
  · obtain ⟨⟨result, params, last, final⟩, readEq, rest⟩ := Option.bind_eq_some_iff.mp processEq
    have held := readParams_bounded fillContent_bounded usable readEq
    dsimp only at rest
    split at rest
    · cases rest
      exact ⟨held, by decide⟩
    · obtain ⟨response, -, respondEq⟩ := Option.map_eq_some_iff.mp rest
      obtain ⟨responded, sameStatus⟩ := respond_bounded held.usable respondEq
      exact ⟨responded.mono held.pending_le, fun begins => absurd (sameStatus begins)
        (by rw [begins]; decide)⟩
  · obtain ⟨responded, sameStatus⟩ := respond_bounded usable (Option.some.inj processEq)
    exact ⟨responded, fun begins => absurd (sameStatus begins) (by rw [begins]; decide)⟩

theorem processBeginRecord_bounded {requestId : Nat} {status : Int} (usable : reader.Usable)
    (isOpen : reader.isClosed = false)
    (processEq : processBeginRecord requestId reader request = some (status, after, sent)) :
    Bounded (reader.pending request) after sent ∧
      (status = beginRecord → after.isClosed = false) := by
  unfold processBeginRecord at processEq
  split at processEq
  · cases processEq
    exact ⟨⟨usable, Nat.le_refl _⟩, fun _ => isOpen⟩
  · split at processEq
    · obtain ⟨responded, sameStatus⟩ := respond_bounded usable (Option.some.inj processEq)
      exact ⟨responded, fun begins => absurd (sameStatus begins) (by rw [begins]; decide)⟩
    · obtain ⟨⟨memory, last, final⟩, getEq, rest⟩ := Option.map_eq_some_iff.mp processEq
      have held := getStr_bounded fillContent_bounded usable getEq
      dsimp only at rest
      split at rest
      · cases rest
        refine ⟨held, fun begins => ?_⟩
        contradiction
      · rename_i whole
        cases rest
        exact ⟨⟨held.usable, held.pending_le⟩,
          fun _ => getStr_open isOpen getEq (Decidable.not_not.mp whole) (by decide)⟩

theorem headerBounded_processHeader : HeaderBounded processHeader := by
  intro header reader after request sent status filling processEq
  have usable := filling.usable_atRecord header.contentLength header.paddingLength.toNat
  unfold processHeader at processEq
  split at processEq
  · cases processEq
    exact ⟨⟨filling.room, filling.buff_le, filling.rdNext_le,
      fun _ => ⟨Nat.le_refl _, filling.rdNext_le⟩⟩, Nat.le_refl _, fun _ => filling.not_closed⟩
  · dsimp only at processEq
    split at processEq
    · obtain ⟨held, opened⟩ := processBeginRecord_bounded usable filling.not_closed processEq
      exact ⟨held.usable, held.pending_le, opened⟩
    · split at processEq
      · obtain ⟨held, notBegin⟩ := processManagementRecord_bounded usable processEq
        exact ⟨held.usable, held.pending_le, fun begins => absurd begins notBegin⟩
      · split at processEq
        · cases processEq
          exact ⟨usable, Nat.le_refl _, fun _ => filling.not_closed⟩
        · split at processEq
          · cases processEq
            exact ⟨usable, Nat.le_refl _, fun _ => filling.not_closed⟩
          · cases processEq
            exact ⟨usable, Nat.le_refl _, fun _ => filling.not_closed⟩

/-- The turns of `FillBuffProc` use up bytes, so a fill that ends does so
within the fuel of the model. -/
theorem fillWith_of_ends (bounded : HeaderBounded headerProc) (filling : reader.Filling)
    (ends : Ends (fillTurn headerProc) ([], reader, request) (after, sent)) :
    fillWith headerProc reader request = some (after, sent) := by
  apply Ends.run (fun state => state.1.length < fcgiHeaderLen ∧ state.2.1.Filling)
    (fun state => state.2.1.pending state.2.2) _ ends ⟨Nat.zero_lt_succ _, filling⟩
    (Nat.lt_succ_self _)
  rintro ⟨header, current, now⟩ ⟨laterHeader, next, then_⟩ ⟨short, held⟩ turnEq
  have filled := fillTurn_filled bounded held short (Nat.le_refl (current.pending now))
  rw [turnEq] at filled
  exact ⟨⟨filled.1, filled.2.1⟩, filled.2.2⟩

end Reader

end NginxFastcgi.Fcgi
