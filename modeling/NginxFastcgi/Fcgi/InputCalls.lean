import NginxFastcgi.Fcgi.InputStream

/-!
# Reading an input stream

The calls that an application makes on an input stream, in any order.  Each
takes a piece from the front of what the stream brings, and the end of the
stream is seen by the first call that wants more.
-/

namespace NginxFastcgi.Fcgi

open Foundation

/-- The calls that read. -/
inductive InputCall
  | getChar
  | getStr (n : Nat)
  | getLine (n : Nat)
  deriving DecidableEq

/-- One call: the bytes it returns, which are none for `EOF` and for the null
pointer of `FCGX_GetLine`. -/
def inputStep (fill : FillProc) (call : InputCall) (reader : Reader) (request : Request) :
    Option (List UInt8 × Reader × Request) :=
  match call with
  | .getChar => (Reader.getChar fill reader request).map fun (c, reader, request) =>
      (c.toList, reader, request)
  | .getStr n => Reader.getStr fill n reader request
  | .getLine n => (Reader.getLine fill n reader request).map fun (line, reader, request) =>
      (line.getD [], reader, request)

/-- The calls one after the other. -/
def inputRun (fill : FillProc) :
    List InputCall → Reader → Request → Option (List (List UInt8) × Reader × Request)
  | [], reader, request => some ([], reader, request)
  | call :: calls, reader, request => do
      let (bytes, reader, request) ← inputStep fill call reader request
      let (later, reader, request) ← inputRun fill calls reader request
      some (bytes :: later, reader, request)

/-! ## What the calls mean -/

/-- The bytes up to the end of the line, but at most `n`. -/
def lineOf : Nat → List UInt8 → List UInt8
  | 0, _ => []
  | _, [] => []
  | n + 1, c :: data => if c = 10 then [c] else c :: lineOf n data

/-- The line is cut off by the end of the data. -/
def lineReachesEOF : Nat → List UInt8 → Bool
  | 0, _ => false
  | _, [] => true
  | n + 1, c :: data => if c = 10 then false else lineReachesEOF n data

/-- The piece a call takes from the front. -/
def piece : InputCall → List UInt8 → List UInt8
  | .getChar, data => data.take 1
  | .getStr n, data => data.take n
  | .getLine n, data => lineOf (n - 1) data

/-- The call wants more than there is. -/
def reachesEOF : InputCall → List UInt8 → Bool
  | .getChar, data => data.length < 1
  | .getStr n, data => data.length < n
  | .getLine n, data => lineReachesEOF (n - 1) data

def pieces : List InputCall → List UInt8 → List (List UInt8)
  | [], _ => []
  | call :: calls, data =>
      piece call data :: pieces calls (data.drop (piece call data).length)

/-- What the calls leave. -/
def restAfter : List InputCall → List UInt8 → List UInt8
  | [], data => data
  | call :: calls, data => restAfter calls (data.drop (piece call data).length)

/-- Some call wants more than there is. -/
def runReachesEOF : List InputCall → List UInt8 → Bool
  | [], _ => false
  | call :: calls, data =>
      reachesEOF call data || runReachesEOF calls (data.drop (piece call data).length)

theorem lineOf_isPrefix (n : Nat) (data : List UInt8) : lineOf n data <+: data := by
  induction n generalizing data with
  | zero => exact List.nil_prefix
  | succ n inductionHypothesis =>
      cases data with
      | nil => exact List.nil_prefix
      | cons c data =>
          rw [lineOf]
          split
          · exact List.prefix_append [c] data
          · exact List.cons_prefix_cons.mpr ⟨rfl, inductionHypothesis data⟩

theorem piece_isPrefix (call : InputCall) (data : List UInt8) : piece call data <+: data := by
  cases call with
  | getChar => exact List.take_prefix 1 data
  | getStr n => exact List.take_prefix n data
  | getLine n => exact lineOf_isPrefix (n - 1) data

theorem lineOf_nil (n : Nat) : lineOf n [] = [] :=
  List.prefix_nil.mp (lineOf_isPrefix n [])

theorem piece_nil (call : InputCall) : piece call [] = [] :=
  List.prefix_nil.mp (piece_isPrefix call [])

namespace Reader

/-- The stream brings `data`, or is over and brings nothing. -/
def Serves (rest : List UInt8 → Reader → Request → Prop) (ended : Reader → Request → Prop)
    (data : List UInt8) (reader : Reader) (request : Request) : Prop :=
  rest data reader request ∨ (data = [] ∧ ended reader request)

section Closed

variable {reader : Reader} (fill : FillProc) (request : Request)

theorem getLineLoop_of_closed (closed : reader.isClosed = true) (n : Nat) (str : List UInt8) :
    getLineLoop fill n str reader request = some (str, reader, request) := by
  cases n with
  | zero => rw [getLineLoop]
  | succ n =>
      rw [getLineLoop, getChar_of_closed closed]
      rfl

/-- A closed stream gives nothing more. -/
theorem inputStep_of_closed (closed : reader.isClosed = true) (call : InputCall) :
    inputStep fill call reader request = some ([], reader, request) := by
  cases call with
  | getChar =>
      rw [inputStep, getChar_of_closed closed]
      rfl
  | getStr n => rw [inputStep, getStr, if_pos (Or.inl closed)]
  | getLine n =>
      rw [inputStep, getLine, getLineLoop_of_closed fill request closed, Option.map_some,
        Option.map_some]
      dsimp only
      split <;> rfl

end Closed

section Supplies

variable {fill : FillProc} {rest : List UInt8 → Reader → Request → Prop}
  {ended : Reader → Request → Prop} (supplies : Supplies fill rest ended) {data : List UInt8}
  {reader : Reader} {request : Request}
include supplies

/-- The loop of `FCGX_GetLine`. -/
theorem Supplies.getLineLoop (serves : Serves rest ended data reader request) (n : Nat)
    (str : List UInt8) :
    ∃ after sent, Reader.getLineLoop fill n str reader request =
        some (str ++ lineOf n data, after, sent) ∧
      Serves rest ended (data.drop (lineOf n data).length) after sent ∧
      after.isClosed = (reader.isClosed || lineReachesEOF n data) := by
  induction n generalizing data reader request str with
  | zero =>
      refine ⟨reader, request, ?_, ?_, ?_⟩
      · rw [Reader.getLineLoop, lineOf, List.append_nil]
      · exact serves
      · rw [lineReachesEOF, Bool.or_false]
  | succ n inductionHypothesis =>
      rcases serves with held | ⟨rfl, isOver⟩
      · cases data with
        | nil =>
            obtain ⟨after, sent, charEq, isOver⟩ := supplies.getChar_nil held
            refine ⟨after, sent, ?_, Or.inr ⟨rfl, isOver⟩, ?_⟩
            · rw [Reader.getLineLoop, charEq, lineOf, List.append_nil]
              · rfl
              · exact Nat.succ_ne_zero n
            · rw [supplies.ended_closed isOver, lineReachesEOF, Bool.or_true]
              exact Nat.succ_ne_zero n
        | cons c data =>
            obtain ⟨middle, now, charEq, heldMiddle⟩ := supplies.getChar_cons held
            rw [Reader.getLineLoop, charEq, lineOf, lineReachesEOF, Option.bind_some]
            dsimp only
            have isOpen := supplies.is_open held
            by_cases newline : c = 10
            · rw [if_pos newline, if_pos newline, if_pos newline]
              refine ⟨middle, now, rfl, Or.inl heldMiddle, ?_⟩
              rw [supplies.is_open heldMiddle, isOpen]
              rfl
            · rw [if_neg newline, if_neg newline, if_neg newline]
              obtain ⟨after, sent, loopEq, servesAfter, closedEq⟩ :=
                inductionHypothesis (Or.inl heldMiddle) (str ++ [c])
              refine ⟨after, sent, ?_, servesAfter, ?_⟩
              · rw [loopEq, List.append_assoc]
                rfl
              · rw [closedEq, supplies.is_open heldMiddle, isOpen]
      · have closed := supplies.ended_closed isOver
        refine ⟨reader, request, ?_, Or.inr ⟨List.drop_nil, isOver⟩, ?_⟩
        · rw [getLineLoop_of_closed fill request closed, lineOf_nil, List.append_nil]
        · rw [closed, Bool.true_or]

/-- Every call takes its piece. -/
theorem Supplies.inputStep (serves : Serves rest ended data reader request) (call : InputCall) :
    ∃ after sent, Fcgi.inputStep fill call reader request = some (piece call data, after, sent) ∧
      Serves rest ended (data.drop (piece call data).length) after sent ∧
      after.isClosed = (reader.isClosed || reachesEOF call data) := by
  rcases serves with held | ⟨rfl, isOver⟩
  · cases call with
    | getChar =>
        cases data with
        | nil =>
            obtain ⟨after, sent, charEq, isOver⟩ := supplies.getChar_nil held
            refine ⟨after, sent, ?_, Or.inr ⟨rfl, isOver⟩, ?_⟩
            · rw [Fcgi.inputStep, charEq]
              rfl
            · rw [supplies.ended_closed isOver]
              exact (Bool.or_true _).symm
        | cons c data =>
            obtain ⟨after, sent, charEq, heldAfter⟩ := supplies.getChar_cons held
            refine ⟨after, sent, ?_, Or.inl heldAfter, ?_⟩
            · rw [Fcgi.inputStep, charEq]
              rfl
            · rw [supplies.is_open heldAfter, supplies.is_open held]
              rfl
    | getStr n =>
        obtain ⟨str, after, sent, getEq, rfl, ⟨enough, heldAfter⟩ | ⟨few, isOver⟩⟩ :=
          supplies.getStr held n
        · refine ⟨after, sent, getEq, Or.inl ?_, ?_⟩
          · rw [piece, List.length_take, Nat.min_eq_left enough]
            exact heldAfter
          · rw [supplies.is_open heldAfter, supplies.is_open held, reachesEOF]
            simp [enough]
        · refine ⟨after, sent, getEq, Or.inr ⟨?_, isOver⟩, ?_⟩
          · rw [piece, List.length_take, Nat.min_eq_right (Nat.le_of_lt few), List.drop_length]
          · rw [supplies.ended_closed isOver, reachesEOF, decide_eq_true few, Bool.or_true]
    | getLine n =>
        obtain ⟨after, sent, loopEq, servesAfter, closedEq⟩ :=
          supplies.getLineLoop (Or.inl held) (n - 1) []
        refine ⟨after, sent, ?_, servesAfter, closedEq⟩
        rw [Fcgi.inputStep, Reader.getLine, loopEq, List.nil_append, Option.map_some,
          Option.map_some]
        dsimp only
        split
        · rename_i nothing
          rw [Option.getD_none, piece, nothing.1]
        · rfl
  · have closed := supplies.ended_closed isOver
    refine ⟨reader, request, ?_, Or.inr ⟨List.drop_nil, isOver⟩, ?_⟩
    · rw [inputStep_of_closed fill request closed, piece_nil]
    · rw [closed, Bool.true_or]

/-- So do all calls in a row. -/
theorem Supplies.inputRun (serves : Serves rest ended data reader request)
    (calls : List InputCall) :
    ∃ after sent, Fcgi.inputRun fill calls reader request =
        some (pieces calls data, after, sent) ∧
      Serves rest ended (restAfter calls data) after sent ∧
      after.isClosed = (reader.isClosed || runReachesEOF calls data) := by
  induction calls generalizing data reader request with
  | nil => exact ⟨reader, request, rfl, serves, (Bool.or_false _).symm⟩
  | cons call calls inductionHypothesis =>
      obtain ⟨middle, now, stepEq, servesMiddle, closedMiddle⟩ := supplies.inputStep serves call
      obtain ⟨after, sent, runEq, servesAfter, closedEq⟩ := inductionHypothesis servesMiddle
      refine ⟨after, sent, ?_, servesAfter, ?_⟩
      · rw [Fcgi.inputRun]
        simp only [stepEq, runEq, Option.bind_eq_bind, Option.bind_some]
        rfl
      · rw [closedEq, closedMiddle, runReachesEOF, Bool.or_assoc]

end Supplies

variable {reader : Reader} {request : Request} {carried : Carried}

/-! ## Pushing back -/

/-- Behind a fill, `stopUnget` is not ahead of the client. -/
def Marked (reader : Reader) : Prop :=
  reader.rdNext ≠ reader.stop → reader.stopUnget ≤ reader.rdNext

/-- The mark stays where it is until the next fill. -/
theorem Supplies.marked {fill : FillProc} {rest : List UInt8 → Reader → Request → Prop}
    {ended : Reader → Request → Prop} (supplies : Supplies fill rest ended) :
    Supplies fill (fun data reader request => rest data reader request ∧ reader.Marked) ended where
  is_open held := supplies.is_open held.1
  inside held := supplies.inside held.1
  window held := supplies.window held.1
  length_le held := supplies.length_le held.1
  take := by
    intro data reader request count held within
    refine ⟨supplies.take held.1 within, ?_⟩
    obtain ⟨low, -⟩ := supplies.inside held.1
    have marked : reader.rdNext ≠ reader.stop → reader.stopUnget ≤ reader.rdNext := held.2
    intro window
    simp only [advance] at window ⊢
    omega
  ended_closed := supplies.ended_closed
  fill_spec held used := by
    obtain ⟨after, sent, fillEq, ⟨isOpen, heldAfter, window⟩ | isOver⟩ :=
      supplies.fill_spec held.1 used
    · exact ⟨after, sent, fillEq, Or.inl ⟨isOpen, ⟨heldAfter, fun _ => Nat.le_refl _⟩, window⟩⟩
    · exact ⟨after, sent, fillEq, Or.inr isOver⟩

/-- A byte that is stored where the next one was read takes its place. -/
theorem InStream.unGetChar {plan : StreamPlan} {data : List UInt8} {b : UInt8}
    (inStream : InStream plan (b :: data) reader request) (window : reader.rdNext ≠ reader.stop)
    (marked : reader.Marked) (c : UInt8) :
    ∃ back, (reader.advance 1).unGetChar c = some (some c, back) ∧
      InStream plan (c :: data) back request := by
  have isOpen := inStream.steady.filling.not_closed
  have usable := inStream.usable
  have steady := inStream.steady
  have stopUnget := marked window
  obtain ⟨low, high⟩ := usable.window isOpen
  have inside : reader.rdNext + [c].length ≤ reader.buff.length := by
    rw [List.length_singleton]
    omega
  have noSkip : reader.skip = false := by
    cases skips : reader.skip with
    | false => rfl
    | true => exact absurd (inStream.skip_window skips) window
  obtain ⟨carried, carriedEq, contentEq, carries⟩ := inStream.carried
  have length := Memory.length_blit reader.buff [c] inside
  refine ⟨{ reader with buff := Memory.blit reader.buff reader.rdNext [c] }, ?_, ⟨⟨usable.room, ?_,
    ?_, fun _ => ⟨low, ?_⟩⟩, ⟨⟨usable.room, ?_, ?_, isOpen⟩, steady.unbounded, steady.no_error,
    steady.type_eq, steady.request_eq, steady.sound, steady.error_eq⟩, inStream.skip_window,
    { carried with content := c :: data }, ?_, rfl, carries.answered, carries.ending⟩⟩
  · have notMarked : ¬ ((reader.advance 1).isClosed = true ∨
        (reader.advance 1).rdNext = (reader.advance 1).stopUnget) := by
      simp only [advance, isOpen]
      simp
      omega
    have notZero : (reader.advance 1).rdNext ≠ 0 := Nat.succ_ne_zero _
    rw [Reader.unGetChar, if_neg notMarked, if_neg notZero]
    rfl
  · rw [length]
    exact usable.buff_le
  · rw [length]
    exact usable.rdNext_le
  · rw [length]
    exact high
  · rw [length]
    exact usable.buff_le
  · rw [length]
    exact usable.rdNext_le
  · have someLeft : ∃ left, reader.contentLeft = left + 1 := by
      refine ⟨reader.stop - reader.rdNext + reader.contentLen - 1, ?_⟩
      rw [contentLeft]
      omega
    obtain ⟨left, leftEq⟩ := someLeft
    have split : reader.ahead = reader.buff.getD reader.rdNext 0 :: reader.buff.drop
        (reader.rdNext + 1) := by
      rw [ahead, List.drop_eq_getElem_cons (by omega)]
      simp [show reader.rdNext < reader.buff.length by omega]
    have backAhead : (Memory.blit reader.buff reader.rdNext [c]).drop reader.rdNext =
        c :: reader.buff.drop (reader.rdNext + 1) := by
      rw [Memory.blit, List.append_assoc, List.drop_append_of_le_length (by simp; omega)]
      simp
    rw [noSkip, leftEq, upcoming, split, List.cons_append] at carriedEq
    have replaced := demultiplexFrom_replace (c := c) carriedEq contentEq
    change demultiplexFrom plan.channel reader.skip reader.contentLeft reader.paddingLen
      ((Memory.blit reader.buff reader.rdNext [c]).drop reader.rdNext ++ _) = _
    rw [noSkip, leftEq, backAhead, List.cons_append]
    exact replaced

/-- A byte that is read can be pushed back, as any other byte. -/
theorem InStream.pushBack {plan : StreamPlan} {data : List UInt8} {b : UInt8}
    (inStream : InStream plan (b :: data) reader request) (marked : reader.Marked)
    (errorNe : plan.error ≠ 0) (isBegun : plan.request.isBeginProcessed = true) (c : UInt8) :
    ∃ after sent back, getChar Reader.fillBuffProc reader request = some (some b, after, sent) ∧
      after.unGetChar c = some (some c, back) ∧ InStream plan (c :: data) back sent := by
  have isOpen := inStream.steady.filling.not_closed
  have supplies := inStream_supplies errorNe isBegun
  by_cases used : reader.rdNext = reader.stop
  · obtain ⟨after, sent, fillEq, ⟨stillOpen, inAfter, window⟩ | ⟨nothing, -⟩⟩ :=
      supplies.fill_spec inStream used
    · obtain ⟨rest, dataEq, -⟩ := supplies.cons inAfter window
      cases dataEq
      obtain ⟨back, backEq, inBack⟩ := inAfter.unGetChar window (fun _ => Nat.le_refl _) c
      refine ⟨_, sent, back, ?_, backEq, inBack⟩
      rw [getChar_of_used isOpen used, fillEq, Option.bind_some,
        charAfterFill_of_window stillOpen window]
    · contradiction
  · obtain ⟨rest, dataEq, -⟩ := supplies.cons inStream used
    cases dataEq
    obtain ⟨back, backEq, inBack⟩ := inStream.unGetChar used marked c
    exact ⟨_, request, back, getChar_of_window isOpen used, backEq, inBack⟩

/-- Calls on a stream that starts here. -/
theorem serves_of_calls (ready : Ready reader request) (isBegun : request.isBeginProcessed = true)
    (type : UInt8)
    (carriedEq : demultiplex ⟨request.requestId, type, true⟩ false (reader.upcoming request) =
      some carried) (calls : List InputCall) :
    ∃ after sent, inputRun fillBuffProc calls (reader.setReaderType type) request =
        some (pieces calls carried.content, after, sent) ∧
      Serves (fun data current now =>
          InStream (streamPlan type request carried) data current now ∧ current.Marked)
        (fun current now => StreamOver (streamPlan type request carried) current now ∧
          current.isClosed = true) (restAfter calls carried.content) after sent ∧
      after.isClosed = runReachesEOF calls carried.content := by
  rw [← isBegun] at carriedEq
  have inStream := inStream_setReaderType ready type carriedEq
  have errorNe : (streamPlan type request carried).error ≠ 0 := ready.error_ne
  have marked : (reader.setReaderType type).Marked := fun window => absurd rfl window
  have supplies := (inStream_supplies errorNe isBegun).marked
  exact supplies.inputRun (Or.inl ⟨inStream, marked⟩) calls

/-- The bytes of the connection and the calls of the client determine what the
client gets, what the library answers and how the stream ends; the cuts that
the kernel makes do not matter. -/
theorem input_of_carried (ready : Ready reader request)
    (isBegun : request.isBeginProcessed = true) (type : UInt8)
    (carriedEq : demultiplex ⟨request.requestId, type, true⟩ false (reader.upcoming request) =
      some carried) (calls : List InputCall) :
    ∃ after sent, inputRun fillBuffProc calls (reader.setReaderType type) request =
        some (pieces calls carried.content, after, sent) ∧
      after.isClosed = runReachesEOF calls carried.content ∧
      (after.isClosed = true → StreamOver (streamPlan type request carried) after sent) := by
  obtain ⟨after, sent, runEq, serves, closedEq⟩ :=
    serves_of_calls ready isBegun type carriedEq calls
  refine ⟨after, sent, runEq, closedEq, fun closed => ?_⟩
  rcases serves with ⟨inStream, -⟩ | ⟨-, isOver, -⟩
  · have isOpen := inStream.steady.filling.not_closed
    rw [closed] at isOpen
    contradiction
  · exact isOver

end Reader

end NginxFastcgi.Fcgi
