import NginxFastcgi.Fcgi.Demultiplex
import NginxFastcgi.Fcgi.FillPhases
import NginxFastcgi.Fcgi.ParamsStream

/-!
# The content of one record

While a header is interpreted, the stream is bounded to its record: it brings
the content and ends.  The end is seen if the bytes suffice for it; otherwise
the connection is at its own end.
-/

namespace NginxFastcgi.Fcgi

open Foundation
open Foundation.Loop
open Foundation.Memory

theorem length_readsBytes_le (reads : List ReadAnswer) :
    (readsBytes reads).length ≤ readsLength reads := by
  induction reads using readsBytes.induct with
  | case1 byte bytes reads inductionHypothesis =>
      rw [readsBytes, readsLength, List.length_append]
      omega
  | case2 reads other =>
      rw [readsBytes]
      · exact Nat.zero_le _
      · exact other

namespace Reader

variable {reader after : Reader} {request sent : Request} {data : List UInt8} {count : Nat}

theorem length_upcoming_le (reader : Reader) (request : Request) :
    (reader.upcoming request).length ≤ reader.pending request := by
  have reads := length_readsBytes_le request.ipc.reads
  rw [upcoming, pending, List.length_append, ahead, List.length_drop]
  omega

/-- The bytes of the current record that were not taken. -/
def contentLeft (reader : Reader) : Nat :=
  reader.stop - reader.rdNext + reader.contentLen

theorem window_eq (request : Request) (usable : reader.Usable) (isOpen : reader.isClosed = false) :
    reader.window = (reader.upcoming request).take (reader.stop - reader.rdNext) := by
  obtain ⟨low, high⟩ := usable.window isOpen
  exact slice_eq_take_upcoming request (by omega)

theorem windowLength_le (request : Request) (usable : reader.Usable)
    (isOpen : reader.isClosed = false) :
    reader.stop - reader.rdNext ≤ (reader.upcoming request).length := by
  obtain ⟨low, high⟩ := usable.window isOpen
  have available := length_upcoming_ge reader request
  omega

theorem upcoming_take (request : Request) (usable : reader.Usable)
    (isOpen : reader.isClosed = false) (within : count ≤ reader.stop - reader.rdNext) :
    (reader.advance count).upcoming request = (reader.upcoming request).drop count := by
  obtain ⟨low, high⟩ := usable.window isOpen
  exact upcoming_advance (by omega)

theorem contentLeft_advance (within : count ≤ reader.stop - reader.rdNext) :
    (reader.advance count).contentLeft = reader.contentLeft - count := by
  simp only [contentLeft, advance]
  omega

/-- What is fixed while the content of one record is read. -/
structure RecordPlan where
  reader : Reader
  request : Request
  /-- Whether the end of the record is seen, and `skip` and the bytes behind the
  record in that case. -/
  seen : Bool
  skip : Bool
  left : List UInt8

/-- The plan for a reader at the start of the content. -/
def recordPlan (reader : Reader) (request : Request) : RecordPlan where
  reader := reader
  request := request
  seen := seesEnd reader.skip reader.contentLeft reader.paddingLen (reader.upcoming request).length
  skip := reader.skip && reader.contentLeft == 0
  left := (reader.upcoming request).drop (reader.contentLeft + reader.paddingLen)

/-- The parts of a reader that do not change within a record. -/
structure SameRecord (plan : RecordPlan) (reader : Reader) (request : Request) : Prop where
  request_eq : request =
    { plan.request with ipc := { plan.request.ipc with reads := request.ipc.reads } }
  type_eq : reader.type = plan.reader.type
  error_eq : readsError request.ipc.reads = readsError plan.request.ipc.reads

/-- The bounded stream still brings `data`. -/
structure InRecord (plan : RecordPlan) (data : List UInt8) (reader : Reader)
    (request : Request) : Prop where
  usable : reader.Usable
  is_open : reader.isClosed = false
  bounded : reader.eorStop = true
  no_error : reader.fcgiErrno = 0
  same : SameRecord plan reader request
  skip_window : reader.skip = true → reader.rdNext = reader.stop
  skip_same : reader.skip = plan.reader.skip
  seen_eq : plan.seen =
    seesEnd reader.skip reader.contentLeft reader.paddingLen (reader.upcoming request).length
  skip_eq : plan.skip = (reader.skip && reader.contentLeft == 0)
  left_eq : plan.left = (reader.upcoming request).drop (reader.contentLeft + reader.paddingLen)
  data_eq : data = if reader.skip then [] else (reader.upcoming request).take reader.contentLeft
  taken : ∃ count, count + reader.contentLeft = plan.reader.contentLeft ∧
    reader.upcoming request = (plan.reader.upcoming plan.request).drop count

/-- The bounded stream is over. -/
structure RecordOver (plan : RecordPlan) (reader : Reader) (request : Request) : Prop where
  closed : reader.isClosed = true
  request_eq : request =
    { plan.request with ipc := { plan.request.ipc with reads := request.ipc.reads } }
  starved : plan.seen = false → reader.fcgiErrno = readsError plan.request.ipc.reads
  ended : plan.seen = true → reader.Usable ∧ reader.fcgiErrno = 0 ∧ reader.contentLen = 0 ∧
    reader.paddingLen = 0 ∧ reader.skip = plan.skip ∧ reader.upcoming request = plan.left ∧
    SameRecord plan reader request

variable {plan : RecordPlan}

theorem inRecord_start (request : Request) (usable : reader.Usable)
    (isOpen : reader.isClosed = false) (bounded : reader.eorStop = true)
    (noError : reader.fcgiErrno = 0)
    (skipWindow : reader.skip = true → reader.rdNext = reader.stop) :
    InRecord (recordPlan reader request)
      (if reader.skip then [] else (reader.upcoming request).take reader.contentLeft)
      reader request :=
  ⟨usable, isOpen, bounded, noError, ⟨rfl, rfl, rfl⟩, skipWindow, rfl, rfl, rfl, rfl, rfl, 0,
    Nat.zero_add _, rfl⟩

theorem InRecord.filling (inside : InRecord plan data reader request) : reader.Filling :=
  ⟨inside.usable.room, inside.usable.buff_le, inside.usable.rdNext_le, inside.is_open⟩

theorem InRecord.take (inside : InRecord plan data reader request)
    (within : count ≤ reader.stop - reader.rdNext) :
    InRecord plan (data.drop count) (reader.advance count) request := by
  have upcomingEq := upcoming_take request inside.usable inside.is_open within
  have leftEq := contentLeft_advance within
  have windowLe := windowLength_le request inside.usable inside.is_open
  have countLe : count ≤ reader.contentLeft := within.trans (Nat.le_add_right _ _)
  have nothing : reader.skip = true → count = 0 := by
    intro skips
    have used := inside.skip_window skips
    omega
  constructor
  · exact inside.usable.advance inside.is_open within
  · exact inside.is_open
  · exact inside.bounded
  · exact inside.no_error
  · exact ⟨inside.same.request_eq, inside.same.type_eq, inside.same.error_eq⟩
  · intro skips
    have zero := nothing skips
    subst zero
    exact inside.skip_window skips
  · exact inside.skip_same
  · rw [inside.seen_eq, leftEq, upcomingEq, List.length_drop]
    unfold seesEnd
    cases skips : reader.skip with
    | true =>
        have zero := nothing skips
        subst zero
        simp [advance, skips]
    | false =>
        simp only [advance, skips, Bool.false_eq_true, if_false, decide_eq_decide]
        omega
  · rw [inside.skip_eq, leftEq]
    cases skips : reader.skip with
    | true =>
        have zero := nothing skips
        subst zero
        simp [advance, skips]
    | false => simp [advance, skips]
  · rw [inside.left_eq, leftEq, upcomingEq, List.drop_drop]
    simp only [advance]
    congr 1
    omega
  · rw [inside.data_eq, leftEq, upcomingEq]
    cases skips : reader.skip with
    | true => simp [advance, skips]
    | false => simp [advance, skips, List.drop_take]
  · obtain ⟨before, countEq, upcomingBefore⟩ := inside.taken
    refine ⟨before + count, by omega, ?_⟩
    rw [upcomingEq, upcomingBefore, List.drop_drop]

theorem InRecord.window_isPrefix (inside : InRecord plan data reader request) :
    reader.window <+: data := by
  rw [window_eq request inside.usable inside.is_open, inside.data_eq]
  cases skips : reader.skip with
  | true =>
      rw [inside.skip_window skips, Nat.sub_self]
      exact List.nil_prefix
  | false =>
      simp only [Bool.false_eq_true, if_false]
      exact List.take_prefix_take_left (Nat.le_add_right _ _)

theorem InRecord.length_le (inside : InRecord plan data reader request) :
    data.length ≤ reader.pending request := by
  apply le_trans _ (length_upcoming_le reader request)
  rw [inside.data_eq]
  split
  · exact Nat.zero_le _
  · exact List.length_take_le' _ _

theorem recordOver_of_starved {last : Reader} {final : Request}
    (inside : InRecord plan data reader request) (unseen : plan.seen = false)
    (starved : Starved reader request last final) : RecordOver plan last final := by
  refine ⟨starved.closed, ?_, fun _ => ?_, fun seen => ?_⟩
  · rw [starved.request_eq, inside.same.request_eq]
  · rw [starved.errno_eq, setError, if_pos inside.no_error, inside.same.error_eq]
  · rw [unseen] at seen
    contradiction

/-- A fill inside a record. -/
theorem InRecord.leads (inside : InRecord plan data reader request)
    (used : reader.rdNext = reader.stop) (headerProc : HeaderProc) :
    Leads (fillTurn headerProc) (fillTurn headerProc ([], reader, request)) fun (after, sent) =>
      (InRecord plan data after sent ∧ after.rdNext ≠ after.stop) ∨
        (data = [] ∧ RecordOver plan after sent) := by
  have filling := inside.filling
  have noWindow : reader.contentLeft = reader.contentLen := by
    rw [contentLeft, used, Nat.sub_self, Nat.zero_add]
  have seenEq := inside.seen_eq
  have skipEq := inside.skip_eq
  have leftEq := inside.left_eq
  have dataEq := inside.data_eq
  rw [noWindow] at seenEq skipEq leftEq dataEq
  by_cases wanted : reader.skip = false ∧ 0 < reader.contentLen
  · obtain ⟨wanted, some_content⟩ := wanted
    apply leads_content filling some_content wanted
    · intro nothing last final starved
      refine Or.inr ⟨?_, recordOver_of_starved inside ?_ starved⟩
      · rw [dataEq, nothing, List.take_nil, ite_self]
      · rw [seenEq, nothing, seesEnd, wanted]
        simp
    · intro next now moved nonempty
      have countPos : 0 < min next.contentLen (next.buff.length - next.rdNext) := by
        have inBuffer := moved.filling.rdNext_le
        have contentEq : next.contentLen = reader.contentLen := by
          rw [moved.reader_eq]
        omega
      have handedLeft : next.handOut.contentLeft = reader.contentLen := by
        have contentEq : next.contentLen = reader.contentLen := by
          rw [moved.reader_eq]
        simp only [contentLeft, handOut]
        omega
      have skipNext : next.handOut.skip = reader.skip := by
        rw [handOut, moved.reader_eq]
      have paddingNext : next.handOut.paddingLen = reader.paddingLen := by
        rw [handOut, moved.reader_eq]
      have upcomingNext : next.handOut.upcoming now = reader.upcoming request := by
        exact moved.upcoming_eq
      refine Or.inl ⟨⟨⟨moved.filling.room, moved.filling.buff_le, moved.filling.rdNext_le,
        fun _ => ⟨Nat.le_add_right _ _, ?_⟩⟩, moved.filling.not_closed, ?_, ?_, ⟨?_, ?_, ?_⟩, ?_,
        ?_, ?_, ?_, ?_, ?_, ?_⟩, ?_⟩
      · have inBuffer := moved.filling.rdNext_le
        simp only [handOut]
        omega
      · rw [handOut, moved.reader_eq]
        exact inside.bounded
      · rw [handOut, moved.reader_eq]
        exact inside.no_error
      · rw [moved.request_eq, inside.same.request_eq]
      · rw [handOut, moved.reader_eq]
        exact inside.same.type_eq
      · rw [moved.error_eq, inside.same.error_eq]
      · intro skips
        rw [skipNext, wanted] at skips
        contradiction
      · rw [skipNext, inside.skip_same]
      · rw [skipNext, handedLeft, paddingNext, upcomingNext, seenEq]
      · rw [skipNext, handedLeft, skipEq]
      · rw [handedLeft, paddingNext, upcomingNext, leftEq]
      · rw [skipNext, handedLeft, upcomingNext, dataEq]
      · rw [handedLeft, upcomingNext, ← noWindow]
        exact inside.taken
      · simp only [handOut]
        omega
  · have passes : reader.skip = true ∨ reader.contentLen = 0 := by
      cases skips : reader.skip with
      | true => exact Or.inl rfl
      | false => exact Or.inr (Nat.eq_zero_of_not_pos fun positive => wanted ⟨skips, positive⟩)
    have dataNil : data = [] := by
      rw [dataEq]
      rcases passes with skips | noContent
      · rw [if_pos skips]
      · rw [noContent, List.take_zero, ite_self]
    have seenMax : plan.seen = decide (max 1 (reader.contentLen + reader.paddingLen) ≤
        (reader.upcoming request).length) := by
      rw [seenEq, seesEnd]
      rcases passes with skips | noContent
      · rw [if_pos skips]
      · rw [noContent, Nat.zero_add, Nat.zero_add, ite_self]
    apply leads_discard filling passes
    · intro few last final starved
      refine Or.inr ⟨dataNil, recordOver_of_starved inside ?_ starved⟩
      rw [seenMax]
      exact decide_eq_false (Nat.not_le_of_lt few)
    · intro enough after sent moved
      have bounded : after.eorStop = true := by
        rw [moved.reader_eq]
        exact inside.bounded
      have doneEq : endOfRecord headerProc [] after sent =
          some (.done ({ after with stop := after.rdNext, isClosed := true }, sent)) :=
        if_pos bounded
      rw [doneEq]
      refine .done (Or.inr ⟨dataNil, rfl, ?_, fun unseen => ?_, fun _ => ⟨⟨moved.filling.room,
        moved.filling.buff_le, moved.filling.rdNext_le, fun isOpen => ?_⟩, ?_, ?_, ?_, ?_, ?_,
        ?_, ?_, ?_⟩⟩)
      · rw [moved.request_eq, inside.same.request_eq]
      · rw [seenMax, decide_eq_true enough] at unseen
        contradiction
      · contradiction
      · rw [moved.reader_eq]
        exact inside.no_error
      · rw [moved.reader_eq]
      · rw [moved.reader_eq]
      · rw [skipEq, moved.reader_eq]
      · rw [leftEq]
        exact moved.upcoming_eq
      · rw [moved.request_eq, inside.same.request_eq]
      · rw [moved.reader_eq]
        exact inside.same.type_eq
      · rw [moved.error_eq, inside.same.error_eq]

theorem InRecord.mark {plan : RecordPlan} {data : List UInt8} {reader : Reader}
    {request : Request} (inside : InRecord plan data reader request) :
    InRecord plan data { reader with stopUnget := reader.rdNext } request :=
  ⟨⟨inside.usable.room, inside.usable.buff_le, inside.usable.rdNext_le, inside.usable.window⟩,
    inside.is_open, inside.bounded, inside.no_error,
    ⟨inside.same.request_eq, inside.same.type_eq, inside.same.error_eq⟩, inside.skip_window,
    inside.skip_same, inside.seen_eq, inside.skip_eq, inside.left_eq, inside.data_eq, inside.taken⟩

/-- The content of a record, for the clients of the stream. -/
theorem inRecord_supplies (plan : RecordPlan) :
    Supplies fillContent (InRecord plan) (RecordOver plan) where
  is_open := InRecord.is_open
  inside inside := inside.usable.window inside.is_open
  window := InRecord.window_isPrefix
  length_le := InRecord.length_le
  take := InRecord.take
  ended_closed := RecordOver.closed
  fill_spec inside used := by
    obtain ⟨⟨after, sent⟩, ends, next⟩ := (inside.leads used fun _ _ _ => none).ends
    refine ⟨after, sent, fillWith_of_ends headerBounded_none inside.filling ends, ?_⟩
    rcases next with ⟨insideAfter, window⟩ | isOver
    · exact Or.inl ⟨insideAfter.is_open, insideAfter.mark, window⟩
    · exact Or.inr isOver

end Reader

end NginxFastcgi.Fcgi
