import Mathlib.Algebra.BigOperators.Group.List.Basic
import NginxFastcgi.Foundation.Transition
import NginxFastcgi.Network.Buffer

/-!
# `CBuffers`, a list of nodes read as one byte string

`CBuffers` is a list of `CBuffer` nodes with a separately kept byte count.
`getData` copies a range out of the nodes and `eraseFront` drops a prefix of
them; both walk the list with running positions.  The counted operations keep
the count equal to the number of bytes in the nodes, and then the list behaves
as the concatenation of its nodes.
-/

namespace NginxFastcgi.Network

open Foundation.MachineInt

structure CBuffers where
  nodes : List CBuffer
  mDataLength : Nat
  deriving DecidableEq

namespace CBuffers

def new : CBuffers where
  nodes := []
  mDataLength := 0

/-- The argument is a pointer; `none` is `NULL`. -/
def pushFront (buffers : CBuffers) : Option CBuffer → CBuffers
  | none => buffers
  | some buffer =>
      { nodes := buffer :: buffers.nodes
        mDataLength := wrap64 (buffers.mDataLength + buffer.dataLength) }

def pushBack (buffers : CBuffers) : Option CBuffer → CBuffers
  | none => buffers
  | some buffer =>
      { nodes := buffers.nodes ++ [buffer]
        mDataLength := wrap64 (buffers.mDataLength + buffer.dataLength) }

/-- The flag only decides whether the nodes are deleted or left to the caller. -/
def clear (_buffers : CBuffers) (_clean : Bool) : CBuffers :=
  new

def dataLength (buffers : CBuffers) : Nat :=
  buffers.mDataLength

/-- The loop of `GetData`: the count of bytes copied, and the bytes copied. -/
def getDataLoop (pos endPos : Nat) :
    List CBuffer → (curPos prevPos realLength : Nat) → List UInt8 → Nat × List UInt8
  | [], _, _, realLength, data => (realLength, data)
  | node :: rest, curPos, prevPos, realLength, data =>
      let curPos := wrap64 (curPos + node.dataLength)
      let offset := if pos > prevPos then sub64 pos prevPos else 0
      let copyLength :=
        if curPos < endPos then
          sub64 (sub64 curPos prevPos) offset
        else
          sub64 (sub64 endPos prevPos) offset
      let copied :=
        if curPos > pos then
          (wrap64 (realLength + copyLength),
            data ++ (node.getData.drop offset).take copyLength)
        else
          (realLength, data)
      if endPos ≤ curPos then
        copied
      else
        getDataLoop pos endPos rest curPos curPos copied.1 copied.2

/-- `GetData(pos, length, data)`: the return value, and the bytes written from
`data` on. -/
def getData (buffers : CBuffers) (pos length : Nat) (dataIsNull : Bool) : Nat × List UInt8 :=
  if pos ≥ buffers.dataLength ∨ length = 0 ∨ dataIsNull then
    (0, [])
  else
    getDataLoop pos (wrap64 (pos + length)) buffers.nodes 0 0 0 []

/-- The loop of `EraseFront`: the nodes left and the count of bytes erased. -/
def eraseFrontLoop (count : Nat) : List CBuffer → Nat → List CBuffer × Nat
  | [], eraseLength => ([], eraseLength)
  | node :: rest, eraseLength =>
      if eraseLength < count then
        if wrap64 (eraseLength + node.dataLength) > count then
          ((node.eraseFront (sub64 count eraseLength)).1 :: rest, count)
        else
          eraseFrontLoop count rest (wrap64 (eraseLength + node.dataLength))
      else
        (node :: rest, eraseLength)

/-- `EraseFront` with its return value. -/
def eraseFront (buffers : CBuffers) (count : Nat) : CBuffers × Nat :=
  if count = 0 then
    (buffers, 0)
  else
    let erased := eraseFrontLoop count buffers.nodes 0
    ({ nodes := erased.1
       mDataLength := sub64 buffers.mDataLength erased.2 }, erased.2)

/-- The byte string a list of nodes holds. -/
def flatten (nodes : List CBuffer) : List UInt8 :=
  nodes.flatMap CBuffer.bytes

def bytes (buffers : CBuffers) : List UInt8 :=
  flatten buffers.nodes

@[simp]
theorem flatten_nil : flatten [] = [] :=
  rfl

@[simp]
theorem flatten_cons (node : CBuffer) (rest : List CBuffer) :
    flatten (node :: rest) = node.bytes ++ flatten rest :=
  rfl

@[simp]
theorem flatten_append (first second : List CBuffer) :
    flatten (first ++ second) = flatten first ++ flatten second :=
  List.flatMap_append

theorem length_flatten (nodes : List CBuffer) (valid : ∀ node ∈ nodes, node.Valid) :
    (flatten nodes).length = (nodes.map CBuffer.dataLength).sum := by
  have lengths : nodes.map CBuffer.dataLength =
      nodes.map (fun node => node.bytes.length) := by
    apply List.map_congr_left
    intro node member
    exact (valid node member).length_bytes.symm
  rw [flatten, List.length_flatMap, lengths]

/-! ## Reading a range -/

/-- The part of `data` that lies in the absolute range from `pos` to `endPos`,
when `data` starts at the absolute position `start`. -/
def segment (pos endPos start : Nat) (data : List UInt8) : List UInt8 :=
  (data.drop (pos - start)).take (endPos - max pos start)

theorem segment_append (pos endPos start : Nat) (first second : List UInt8) :
    segment pos endPos start (first ++ second) =
      segment pos endPos start first ++ segment pos endPos (start + first.length) second := by
  have skip : pos - start - first.length = pos - (start + first.length) := by omega
  simp only [segment, List.drop_append, List.take_append, List.length_drop, skip]
  congr 2
  omega

theorem length_segment_le (pos endPos start : Nat) (data : List UInt8) :
    (segment pos endPos start data).length ≤ endPos - max pos start := by
  simp only [segment, List.length_take]
  omega

/-- No running position of a walk over `nodes` wraps: either all of it fits, or
the walk stops at `limit` and no node is longer than what is left. -/
def NoWrap (start limit : Nat) (nodes : List CBuffer) : Prop :=
  start + (flatten nodes).length < 2 ^ 64 ∨ limit ≤ 2 ^ 63

theorem NoWrap.head {start limit : Nat} {node : CBuffer} {rest : List CBuffer}
    (noWrap : NoWrap start limit (node :: rest)) (before : start < limit) (valid : node.Valid) :
    start + node.dataLength < 2 ^ 64 := by
  have lengthEq := valid.length_bytes
  have bounded := valid.dataLength_lt
  unfold NoWrap at noWrap
  rw [flatten_cons, List.length_append] at noWrap
  omega

theorem NoWrap.tail {start limit : Nat} {node : CBuffer} {rest : List CBuffer}
    (noWrap : NoWrap start limit (node :: rest)) (valid : node.Valid) :
    NoWrap (start + node.dataLength) limit rest := by
  have lengthEq := valid.length_bytes
  unfold NoWrap at noWrap ⊢
  rw [flatten_cons, List.length_append] at noWrap
  omega

/-- What one node contributes to a copy. -/
theorem copy_node {pos endPos start : Nat} {node : CBuffer} (valid : node.Valid)
    (before : start < endPos) (ordered : pos < endPos) (bounded : endPos < 2 ^ 64)
    (fits : start + node.dataLength < 2 ^ 64) (reaches : pos < start + node.dataLength) :
    let offset := if pos > start then sub64 pos start else 0
    let copyLength :=
      if start + node.dataLength < endPos then
        sub64 (sub64 (start + node.dataLength) start) offset
      else
        sub64 (sub64 endPos start) offset
    (node.getData.drop offset).take copyLength = segment pos endPos start node.bytes ∧
      copyLength = (segment pos endPos start node.bytes).length := by
  have lengthEq := valid.length_bytes
  have offsetEq : (if pos > start then sub64 pos start else 0) = pos - start := by
    split
    · exact sub64_of_le (by omega) (by omega)
    · omega
  have copyEq : (if start + node.dataLength < endPos then
        sub64 (sub64 (start + node.dataLength) start) (pos - start)
      else
        sub64 (sub64 endPos start) (pos - start)) =
      min (endPos - max pos start) (node.bytes.length - (pos - start)) := by
    have toNodeEnd : sub64 (start + node.dataLength) start = node.dataLength := by
      rw [sub64_of_le (by omega) fits]
      omega
    have toRangeEnd : sub64 endPos start = endPos - start :=
      sub64_of_le (by omega) bounded
    rw [toNodeEnd, toRangeEnd]
    split
    · rw [sub64_of_le (by omega) (by omega)]
      omega
    · rw [sub64_of_le (by omega) (by omega)]
      omega
  intro offset copyLength
  have copyLengthEq : copyLength =
      min (endPos - max pos start) (node.bytes.length - (pos - start)) := by
    simp only [copyLength, offset, offsetEq, copyEq]
  have segmentLength : (segment pos endPos start node.bytes).length = copyLength := by
    simp only [segment, List.length_take, List.length_drop, copyLengthEq]
  refine ⟨?_, segmentLength.symm⟩
  have offsetIs : offset = pos - start := offsetEq
  rw [node.take_drop_getData (by omega), segment, offsetIs, copyLengthEq]
  rw [← List.length_drop, ← List.take_eq_take_min]

/-- The copy loop appends exactly the bytes of the nodes in the range. -/
theorem getDataLoop_eq {pos endPos : Nat} (ordered : pos < endPos) (bounded : endPos < 2 ^ 64)
    (nodes : List CBuffer) (valid : ∀ node ∈ nodes, node.Valid) (start realLength : Nat)
    (data : List UInt8) (before : start < endPos) (noWrap : NoWrap start endPos nodes)
    (room : realLength + (endPos - max pos start) < 2 ^ 64) :
    getDataLoop pos endPos nodes start start realLength data =
      (realLength + (segment pos endPos start (flatten nodes)).length,
        data ++ segment pos endPos start (flatten nodes)) := by
  induction nodes generalizing start realLength data with
  | nil => simp [getDataLoop, segment]
  | cons node rest inductionHypothesis =>
      have nodeValid := valid node List.mem_cons_self
      have restValid : ∀ other ∈ rest, other.Valid :=
        fun other member => valid other (List.mem_cons_of_mem _ member)
      have lengthEq := nodeValid.length_bytes
      have fits := noWrap.head before nodeValid
      have restNoWrap := noWrap.tail nodeValid
      have segmentBound := length_segment_le pos endPos start node.bytes
      rw [getDataLoop, wrap64_of_lt fits, flatten_cons, segment_append, lengthEq]
      by_cases reaches : pos < start + node.dataLength
      · obtain ⟨copied, copyLength⟩ :=
          copy_node nodeValid before ordered bounded fits reaches
        simp only [gt_iff_lt, if_pos reaches] at copied copyLength ⊢
        rw [copied, copyLength, wrap64_of_lt (by omega)]
        split
        · have done : segment pos endPos (start + node.dataLength) (flatten rest) = [] := by
            have none : endPos - max pos (start + node.dataLength) = 0 := by omega
            rw [segment, none, List.take_zero]
          simp only [done, List.append_nil]
        · have nodeLength : (segment pos endPos start node.bytes).length =
              start + node.dataLength - max pos start := by
            simp only [segment, List.length_take, List.length_drop]
            omega
          rw [inductionHypothesis restValid _ _ _ (by omega) restNoWrap (by omega)]
          simp only [List.length_append, Nat.add_assoc, List.append_assoc]
      · have skipped : segment pos endPos start node.bytes = [] := by
          rw [segment, List.drop_eq_nil_of_le (by omega), List.take_nil]
        have unfinished : ¬ endPos ≤ start + node.dataLength := by omega
        simp only [gt_iff_lt, if_neg reaches, if_neg unfinished, skipped, List.nil_append]
        exact inductionHypothesis restValid _ _ _ (by omega) restNoWrap (by omega)

/-- When the end of the range wrapped below every position of interest, the
loop stops before it reaches `pos` and copies nothing. -/
theorem getDataLoop_wrapped {pos endPos : Nat} (apart : endPos + 2 ^ 63 ≤ pos)
    (nodes : List CBuffer) (valid : ∀ node ∈ nodes, node.Valid) (start realLength : Nat)
    (data : List UInt8) (before : start ≤ endPos) (bounded : endPos ≤ 2 ^ 63) :
    getDataLoop pos endPos nodes start start realLength data = (realLength, data) := by
  induction nodes generalizing start with
  | nil => rfl
  | cons node rest inductionHypothesis =>
      have nodeBound := (valid node List.mem_cons_self).dataLength_lt
      have fits : start + node.dataLength < 2 ^ 64 := by omega
      have short : ¬ pos < start + node.dataLength := by omega
      rw [getDataLoop, wrap64_of_lt fits]
      simp only [gt_iff_lt, if_neg short]
      split
      · rfl
      · exact inductionHypothesis
          (fun other member => valid other (List.mem_cons_of_mem _ member)) _ (by omega)

/-- A copy that starts below the byte count yields the bytes of the range. -/
theorem getData_eq {buffers : CBuffers} {pos length : Nat}
    (valid : ∀ node ∈ buffers.nodes, node.Valid)
    (noWrap : NoWrap 0 (pos + length) buffers.nodes) (bounded : pos + length < 2 ^ 64)
    (starts : pos < buffers.dataLength) :
    buffers.getData pos length false =
      (((buffers.bytes.drop pos).take length).length, (buffers.bytes.drop pos).take length) := by
  rcases Nat.eq_zero_or_pos length with rfl | positive
  · simp [getData]
  · have ranged : ¬ (pos ≥ buffers.dataLength ∨ length = 0 ∨ false = true) := by
      simp only [Bool.false_eq_true, or_false]
      omega
    have whole : segment pos (pos + length) 0 (flatten buffers.nodes) =
        (buffers.bytes.drop pos).take length := by
      have width : pos + length - max pos 0 = length := by omega
      rw [segment, width, Nat.sub_zero, bytes]
    rw [getData, if_neg ranged, wrap64_of_lt bounded,
      getDataLoop_eq (by omega) bounded buffers.nodes valid 0 0 [] (by omega) noWrap (by omega),
      whole, Nat.zero_add, List.nil_append]

/-! ## Erasing a prefix -/

theorem eraseFrontLoop_spec {count : Nat} (nodes : List CBuffer)
    (valid : ∀ node ∈ nodes, node.Valid) (start : Nat) (before : start ≤ count)
    (noWrap : NoWrap start count nodes) :
    (∀ node ∈ (eraseFrontLoop count nodes start).1, node.Valid) ∧
      flatten (eraseFrontLoop count nodes start).1 = (flatten nodes).drop (count - start) ∧
      (eraseFrontLoop count nodes start).2 = min count (start + (flatten nodes).length) := by
  induction nodes generalizing start with
  | nil =>
      refine ⟨valid, ?_, ?_⟩
      · simp [eraseFrontLoop]
      · simp only [eraseFrontLoop, flatten_nil, List.length_nil]
        omega
  | cons node rest inductionHypothesis =>
      have nodeValid := valid node List.mem_cons_self
      have restValid : ∀ other ∈ rest, other.Valid :=
        fun other member => valid other (List.mem_cons_of_mem _ member)
      have lengthEq := nodeValid.length_bytes
      by_cases unfinished : start < count
      · have fits := noWrap.head unfinished nodeValid
        have remaining : sub64 count start = count - start ∨ 2 ^ 64 ≤ count := by
          by_cases bounded : count < 2 ^ 64
          · exact Or.inl (sub64_of_le before bounded)
          · exact Or.inr (by omega)
        simp only [eraseFrontLoop, if_pos unfinished, wrap64_of_lt fits, gt_iff_lt]
        by_cases partially : count < start + node.dataLength
        · -- The prefix ends inside this node, which keeps its tail.
          have subEq : sub64 count start = count - start := by omega
          rw [if_pos partially, subEq]
          refine ⟨?_, ?_, ?_⟩
          · intro other member
            rcases List.mem_cons.mp member with rfl | member
            · exact nodeValid.eraseFront_valid _
            · exact restValid other member
          · have noneOfRest : count - start - node.bytes.length = 0 := by omega
            rw [flatten_cons, flatten_cons, nodeValid.bytes_eraseFront, List.drop_append,
              noneOfRest, List.drop_zero]
          · rw [flatten_cons, List.length_append, lengthEq]
            exact (Nat.min_eq_left (by omega)).symm
        · rw [if_neg partially]
          obtain ⟨leftValid, left, erased⟩ :=
            inductionHypothesis restValid _ (by omega) (noWrap.tail nodeValid)
          refine ⟨leftValid, ?_, ?_⟩
          · have wholeNode : node.bytes.drop (count - start) = [] :=
              List.drop_eq_nil_of_le (by omega)
            have beyond : count - start - node.bytes.length =
                count - (start + node.dataLength) := by omega
            rw [left, flatten_cons, List.drop_append, wholeNode, List.nil_append, beyond]
          · rw [erased, flatten_cons, List.length_append, lengthEq, Nat.add_assoc]
      · have finished : count - start = 0 := by omega
        simp only [eraseFrontLoop, if_neg unfinished, finished, List.drop_zero]
        exact ⟨valid, trivial, by omega⟩

/-- No node grows when a prefix is erased. -/
theorem dataLength_le_of_mem_eraseFrontLoop {count bound : Nat} (nodes : List CBuffer)
    (valid : ∀ node ∈ nodes, node.Valid) (small : ∀ node ∈ nodes, node.dataLength ≤ bound)
    (start : Nat) : ∀ node ∈ (eraseFrontLoop count nodes start).1, node.dataLength ≤ bound := by
  induction nodes generalizing start with
  | nil => exact small
  | cons node rest inductionHypothesis =>
      have nodeValid := valid node List.mem_cons_self
      have nodeSmall := small node List.mem_cons_self
      have restSmall : ∀ other ∈ rest, other.dataLength ≤ bound :=
        fun other member => small other (List.mem_cons_of_mem _ member)
      unfold eraseFrontLoop
      split
      · split
        · intro other member
          rcases List.mem_cons.mp member with rfl | member
          · rw [nodeValid.dataLength_eraseFront]
            omega
          · exact restSmall other member
        · exact inductionHypothesis
            (fun other member => valid other (List.mem_cons_of_mem _ member)) restSmall _
      · exact small

theorem dataLength_le_of_mem_eraseFront {buffers : CBuffers} {bound : Nat}
    (valid : ∀ node ∈ buffers.nodes, node.Valid)
    (small : ∀ node ∈ buffers.nodes, node.dataLength ≤ bound) (count : Nat) :
    ∀ node ∈ (buffers.eraseFront count).1.nodes, node.dataLength ≤ bound := by
  unfold eraseFront
  split
  · exact small
  · exact dataLength_le_of_mem_eraseFrontLoop buffers.nodes valid small 0

/-- Erasing all the bytes there are leaves no node unless the last one holds
none. -/
theorem eraseFrontLoop_eq_nil_iff {count : Nat} (bounded : count < 2 ^ 64) (nodes : List CBuffer)
    (valid : ∀ node ∈ nodes, node.Valid) (start : Nat) (unfinished : start < count)
    (whole : start + (flatten nodes).length = count) :
    (eraseFrontLoop count nodes start).1 = [] ↔
      ∀ last, nodes.getLast? = some last → last.dataLength ≠ 0 := by
  induction nodes generalizing start with
  | nil =>
      rw [flatten_nil, List.length_nil] at whole
      omega
  | cons node rest inductionHypothesis =>
      have lengthEq := (valid node List.mem_cons_self).length_bytes
      have restValid : ∀ other ∈ rest, other.Valid :=
        fun other member => valid other (List.mem_cons_of_mem _ member)
      rw [flatten_cons, List.length_append, lengthEq] at whole
      have noWrap : wrap64 (start + node.dataLength) = start + node.dataLength :=
        wrap64_of_lt (by omega)
      have fits : ¬ start + node.dataLength > count := by omega
      simp only [eraseFrontLoop, if_pos unfinished, noWrap, if_neg fits]
      cases rest with
      | nil =>
          rw [flatten_nil, List.length_nil] at whole
          refine iff_of_true rfl ?_
          intro last lastEq
          have same : node = last := Option.some.inj lastEq
          subst same
          omega
      | cons next others =>
          rw [List.getLast?_cons_cons]
          by_cases more : start + node.dataLength < count
          · exact inductionHypothesis restValid _ more (by omega)
          · refine iff_of_false ?_ ?_
            · simp only [eraseFrontLoop, if_neg more]
              exact List.cons_ne_nil _ _
            · -- Only empty nodes are behind the last byte.
              intro nonempty
              obtain ⟨last, lastEq⟩ := Option.ne_none_iff_exists'.mp
                (List.getLast?_eq_none_iff.not.mpr (List.cons_ne_nil next others))
              have member := List.mem_of_getLast? lastEq
              have inside : last.bytes.length ≤ (flatten (next :: others)).length :=
                (List.sublist_flatten_of_mem (List.mem_map_of_mem member)).length_le
              rw [(restValid last member).length_bytes] at inside
              exact nonempty last lastEq (by omega)

/-- `EraseFront` drops the prefix from the bytes of the nodes, whatever the
byte count says. -/
theorem eraseFront_spec {buffers : CBuffers} {count : Nat}
    (valid : ∀ node ∈ buffers.nodes, node.Valid) (noWrap : NoWrap 0 count buffers.nodes) :
    (∀ node ∈ (buffers.eraseFront count).1.nodes, node.Valid) ∧
      (buffers.eraseFront count).1.bytes = buffers.bytes.drop count ∧
      (buffers.eraseFront count).2 = min count buffers.bytes.length := by
  rcases Nat.eq_zero_or_pos count with rfl | positive
  · exact ⟨valid, rfl, by simp [eraseFront]⟩
  · obtain ⟨leftValid, left, erased⟩ :=
      eraseFrontLoop_spec buffers.nodes valid 0 (Nat.zero_le _) noWrap
    rw [eraseFront, if_neg (by omega)]
    refine ⟨leftValid, left, ?_⟩
    rw [erased, Nat.zero_add, bytes]

/-! ## The flat byte string -/

/-- The nodes are well formed and the byte count is exact. -/
structure Valid (buffers : CBuffers) : Prop where
  nodes_valid : ∀ node ∈ buffers.nodes, node.Valid
  counted : buffers.mDataLength = buffers.bytes.length
  bounded : buffers.bytes.length < 2 ^ 64

theorem new_valid : new.Valid :=
  ⟨by simp [new], rfl, by decide⟩

namespace Valid

variable {buffers : CBuffers}

theorem noWrap (valid : buffers.Valid) (limit : Nat) : NoWrap 0 limit buffers.nodes := by
  have bounded := valid.bounded
  left
  rw [Nat.zero_add]
  exact bounded

/-- The byte count is the sum over the nodes. -/
theorem dataLength_eq_sum (valid : buffers.Valid) :
    buffers.dataLength = (buffers.nodes.map CBuffer.dataLength).sum := by
  rw [dataLength, valid.counted, bytes, length_flatten _ valid.nodes_valid]

theorem getData (valid : buffers.Valid) {pos length : Nat} (bounded : pos + length < 2 ^ 64) :
    buffers.getData pos length false =
      (((buffers.bytes.drop pos).take length).length, (buffers.bytes.drop pos).take length) := by
  by_cases starts : pos < buffers.dataLength
  · exact getData_eq valid.nodes_valid (valid.noWrap _) bounded starts
  · have nothing : buffers.bytes.drop pos = [] := by
      have counted : buffers.dataLength = buffers.bytes.length := valid.counted
      exact List.drop_eq_nil_of_le (by omega)
    rw [CBuffers.getData, if_pos (Or.inl (by omega)), nothing, List.take_nil, List.length_nil]

/-- A range whose end wraps lies behind the data; nothing of it is copied. -/
theorem getData_wrapped (valid : buffers.Valid) {pos length : Nat} (wraps : 2 ^ 64 ≤ pos + length)
    (narrow : length ≤ 2 ^ 63) : buffers.getData pos length false = (0, []) := by
  have counted : buffers.dataLength = buffers.bytes.length := valid.counted
  have total := valid.bounded
  by_cases past : pos ≥ buffers.dataLength
  · rw [CBuffers.getData, if_pos (Or.inl past)]
  · have wrapped : wrap64 (pos + length) = pos + length - 2 ^ 64 := by
      unfold wrap64
      omega
    have ranged : ¬ (pos ≥ buffers.dataLength ∨ length = 0 ∨ false = true) := by
      simp only [Bool.false_eq_true, or_false]
      omega
    rw [CBuffers.getData, if_neg ranged, wrapped]
    exact getDataLoop_wrapped (by omega) buffers.nodes valid.nodes_valid 0 0 [] (Nat.zero_le _)
      (by omega)

theorem pushFront (valid : buffers.Valid) {node : CBuffer} (nodeValid : node.Valid)
    (room : buffers.bytes.length + node.bytes.length < 2 ^ 64) :
    (buffers.pushFront (some node)).Valid := by
  have lengthEq := nodeValid.length_bytes
  have counted := valid.counted
  have joined : (buffers.pushFront (some node)).bytes = node.bytes ++ buffers.bytes := rfl
  refine ⟨?_, ?_, ?_⟩
  · intro other member
    rcases List.mem_cons.mp member with rfl | member
    · exact nodeValid
    · exact valid.nodes_valid other member
  · rw [joined, List.length_append]
    change wrap64 (buffers.mDataLength + node.dataLength) = _
    rw [wrap64_of_lt (by omega)]
    omega
  · rw [joined, List.length_append]
    omega

theorem bytes_pushBack (buffers : CBuffers) (node : CBuffer) :
    (buffers.pushBack (some node)).bytes = buffers.bytes ++ node.bytes := by
  simp only [bytes, CBuffers.pushBack, flatten_append, flatten_cons, flatten_nil,
    List.append_nil]

theorem pushBack (valid : buffers.Valid) {node : CBuffer} (nodeValid : node.Valid)
    (room : buffers.bytes.length + node.bytes.length < 2 ^ 64) :
    (buffers.pushBack (some node)).Valid := by
  have lengthEq := nodeValid.length_bytes
  have counted := valid.counted
  have joined := bytes_pushBack buffers node
  refine ⟨?_, ?_, ?_⟩
  · intro other member
    rcases List.mem_append.mp member with member | member
    · exact valid.nodes_valid other member
    · rw [List.mem_singleton.mp member]
      exact nodeValid
  · rw [joined, List.length_append]
    change wrap64 (buffers.mDataLength + node.dataLength) = _
    rw [wrap64_of_lt (by omega)]
    omega
  · rw [joined, List.length_append]
    omega

theorem eraseFront (valid : buffers.Valid) (count : Nat) :
    (buffers.eraseFront count).1.Valid := by
  have counted := valid.counted
  have bounded := valid.bounded
  obtain ⟨leftValid, left, erased⟩ := eraseFront_spec valid.nodes_valid (valid.noWrap count)
  have leftLength := congrArg List.length left
  rw [List.length_drop] at leftLength
  refine ⟨leftValid, ?_, by omega⟩
  rw [leftLength]
  rcases Nat.eq_zero_or_pos count with rfl | positive
  · exact counted
  · have newCount : (buffers.eraseFront count).1.mDataLength =
        sub64 buffers.mDataLength (buffers.eraseFront count).2 := by
      simp only [CBuffers.eraseFront, if_neg (show ¬ count = 0 by omega)]
    rw [newCount, erased, counted, sub64_of_le (by omega) bounded]
    omega

end Valid

end CBuffers

end NginxFastcgi.Network
