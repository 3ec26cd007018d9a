import NginxFastcgi.Service.SendPath

/-!
# What a connection keeps beside the bytes it sends

`SendPacket` asks the pool for output and `OutputNotify` stops asking when the
list of nodes is empty.  A response with an empty body adds a node without
bytes, which the write of the last byte leaves in the list.

The byte count of the send buffers is kept by `PushBack` and `EraseFront`, but
`Encode` appends to the underlying list: the first response makes the count
wrong, and the first write takes it below zero.
-/

namespace NginxFastcgi.Service.SendPath

open Foundation.MachineInt
open Foundation.Transition
open NginxFastcgi.Network

/-! ## Write interest -/

/-- The pool is asked for output exactly while there is an unsent byte. -/
def InterestMatches (state : State) : Prop :=
  state.connection.registered.epollout = true ↔ state.connection.mSendBuffers.bytes ≠ []

/-- The last node, which is the body of the last response, holds no byte. -/
def EndsEmpty (buffers : CBuffers) : Prop :=
  ∃ last, buffers.nodes.getLast? = some last ∧ last.dataLength = 0

/-- `writev` does not take all the unsent bytes in front of an empty last
node. -/
def LeavesNoEmptyNode : State → Call → Prop
  | state, .outputNotify (.accepted count) =>
      ¬ (0 < state.connection.iovLength ∧ count = state.connection.mSendBuffers.bytes.length ∧
        EndsEmpty state.connection.mSendBuffers)
  | _, _ => True

theorem bytes_ne_nil_of_iovLength {state : State} (faithful : Faithful state)
    (offers : 0 < state.connection.iovLength) :
    state.connection.mSendBuffers.bytes ≠ [] := by
  intro nothing
  have taken := take_offered faithful.nodes_valid (Nat.le_refl state.connection.iovLength)
  have lengthEq := congrArg List.length taken
  rw [nothing, List.take_nil, List.length_take, length_offered faithful.nodes_valid,
    Nat.min_self, List.length_nil] at lengthEq
  omega

/-- An `OutputNotify` that has nothing to write stops asking for output only
where no node is left. -/
theorem interestMatches_finishOutput {state : State} (matched : InterestMatches state)
    {after : CConnection} {written : List UInt8}
    (finished : state.connection.finishOutput [] = some (.alive after written))
    (buffersEq : after.mSendBuffers = state.connection.mSendBuffers) (accepted : List UInt8) :
    InterestMatches { state with connection := after, accepted := accepted } := by
  have registered := CConnection.registered_finishOutput finished
  unfold InterestMatches at matched ⊢
  simp only
  rw [registered, buffersEq]
  split
  · rename_i nothing
    have noBytes : state.connection.mSendBuffers.bytes = [] := by
      rw [CBuffers.bytes, List.isEmpty_iff.mp nothing]
      rfl
    rw [noBytes]
    simp
  · exact matched

/-- Erasing leaves no node when it takes the last byte and no empty node comes
behind it. -/
theorem isEmpty_eraseFront_iff {buffers : CBuffers}
    (nodesValid : ∀ node ∈ buffers.nodes, node.Valid) {count : Nat} (positive : 1 ≤ count)
    (small : count ≤ 2 ^ 63) (held : count ≤ buffers.bytes.length) :
    (buffers.eraseFront count).1.nodes.isEmpty = true ↔
      count = buffers.bytes.length ∧ ¬ EndsEmpty buffers := by
  rw [List.isEmpty_iff]
  by_cases all : count = buffers.bytes.length
  · have emptied := CBuffers.eraseFrontLoop_eq_nil_iff (by omega : count < 2 ^ 64) buffers.nodes
      nodesValid 0 positive ((Nat.zero_add _).trans all.symm)
    have nodesEq : (buffers.eraseFront count).1.nodes =
        (CBuffers.eraseFrontLoop count buffers.nodes 0).1 := by
      rw [CBuffers.eraseFront, if_neg (by omega)]
    rw [nodesEq, emptied]
    constructor
    · intro holds
      refine ⟨all, ?_⟩
      rintro ⟨last, lastEq, noBytes⟩
      exact holds last lastEq noBytes
    · rintro ⟨-, notEnds⟩ last lastEq noBytes
      exact notEnds ⟨last, lastEq, noBytes⟩
  · refine iff_of_false (fun nothing => ?_) fun both => all both.1
    obtain ⟨-, left, -⟩ := CBuffers.eraseFront_spec nodesValid
      (Or.inr small : CBuffers.NoWrap 0 count buffers.nodes)
    rw [CBuffers.bytes, nothing] at left
    have none_left := List.drop_eq_nil_iff.mp left.symm
    omega

/-- A write that takes something keeps the interest exact unless it takes the
last byte in front of an empty node. -/
theorem interestMatches_accepted {state : State} (faithful : Faithful state)
    (matched : InterestMatches state) {count : Nat} (offers : 0 < state.connection.iovLength)
    (positive : 1 ≤ count) (within : count ≤ state.connection.iovLength)
    {after : CConnection} {written rest : List UInt8}
    (finished : CConnection.finishOutput
      { state.connection with
        mSendBuffers := (state.connection.mSendBuffers.eraseFront count).1 } written =
          some (.alive after rest))
    (buffersEq : after.mSendBuffers = (state.connection.mSendBuffers.eraseFront count).1)
    (accepted : List UInt8) :
    InterestMatches { state with connection := after, accepted := accepted } ↔
      ¬ (count = state.connection.mSendBuffers.bytes.length ∧
        EndsEmpty state.connection.mSendBuffers) := by
  have nodesValid : ∀ node ∈ state.connection.mSendBuffers.nodes, node.Valid :=
    fun node member => (faithful.nodes_valid node member).1
  have bounded := iovLength_le faithful.nodes_valid
  have held : count ≤ state.connection.mSendBuffers.bytes.length := by
    have prefixEq := congrArg List.length (take_offered faithful.nodes_valid within)
    rw [List.length_take, List.length_take, length_offered faithful.nodes_valid] at prefixEq
    omega
  obtain ⟨-, left, -⟩ := CBuffers.eraseFront_spec nodesValid
    (Or.inr (by omega) : CBuffers.NoWrap 0 count state.connection.mSendBuffers.nodes)
  have noneLeft : state.connection.mSendBuffers.bytes.drop count = [] ↔
      count = state.connection.mSendBuffers.bytes.length := by
    rw [List.drop_eq_nil_iff]
    omega
  have asked := matched.mpr (bytes_ne_nil_of_iovLength faithful offers)
  have noNodes := isEmpty_eraseFront_iff nodesValid positive (by omega) held
  have registered := CConnection.registered_finishOutput finished
  unfold InterestMatches
  simp only
  rw [registered, buffersEq, left, Ne, noneLeft]
  by_cases emptied : (state.connection.mSendBuffers.eraseFront count).1.nodes.isEmpty = true
  · obtain ⟨all, notEnds⟩ := noNodes.mp emptied
    rw [if_pos emptied]
    exact iff_of_true (iff_of_false Bool.false_ne_true (not_not_intro all))
      fun drains => notEnds drains.2
  · -- Nodes are left; the interest, which is kept, is wrong if no byte is.
    rw [if_neg emptied, iff_true_left asked]
    rw [noNodes, not_and_not_right] at emptied
    exact ⟨fun some_left drains => some_left drains.1, fun notDrained all =>
      notDrained ⟨all, emptied all⟩⟩

/-- A response leaves bytes to send and asks for output. -/
theorem interestMatches_sendPacket {state after : State} {packet : CResponsePacket}
    (faithful : Faithful state) (permitted : allowed state (.sendPacket packet))
    (stepEq : step state (.sendPacket packet) = some after) : InterestMatches after := by
  have bytesEq : after.connection.mSendBuffers.bytes =
      state.connection.mSendBuffers.bytes ++ packet.encoding := by
    cases stepEq
    rw [(CConnection.sendPacket_spec state.connection packet).1]
    exact CResponsePacket.bytes_encode permitted _
  have asked : after.connection.registered.epollout = true := by
    cases stepEq
    exact CConnection.registered_sendPacket faithful.attached packet
  refine iff_of_true asked fun nothing => ?_
  have headerEq := congrArg List.length (bytesEq.symm.trans nothing)
  rw [List.length_append, CResponsePacket.encoding, List.length_append,
    ProtocolHeader.length_toBytes, ProtocolHeader.size, List.length_nil] at headerEq
  omega

theorem interest_exact {state after : State} {call : Call} (faithful : Faithful state)
    (matched : InterestMatches state) (permitted : allowed state call)
    (stepEq : step state call = some after) :
    Faithful after ∧ (InterestMatches after ↔ LeavesNoEmptyNode state call) := by
  refine ⟨step_faithful faithful permitted stepEq, ?_⟩
  cases call with
  | sendPacket packet =>
      exact iff_of_true (interestMatches_sendPacket faithful permitted stepEq) trivial
  | outputNotify writev =>
      obtain ⟨outcome, notified, result⟩ := Option.bind_eq_some_iff.mp stepEq
      unfold CConnection.outputNotify at notified
      split at notified
      · rename_i offers
        cases writev with
        | accepted count =>
            obtain ⟨positive, within⟩ := permitted offers
            obtain ⟨next, finished, buffersEq, -⟩ := CConnection.finishOutput_spec
              { state.connection with
                mSendBuffers := (state.connection.mSendBuffers.eraseFront count).1 }
              faithful.attached (state.connection.offered.take count)
            cases finished.symm.trans notified
            cases result
            rw [interestMatches_accepted faithful matched offers positive within finished
              buffersEq, LeavesNoEmptyNode]
            exact not_congr (and_iff_right offers).symm
        | zero =>
            cases notified
            cases result
            exact iff_of_true matched trivial
        | retry =>
            cases notified
            cases result
            exact iff_of_true matched trivial
        | error => exact permitted.elim
      · rename_i nothing
        obtain ⟨next, finished, buffersEq, -⟩ :=
          state.connection.finishOutput_spec faithful.attached []
        cases finished.symm.trans notified
        cases result
        refine iff_of_true (interestMatches_finishOutput matched finished buffersEq _) ?_
        cases writev <;> first | exact trivial | exact fun drains => nothing drains.1

/-- The write interest is exact after every call exactly when no write takes the
last unsent byte in front of an empty body. -/
theorem interest_iff_leavesNoEmptyNode (fd : Int) (pool : PoolId) {calls : List Call}
    (permitted : EachStep step allowed calls (initial fd pool)) :
    Always step InterestMatches calls (initial fd pool) ↔
      EachStep step LeavesNoEmptyNode calls (initial fd pool) := by
  refine always_iff_eachStep (fun state call after faithful matched permitted stepEq =>
    interest_exact faithful matched permitted stepEq) (initial_faithful fd pool) ?_ permitted
  exact iff_of_false Bool.false_ne_true fun some_bytes => some_bytes rfl

/-- One response, written in one go. -/
def inOneGo (packet : CResponsePacket) (length : Nat) : List Call :=
  [.sendPacket packet, .outputNotify (.accepted length)]

theorem threeBytes_allowed : EachStep step allowed (inOneGo threeBytes 11) (initial 5 0) := by
  rintro after stepEq
  cases stepEq
  exact ⟨(by decide : threeBytes.Valid), fun _ _ => ⟨fun _ => by decide, trivial⟩⟩

theorem noBytes_allowed : EachStep step allowed (inOneGo noBytes 8) (initial 5 0) := by
  rintro after stepEq
  cases stepEq
  exact ⟨(by decide : noBytes.Valid), fun _ _ => ⟨fun _ => by decide, trivial⟩⟩

theorem interest_of_threeBytes :
    Always step InterestMatches (inOneGo threeBytes 11) (initial 5 0) := by
  refine (interest_iff_leavesNoEmptyNode 5 0 threeBytes_allowed).mpr ?_
  rintro after stepEq
  cases stepEq
  refine ⟨trivial, fun _ _ => ⟨?_, trivial⟩⟩
  rintro ⟨-, -, last, lastEq, noBytes⟩
  cases lastEq
  exact absurd noBytes (by decide)

/-- A response without a body is written in one go, and the pool is still asked
for output. -/
theorem interest_of_noBytes :
    EachStep step allowed (inOneGo noBytes 8) (initial 5 0) ∧
      ¬ Always step InterestMatches (inOneGo noBytes 8) (initial 5 0) := by
  refine ⟨noBytes_allowed, fun always => ?_⟩
  have executed : (execute step (inOneGo noBytes 8) (initial 5 0)).map (fun state =>
      (state.connection.registered.epollout, state.connection.mSendBuffers.bytes)) =
        some (true, []) := by
    decide +kernel
  obtain ⟨state, runs, observed⟩ := Option.map_eq_some_iff.mp executed
  obtain ⟨asked, nothing⟩ := Prod.mk.inj observed
  exact (always.after runs).mp asked nothing

/-! ## The byte count -/

/-- `DataLength()` is the sum over the nodes, which is the number of unsent
bytes. -/
def CountsUnsent (state : State) : Prop :=
  state.connection.mSendBuffers.dataLength =
      (state.connection.mSendBuffers.nodes.map CBuffer.dataLength).sum ∧
    state.connection.mSendBuffers.dataLength = state.connection.mSendBuffers.bytes.length

/-- The byte count is not taken below zero. -/
def NoUnderflow : State → Call → Prop
  | state, .outputNotify (.accepted count) =>
      0 < state.connection.iovLength →
        (state.connection.mSendBuffers.eraseFront count).2 ≤
          state.connection.mSendBuffers.dataLength
  | _, _ => True

/-- No response was sent yet. -/
structure Silent (state : State) : Prop where
  attached : state.connection.mOwner.isSome
  buffers : state.connection.mSendBuffers = CBuffers.new

theorem Silent.countsUnsent {state : State} (silent : Silent state) : CountsUnsent state := by
  unfold CountsUnsent
  rw [silent.buffers]
  exact ⟨rfl, rfl⟩

theorem Silent.iovLength {state : State} (silent : Silent state) :
    state.connection.iovLength = 0 := by
  rw [CConnection.iovLength, CConnection.gathered, silent.buffers]
  rfl

theorem Silent.outputNotify {state : State} (silent : Silent state) (writev : WritevResult) :
    ∃ after, step state (.outputNotify writev) = some after ∧ Silent after := by
  have nothing : ¬ state.connection.iovLength > 0 := by
    rw [silent.iovLength]
    exact Nat.lt_irrefl 0
  obtain ⟨next, finished, buffersEq, ownerEq⟩ :=
    state.connection.finishOutput_spec silent.attached []
  have notified : state.connection.outputNotify writev = some (.alive next []) := by
    unfold CConnection.outputNotify
    rw [if_neg nothing, finished]
  refine ⟨{ state with connection := next, accepted := state.accepted ++ [] }, ?_,
    ownerEq ▸ silent.attached, buffersEq.trans silent.buffers⟩
  rw [step, notified]
  rfl

/-- The first response is not counted. -/
theorem Silent.sendPacket {state after : State} {packet : CResponsePacket} (silent : Silent state)
    (valid : packet.Valid) (stepEq : step state (.sendPacket packet) = some after) :
    ¬ CountsUnsent after := by
  cases stepEq
  rintro ⟨-, counted⟩
  rw [CBuffers.dataLength, (CConnection.sendPacket_spec state.connection packet).1,
    silent.buffers] at counted
  change (0 : Nat) = (packet.encode CBuffers.new).1.bytes.length at counted
  rw [CResponsePacket.bytes_encode valid, List.length_append, CResponsePacket.encoding,
    List.length_append, ProtocolHeader.length_toBytes, ProtocolHeader.size] at counted
  omega

theorem counts_iff {calls : List Call} {state : State} (silent : Silent state)
    (permitted : EachStep step allowed calls state) :
    Always step CountsUnsent calls state ∧ EachStep step NoUnderflow calls state ↔
      ∀ packet, Call.sendPacket packet ∉ calls := by
  induction calls generalizing state with
  | nil => exact iff_of_true ⟨silent.countsUnsent, trivial⟩ fun _ => List.not_mem_nil
  | cons call calls inductionHypothesis =>
      cases call with
      | sendPacket packet =>
          refine iff_of_false ?_ fun none_sent => none_sent packet List.mem_cons_self
          rintro ⟨counts, -⟩
          obtain ⟨valid, -⟩ := permitted _ rfl
          exact silent.sendPacket valid rfl (counts.2 _ rfl).now
      | outputNotify writev =>
          have same : (∀ packet, Call.sendPacket packet ∉ .outputNotify writev :: calls) ↔
              ∀ packet, Call.sendPacket packet ∉ calls := by
            simp only [List.mem_cons, reduceCtorEq, false_or]
          have noUnderflow : NoUnderflow state (.outputNotify writev) := by
            cases writev with
            | accepted count =>
                intro offers
                rw [silent.iovLength] at offers
                exact absurd offers (Nat.lt_irrefl 0)
            | zero => trivial
            | retry => trivial
            | error => trivial
          obtain ⟨after, stepEq, silentAfter⟩ := silent.outputNotify writev
          have exactly := inductionHypothesis silentAfter (permitted after stepEq).2
          rw [same, ← exactly]
          constructor
          · rintro ⟨⟨-, counts⟩, steps⟩
            exact ⟨counts after stepEq, (steps after stepEq).2⟩
          · rintro ⟨counts, steps⟩
            refine ⟨⟨silent.countsUnsent, fun other otherEq => ?_⟩, fun other otherEq => ?_⟩
            · cases stepEq.symm.trans otherEq
              exact counts
            · cases stepEq.symm.trans otherEq
              exact ⟨noUnderflow, steps⟩

/-- The byte count is exact and never taken below zero exactly when no response
is sent. -/
theorem counts_iff_no_response (fd : Int) (pool : PoolId) {calls : List Call}
    (permitted : EachStep step allowed calls (initial fd pool)) :
    Always step CountsUnsent calls (initial fd pool) ∧
        EachStep step NoUnderflow calls (initial fd pool) ↔
      ∀ packet, Call.sendPacket packet ∉ calls :=
  counts_iff ⟨rfl, rfl⟩ permitted

/-- Without a response the count stays zero. -/
theorem counts_of_silence :
    Always step CountsUnsent [.outputNotify .retry] (initial 5 0) ∧
      EachStep step NoUnderflow [.outputNotify .retry] (initial 5 0) := by
  have permitted : EachStep step allowed [.outputNotify .retry] (initial 5 0) :=
    fun _ _ => ⟨trivial, trivial⟩
  exact (counts_iff_no_response 5 0 permitted).mpr (by simp)

/-- After one response and one write the count stands at `2 ^ 64 - 11` while no
byte is left. -/
theorem counts_below_zero :
    EachStep step allowed (inOneGo threeBytes 11) (initial 5 0) ∧
      ¬ (Always step CountsUnsent (inOneGo threeBytes 11) (initial 5 0) ∧
        EachStep step NoUnderflow (inOneGo threeBytes 11) (initial 5 0)) := by
  refine ⟨threeBytes_allowed, fun exactly => ?_⟩
  have executed : (execute step (inOneGo threeBytes 11) (initial 5 0)).map (fun state =>
      (state.connection.mSendBuffers.dataLength, state.connection.mSendBuffers.bytes)) =
        some (2 ^ 64 - 11, []) := by
    decide +kernel
  obtain ⟨state, runs, observed⟩ := Option.map_eq_some_iff.mp executed
  obtain ⟨counter, nothing⟩ := Prod.mk.inj observed
  obtain ⟨-, counted⟩ := exactly.1.after runs
  rw [counter, nothing] at counted
  exact absurd counted (by decide)

end NginxFastcgi.Service.SendPath
