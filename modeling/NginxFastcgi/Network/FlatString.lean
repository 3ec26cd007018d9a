import NginxFastcgi.Network.Buffers

/-!
# `CBuffers` refines a flat byte string

The abstract state of a `CBuffers` is one byte string.  Each operation has a
reference meaning on that string, and a run applies an operation to the
concrete list and to the string side by side.  The relation between the two is
preserved by every operation, so all observations agree after any sequence of
operations.
-/

namespace NginxFastcgi.Network.FlatString

open Foundation.Transition

/-- One call on a `CBuffers`. -/
inductive Operation
  | pushFront (node : CBuffer)
  | pushBack (node : CBuffer)
  | eraseFront (count : Nat)
  | getData (pos length : Nat)
  | clear (clean : Bool)

namespace Operation

/-- What the call does to the list of nodes. -/
def run : Operation → CBuffers → CBuffers
  | pushFront node, buffers => buffers.pushFront (some node)
  | pushBack node, buffers => buffers.pushBack (some node)
  | eraseFront count, buffers => (buffers.eraseFront count).1
  | getData _ _, buffers => buffers
  | clear clean, buffers => buffers.clear clean

/-- What the call means for the byte string. -/
def reference : Operation → List UInt8 → List UInt8
  | pushFront node, flat => node.bytes ++ flat
  | pushBack node, flat => flat ++ node.bytes
  | eraseFront count, flat => flat.drop count
  | getData _ _, flat => flat
  | clear _, _ => []

/-- Pushed nodes are well formed and the total stays a 64-bit number. -/
def Allowed (flat : List UInt8) : Operation → Prop
  | pushFront node => node.Valid ∧ flat.length + node.bytes.length < 2 ^ 64
  | pushBack node => node.Valid ∧ flat.length + node.bytes.length < 2 ^ 64
  | _ => True

end Operation

/-- The concrete list and its reference string. -/
structure State where
  buffers : CBuffers
  flat : List UInt8

def State.initial : State :=
  ⟨CBuffers.new, []⟩

def step : Step State Operation :=
  fun state operation =>
    some ⟨operation.run state.buffers, operation.reference state.flat⟩

def allowed (state : State) (operation : Operation) : Prop :=
  operation.Allowed state.flat

/-- The refinement relation. -/
def Refines (state : State) : Prop :=
  state.buffers.Valid ∧ state.buffers.bytes = state.flat

theorem refines_run {state : State} (refines : Refines state) {operation : Operation}
    (permitted : allowed state operation) :
    Refines ⟨operation.run state.buffers, operation.reference state.flat⟩ := by
  obtain ⟨valid, same⟩ := refines
  cases operation with
  | pushFront node =>
      obtain ⟨nodeValid, room⟩ := permitted
      refine ⟨valid.pushFront nodeValid (by rw [same]; exact room), ?_⟩
      exact congrArg (node.bytes ++ ·) same
  | pushBack node =>
      obtain ⟨nodeValid, room⟩ := permitted
      refine ⟨valid.pushBack nodeValid (by rw [same]; exact room), ?_⟩
      exact (CBuffers.Valid.bytes_pushBack state.buffers node).trans
        (congrArg (· ++ node.bytes) same)
  | eraseFront count =>
      obtain ⟨_, left, _⟩ := CBuffers.eraseFront_spec valid.nodes_valid (valid.noWrap count)
      exact ⟨valid.eraseFront count, left.trans (congrArg (List.drop count) same)⟩
  | getData pos length => exact ⟨valid, same⟩
  | clear clean => exact ⟨CBuffers.new_valid, rfl⟩

theorem refines_of_reachable {state : State}
    (reachable : Reachable step allowed State.initial state) : Refines state := by
  refine reachable.invariant ⟨CBuffers.new_valid, rfl⟩ ?_
  intro before operation after refines permitted stepEq
  cases stepEq
  exact refines_run refines permitted

/-- After any sequence of operations the byte count, every range copied out and
every prefix erased are those of the flat string. -/
theorem buffers_refine_flat {state : State}
    (reachable : Reachable step allowed State.initial state) :
    state.buffers.bytes = state.flat ∧
      state.buffers.dataLength = (state.buffers.nodes.map CBuffer.dataLength).sum ∧
      state.buffers.dataLength = state.flat.length ∧
      (∀ pos length, pos + length < 2 ^ 64 →
        state.buffers.getData pos length false =
          (min (pos + length) state.flat.length - pos, (state.flat.drop pos).take length)) ∧
      ∀ count,
        (state.buffers.eraseFront count).2 = min count state.flat.length ∧
          (state.buffers.eraseFront count).1.bytes = state.flat.drop count := by
  obtain ⟨valid, same⟩ := refines_of_reachable reachable
  refine ⟨same, valid.dataLength_eq_sum, ?_, ?_, ?_⟩
  · rw [← same]
    exact valid.counted
  · intro pos length bounded
    rw [valid.getData bounded, same, List.length_take, List.length_drop]
    congr 1
    omega
  · intro count
    obtain ⟨_, left, erased⟩ := CBuffers.eraseFront_spec valid.nodes_valid (valid.noWrap count)
    rw [← same]
    exact ⟨erased, left⟩

/-- Two nodes, the first with its front erased and the second empty. -/
def fragmented : State :=
  let node := (CBuffer.new 4).setData [1, 2, 3, 4] 4
  ⟨((CBuffers.new.pushBack (some node)).eraseFront 1).1.pushBack (some (CBuffer.new 2)),
    [2, 3, 4]⟩

theorem fragmented_reachable : Reachable step allowed State.initial fragmented := by
  have nodeValid : ((CBuffer.new 4).setData [1, 2, 3, 4] 4).Valid :=
    CBuffer.setData_valid (CBuffer.new_valid (by decide)) (by decide) (by decide)
  have pushed : Reachable step allowed State.initial
      ⟨CBuffers.new.pushBack (some ((CBuffer.new 4).setData [1, 2, 3, 4] 4)), [1, 2, 3, 4]⟩ :=
    Reachable.refl.tail (.pushBack _) ⟨nodeValid, by decide⟩ rfl
  have erased := pushed.tail (.eraseFront 1) trivial rfl
  exact erased.tail (.pushBack (CBuffer.new 2)) ⟨CBuffer.new_valid (by decide), by decide⟩ rfl

/-- A range over the end of the data is cut there. -/
theorem fragmented_getData : fragmented.buffers.getData 1 5 false = (2, [3, 4]) :=
  (buffers_refine_flat fragmented_reachable).2.2.2.1 1 5 (by decide)

end NginxFastcgi.Network.FlatString
