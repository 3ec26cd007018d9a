import Mathlib.Logic.Function.Basic
import NginxFastcgi.Network.PollUnit

/-!
# Chains of dispatchers

`BindDispatcher` makes one dispatcher the successor of another.  Dispatchers of
two pools are bound through a new `CTaskPipe`, which belongs to the pool of the
first one, so that its own binding takes the other branch.

Only the ends of the pipes matter here.  `pipe` and the two calls of
`AttachUnit` succeed.
-/

namespace NginxFastcgi.Service.DispatcherChain

open NginxFastcgi.Network

/-- The identity of a `CTaskDispatcher`. -/
abbrev ObjectId := Nat

/-! ## Objects -/

/-- The pools of the two ends of a `CPipeQueue`, `none` before `AttachPool`. -/
structure PipeEnds where
  reader : Option PoolId := none
  writer : Option PoolId := none

/-- `CPipeQueue::AttachPool`; the result `none` is a call through a null
pool. -/
def PipeEnds.attachPool (source target : Option PoolId) : Option PipeEnds :=
  if source.isSome ∧ target.isSome then
    some { reader := target, writer := source }
  else
    none

structure CTaskDispatcher where
  /-- `none` is `NULL`. -/
  mOwner : Option PoolId := none
  mSuccessor : Option ObjectId := none

structure CIncomingPipe extends PipeEnds where
  mSuccessor : Option ObjectId := none

structure CTaskPipe extends CTaskDispatcher where
  mIncomingPipe : CIncomingPipe := {}
  mReturnPipe : PipeEnds := {}

inductive Object
  | dispatcher (self : CTaskDispatcher)
  | taskPipe (self : CTaskPipe)

def Object.base : Object → CTaskDispatcher
  | .dispatcher self => self
  | .taskPipe self => self.toCTaskDispatcher

def Object.setSuccessor (successor : ObjectId) : Object → Object
  | .dispatcher self => .dispatcher { self with mSuccessor := some successor }
  | .taskPipe self => .taskPipe { self with mSuccessor := some successor }

structure Heap where
  objects : ObjectId → Option Object
  /-- The next object that is constructed. -/
  next : ObjectId

def Heap.set (heap : Heap) (id : ObjectId) (object : Object) : Heap :=
  { heap with objects := Function.update heap.objects id (some object) }

/-! ## Binding -/

/-- `CTaskPipe::BindDispatcher`, which binds the first dispatcher to the pipe by
its own `BindDispatcher`. -/
def CTaskPipe.bindDispatcher (bind : Heap → ObjectId → ObjectId → Option Heap) (heap : Heap)
    (id source target : ObjectId) : Option Heap :=
  match heap.objects id, heap.objects source, heap.objects target with
  | some (.taskPipe self), some sourceObject, some targetObject =>
      let sourceOwner := sourceObject.base.mOwner
      let targetOwner := targetObject.base.mOwner
      (PipeEnds.attachPool sourceOwner targetOwner).bind fun incoming =>
        (PipeEnds.attachPool targetOwner sourceOwner).bind fun returning =>
          let attached : CTaskPipe := { self with
            mOwner := sourceOwner
            mIncomingPipe := { self.mIncomingPipe with toPipeEnds := incoming }
            mReturnPipe := returning }
          (bind (heap.set id (.taskPipe attached)) source id).bind fun bound =>
            match bound.objects id with
            | some (.taskPipe self) =>
                some (bound.set id (.taskPipe { self with
                  mIncomingPipe := { self.mIncomingPipe with mSuccessor := some target } }))
            | _ => none
  | _, _, _ => none

/-- `CTaskDispatcher::BindDispatcher`, with so many nested calls at most. -/
def bindDispatcher : Nat → Heap → ObjectId → ObjectId → Option Heap
  | 0, _, _, _ => none
  | calls + 1, heap, id, successor =>
      match heap.objects id, heap.objects successor with
      | some self, some other =>
          if self.base.mOwner = other.base.mOwner then
            some (heap.set id (self.setSuccessor successor))
          else
            let constructed := { heap.set heap.next (.taskPipe {}) with next := heap.next + 1 }
            CTaskPipe.bindDispatcher (bindDispatcher calls) constructed heap.next id successor
      | _, _ => none

/-- The calls of `BindDispatcher` for these pairs, one after the other. -/
def bindAll (calls : Nat) (links : List (ObjectId × ObjectId)) (heap : Heap) : Option Heap :=
  links.foldlM (fun heap link => bindDispatcher calls heap link.1 link.2) heap

/-! ## What binding leaves -/

section Binding

variable {owner : ObjectId → PoolId} {heap : Heap} {id successor : ObjectId}

/-- A dispatcher that was constructed with its pool. -/
def stage (owner : ObjectId → PoolId) (id : ObjectId) (successor : Option ObjectId) : Object :=
  .dispatcher { mOwner := some (owner id), mSuccessor := successor }

/-- The pipe from one dispatcher to another. -/
def between (owner : ObjectId → PoolId) (source target : ObjectId) : CTaskPipe where
  mOwner := some (owner source)
  mIncomingPipe :=
    { reader := some (owner target), writer := some (owner source), mSuccessor := some target }
  mReturnPipe := { reader := some (owner source), writer := some (owner target) }

/-- Dispatchers of one pool are bound directly. -/
theorem bindDispatcher_direct (calls : Nat) {self other : Object}
    (present : heap.objects id = some self) (otherPresent : heap.objects successor = some other)
    (same : self.base.mOwner = other.base.mOwner) :
    bindDispatcher (calls + 1) heap id successor =
      some (heap.set id (self.setSuccessor successor)) := by
  simp only [bindDispatcher, present, otherPresent, if_pos same]

/-- A new pipe puts itself between two dispatchers.  It has the owner of the first one by
the time that it is bound to it. -/
theorem taskPipe_bindDispatcher (calls : Nat) {pipe : ObjectId} {last otherLast : Option ObjectId}
    (present : heap.objects id = some (stage owner id last))
    (otherPresent : heap.objects successor = some (stage owner successor otherLast))
    (pipePresent : heap.objects pipe = some (.taskPipe {})) (apart : id ≠ pipe) :
    CTaskPipe.bindDispatcher (bindDispatcher (calls + 1)) heap pipe id successor =
      some ((heap.set id (stage owner id (some pipe))).set pipe
        (.taskPipe (between owner id successor))) := by
  let self : CTaskPipe := { between owner id successor with
    mIncomingPipe := { reader := some (owner successor), writer := some (owner id) } }
  let attached : Heap := heap.set pipe (.taskPipe self)
  have idAttached : attached.objects id = some (stage owner id last) :=
    (Function.update_of_ne apart _ _).trans present
  have selfAttached : attached.objects pipe = some (.taskPipe self) :=
    Function.update_self _ _ _
  have nested : bindDispatcher (calls + 1) attached id pipe =
      some (attached.set id (stage owner id (some pipe))) :=
    bindDispatcher_direct calls idAttached selfAttached rfl
  have stillThere : (attached.set id (stage owner id (some pipe))).objects pipe =
      some (.taskPipe self) :=
    (Function.update_of_ne apart.symm _ _).trans selfAttached
  rw [CTaskPipe.bindDispatcher]
  simp only [present, otherPresent, pipePresent]
  change (bindDispatcher (calls + 1) attached id pipe).bind _ = _
  rw [nested, Option.bind_some]
  simp only [stillThere]
  apply congrArg some
  apply congrArg fun objects => Heap.mk objects heap.next
  change Function.update (Function.update (Function.update heap.objects pipe _) id _) pipe _ = _
  rw [Function.update_comm apart, Function.update_idem, Function.update_comm apart.symm]
  rfl

/-- Dispatchers of two pools are bound through a new pipe. -/
theorem bindDispatcher_across (calls : Nat) {last otherLast : Option ObjectId}
    (present : heap.objects id = some (stage owner id last))
    (otherPresent : heap.objects successor = some (stage owner successor otherLast))
    (unused : heap.objects heap.next = none) (different : owner id ≠ owner successor) :
    bindDispatcher (calls + 2) heap id successor =
      some
        { objects := Function.update
            (Function.update heap.objects heap.next
              (some (.taskPipe (between owner id successor))))
            id (some (stage owner id (some heap.next)))
          next := heap.next + 1 } := by
  have idOld : id ≠ heap.next := by
    rintro rfl
    rw [unused] at present
    contradiction
  have successorOld : successor ≠ heap.next := by
    rintro rfl
    rw [unused] at otherPresent
    contradiction
  have apart : ¬ (stage owner id last).base.mOwner =
      (stage owner successor otherLast).base.mOwner :=
    fun same => different (Option.some.inj same)
  let constructed : Heap := { heap.set heap.next (.taskPipe {}) with next := heap.next + 1 }
  have idThere : constructed.objects id = some (stage owner id last) :=
    (Function.update_of_ne idOld _ _).trans present
  have successorThere : constructed.objects successor = some (stage owner successor otherLast) :=
    (Function.update_of_ne successorOld _ _).trans otherPresent
  have pipeThere : constructed.objects heap.next = some (.taskPipe {}) :=
    Function.update_self _ _ _
  have outer : bindDispatcher (calls + 2) heap id successor =
      CTaskPipe.bindDispatcher (bindDispatcher (calls + 1)) constructed heap.next id
        successor := by
    rw [bindDispatcher]
    simp only [present, otherPresent, if_neg apart]
    rfl
  rw [outer, taskPipe_bindDispatcher calls idThere successorThere pipeThere idOld]
  apply congrArg some
  apply congrArg fun objects => Heap.mk objects (heap.next + 1)
  change Function.update (Function.update (Function.update heap.objects heap.next _) id _)
    heap.next _ = _
  rw [Function.update_comm idOld, Function.update_idem]

/-- The second dispatcher is the successor of the first, through a pipe unless
they have one pool. -/
inductive Link (owner : ObjectId → PoolId) (heap : Heap) (id successor : ObjectId) : Prop
  | direct (same : owner id = owner successor)
      (bound : heap.objects id = some (stage owner id (some successor)))
  | across (pipe : ObjectId) (different : owner id ≠ owner successor)
      (bound : heap.objects id = some (stage owner id (some pipe)))
      (piped : heap.objects pipe = some (.taskPipe (between owner id successor)))

/-- A link stays while the objects that are there stay, except for another
dispatcher. -/
theorem Link.frame {after : Heap} {other : ObjectId} {last : Option ObjectId}
    (link : Link owner heap id successor) (different : id ≠ other)
    (present : heap.objects other = some (stage owner other last))
    (kept : ∀ there, there ≠ other → heap.objects there ≠ none →
      after.objects there = heap.objects there) : Link owner after id successor := by
  cases link with
  | direct same bound =>
      apply Link.direct same
      rw [kept id different (bound ▸ Option.some_ne_none _), bound]
  | across pipe apart bound piped =>
      have notOther : pipe ≠ other := by
        rintro rfl
        cases present.symm.trans piped
      apply Link.across pipe apart
      · rw [kept id different (bound ▸ Option.some_ne_none _), bound]
      · rw [kept pipe notOther (piped ▸ Option.some_ne_none _), piped]

/-- Binding two dispatchers links them and leaves every other object as it
was. -/
theorem bindDispatcher_spec {last otherLast : Option ObjectId}
    (present : heap.objects id = some (stage owner id last))
    (otherPresent : heap.objects successor = some (stage owner successor otherLast))
    (fresh : ∀ later, heap.next ≤ later → heap.objects later = none) :
    ∃ after, (∀ calls, bindDispatcher (calls + 2) heap id successor = some after) ∧
      Link owner after id successor ∧
      (∃ next, after.objects id = some (stage owner id (some next))) ∧
      (∀ other, other ≠ id → heap.objects other ≠ none →
        after.objects other = heap.objects other) ∧
      ∀ later, after.next ≤ later → after.objects later = none := by
  have idOld : ∀ later, heap.next ≤ later → later ≠ id := by
    rintro later beyond rfl
    rw [fresh later beyond] at present
    contradiction
  by_cases same : owner id = owner successor
  · have bound (calls : Nat) :=
      bindDispatcher_direct (calls + 1) present otherPresent (congrArg some same)
    refine ⟨_, bound, ?_, ?_, ?_, ?_⟩
    · exact .direct same (Function.update_self _ _ _)
    · exact ⟨successor, Function.update_self _ _ _⟩
    · exact fun other different _ => Function.update_of_ne different _ _
    · exact fun later beyond =>
        (Function.update_of_ne (idOld later beyond) _ _).trans (fresh later beyond)
  · have bound (calls : Nat) :=
      bindDispatcher_across calls present otherPresent (fresh _ (Nat.le_refl _)) same
    refine ⟨_, bound, ?_, ?_, ?_, ?_⟩
    · apply Link.across heap.next same (Function.update_self _ _ _)
      exact (Function.update_of_ne (idOld _ (Nat.le_refl _)) _ _).trans (Function.update_self _ _ _)
    · exact ⟨heap.next, Function.update_self _ _ _⟩
    · intro other different there
      have old : other ≠ heap.next := by
        rintro rfl
        exact there (fresh _ (Nat.le_refl _))
      exact (Function.update_of_ne different _ _).trans (Function.update_of_ne old _ _)
    · intro later beyond
      have old : heap.next ≤ later := Nat.le_of_succ_le beyond
      have different : later ≠ heap.next := Nat.ne_of_gt beyond
      exact (Function.update_of_ne (idOld later old) _ _).trans
        ((Function.update_of_ne different _ _).trans (fresh later old))

end Binding

/-! ## Chains -/

/-- The pairs of neighbours. -/
def links : List ObjectId → List (ObjectId × ObjectId)
  | id :: successor :: rest => (id, successor) :: links (successor :: rest)
  | _ => []

/-- Every dispatcher of the chain is linked to the next, and the last one has no
successor. -/
def Chained (owner : ObjectId → PoolId) (heap : Heap) : List ObjectId → Prop
  | [] => False
  | [last] => heap.objects last = some (stage owner last none)
  | id :: successor :: rest =>
      Link owner heap id successor ∧ Chained owner heap (successor :: rest)

/-- The dispatchers were constructed with their pools, and nothing is bound. -/
structure Constructed (owner : ObjectId → PoolId) (chain : List ObjectId) (heap : Heap) :
    Prop where
  staged : ∀ id ∈ chain, heap.objects id = some (stage owner id none)
  fresh : ∀ later, heap.next ≤ later → heap.objects later = none

/-- The chain after some of its bindings. -/
structure Bound (owner : ObjectId → PoolId) (chain : List ObjectId)
    (bound : List (ObjectId × ObjectId)) (heap : Heap) : Prop where
  staged : ∀ id ∈ chain, ∃ successor, heap.objects id = some (stage owner id successor)
  unbound : ∀ id ∈ chain, id ∉ bound.map Prod.fst → heap.objects id = some (stage owner id none)
  linked : ∀ link ∈ bound, Link owner heap link.1 link.2
  fresh : ∀ later, heap.next ≤ later → heap.objects later = none

section Chain

variable {owner : ObjectId → PoolId} {heap : Heap} {chain : List ObjectId}

theorem Chained.staged {id : ObjectId} {rest : List ObjectId}
    (chained : Chained owner heap (id :: rest)) :
    ∃ successor, heap.objects id = some (stage owner id successor) := by
  cases rest with
  | nil => exact ⟨none, chained⟩
  | cons successor rest =>
      cases chained.1 with
      | direct _ bound => exact ⟨some successor, bound⟩
      | across pipe _ bound _ => exact ⟨some pipe, bound⟩

theorem Constructed.bound (constructed : Constructed owner chain heap) :
    Bound owner chain [] heap where
  staged := fun id member => ⟨none, constructed.staged id member⟩
  unbound := fun id member _ => constructed.staged id member
  linked := fun _ member => absurd member List.not_mem_nil
  fresh := constructed.fresh

theorem Bound.bindDispatcher {bound : List (ObjectId × ObjectId)}
    (before : Bound owner chain bound heap) {link : ObjectId × ObjectId}
    (source : link.1 ∈ chain) (target : link.2 ∈ chain) (once : link.1 ∉ bound.map Prod.fst) :
    ∃ after, (∀ calls, bindDispatcher (calls + 2) heap link.1 link.2 = some after) ∧
      Bound owner chain (bound ++ [link]) after := by
  have present := before.unbound link.1 source once
  obtain ⟨otherLast, otherPresent⟩ := before.staged link.2 target
  obtain ⟨after, boundEq, linked, ⟨next, nowPresent⟩, kept, fresh⟩ :=
    bindDispatcher_spec present otherPresent before.fresh
  refine ⟨after, boundEq, ?_, ?_, ?_, fresh⟩
  · intro id member
    by_cases same : id = link.1
    · rw [same]
      exact ⟨some next, nowPresent⟩
    · obtain ⟨successor, there⟩ := before.staged id member
      exact ⟨successor, (kept id same (there ▸ Option.some_ne_none _)).trans there⟩
  · intro id member notBound
    rw [List.map_append, List.mem_append, not_or] at notBound
    have different : id ≠ link.1 := fun same => notBound.2 (List.mem_singleton.mpr same)
    have there := before.unbound id member notBound.1
    exact (kept id different (there ▸ Option.some_ne_none _)).trans there
  · intro other member
    rcases List.mem_append.mp member with old | new
    · have different : other.1 ≠ link.1 := by
        intro same
        exact once (same ▸ List.mem_map_of_mem old)
      exact (before.linked other old).frame different present kept
    · rw [List.mem_singleton.mp new]
      exact linked

theorem Bound.bindAll {bound todo : List (ObjectId × ObjectId)}
    (before : Bound owner chain bound heap)
    (inChain : ∀ link ∈ todo, link.1 ∈ chain ∧ link.2 ∈ chain)
    (once : ((bound ++ todo).map Prod.fst).Nodup) :
    ∃ after, (∀ calls, bindAll (calls + 2) todo heap = some after) ∧
      Bound owner chain (bound ++ todo) after := by
  induction todo generalizing bound heap with
  | nil => exact ⟨heap, fun _ => rfl, by rwa [List.append_nil]⟩
  | cons link todo inductionHypothesis =>
      obtain ⟨source, target⟩ := inChain link List.mem_cons_self
      have notYet : link.1 ∉ bound.map Prod.fst := by
        rw [List.map_append, List.map_cons] at once
        intro already
        exact (List.nodup_append.mp once).2.2 _ already _ List.mem_cons_self rfl
      obtain ⟨between, boundEq, kept⟩ := before.bindDispatcher source target notYet
      rw [List.append_cons] at once ⊢
      obtain ⟨after, rest, complete⟩ := inductionHypothesis kept
        (fun other member => inChain other (List.mem_cons_of_mem _ member)) once
      refine ⟨after, fun calls => ?_, complete⟩
      rw [DispatcherChain.bindAll, List.foldlM_cons, boundEq]
      exact rest calls

theorem fst_links : ∀ chain, (links chain).map Prod.fst = chain.dropLast
  | [] => rfl
  | [_] => rfl
  | _ :: successor :: rest => congrArg (_ :: ·) (fst_links (successor :: rest))

theorem mem_of_links {link : ObjectId × ObjectId} :
    ∀ {chain : List ObjectId}, link ∈ links chain → link.1 ∈ chain ∧ link.2 ∈ chain
  | id :: successor :: rest, member => by
      rcases List.mem_cons.mp member with same | later
      · rw [same]
        exact ⟨List.mem_cons_self, List.mem_cons_of_mem _ List.mem_cons_self⟩
      · obtain ⟨source, target⟩ := mem_of_links later
        exact ⟨List.mem_cons_of_mem _ source, List.mem_cons_of_mem _ target⟩

/-- Where all neighbours are linked and the last dispatcher is not bound, the
dispatchers form a chain. -/
theorem chained_of_links {last : ObjectId} :
    ∀ {chain : List ObjectId}, chain.getLast? = some last →
      (∀ link ∈ links chain, Link owner heap link.1 link.2) →
      heap.objects last = some (stage owner last none) → Chained owner heap chain
  | [_], ends, _, unbound => by
      cases ends
      exact unbound
  | id :: successor :: rest, ends, linked, unbound => by
      rw [List.getLast?_cons_cons] at ends
      exact ⟨linked (id, successor) List.mem_cons_self,
        chained_of_links ends (fun link member => linked link (List.mem_cons_of_mem _ member))
          unbound⟩

/-- However the neighbours are bound one after the other, the dispatchers form a
chain. -/
theorem bindAll_chained (constructed : Constructed owner chain heap) (distinct : chain.Nodup)
    (nonempty : chain ≠ []) {bound : List (ObjectId × ObjectId)} (all : bound.Perm (links chain)) :
    ∃ after, (∀ calls, bindAll (calls + 2) bound heap = some after) ∧
      Chained owner after chain := by
  have sources : (bound.map Prod.fst).Perm chain.dropLast := fst_links chain ▸ all.map Prod.fst
  have once : (bound.map Prod.fst).Nodup :=
    sources.nodup_iff.mpr (distinct.sublist (List.dropLast_sublist chain))
  obtain ⟨after, boundEq, complete⟩ := constructed.bound.bindAll
    (fun link member => mem_of_links (all.mem_iff.mp member)) once
  refine ⟨after, boundEq, ?_⟩
  apply chained_of_links (List.getLast?_eq_some_getLast nonempty)
  · exact fun link member => complete.linked link (all.mem_iff.mpr member)
  · apply complete.unbound _ (List.getLast_mem nonempty)
    intro source
    have notLast := distinct
    rw [← List.dropLast_concat_getLast nonempty] at notLast
    exact (List.nodup_append.mp notLast).2.2 _ (sources.mem_iff.mp source) _
      List.mem_cons_self rfl

end Chain

end NginxFastcgi.Service.DispatcherChain
