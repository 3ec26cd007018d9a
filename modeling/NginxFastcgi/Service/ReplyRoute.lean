import NginxFastcgi.Foundation.Emission
import NginxFastcgi.Service.Dispatcher
import NginxFastcgi.Service.DispatcherChain

/-!
# The journey of one task

On its way out a task is handed from dispatcher to dispatcher.  A `CTaskPipe`
in between puts itself on the reply list and the task into its incoming pipe,
whose reader hands it on in the other pool.  The last dispatcher replies; every
`CTaskPipe` that the reply pops sends the task back through its return pipe.

A dispatcher of the chain does nothing but `m_successor->TaskNotify(data)`, and
the last one `data->ReplyNotify()`.  All calls are the last thing their caller
does, so a task that is not in a pipe is in one pending call.
-/

namespace NginxFastcgi.Service.ReplyRoute

open Foundation.Emission
open NginxFastcgi.Network
open NginxFastcgi.Service.DispatcherChain

/-! ## The calls -/

/-- The dispatchers of a reply list: the one that the task entered with, and
pipes. -/
inductive CReplyDispatcher
  | initial
  | taskPipe (pipe : ObjectId)
  deriving DecidableEq

/-- The two pipes of a `CTaskPipe`. -/
inductive Queue
  | incoming (pipe : ObjectId)
  | returning (pipe : ObjectId)
  deriving DecidableEq

/-- The call that a thread makes next for a task. -/
inductive Pending
  | taskNotify (dispatcher : ObjectId)
  /-- `CTaskReplyList::ReplyNotify`. -/
  | replyNotify
  deriving DecidableEq

inductive Place
  | running (thread : PoolId) (pending : Pending)
  | queued (queue : Queue)
  /-- Not entered yet, or answered. -/
  | nowhere
  deriving DecidableEq

inductive Call
  | taskNotify (dispatcher : ObjectId)
  /-- `ReplyNotify` of what was popped, `none` for `NULL`. -/
  | replyNotify (proc : Option CReplyDispatcher)
  /-- `TaskNotify` of a `CIncomingPipe` or a `CReturnPipe`. -/
  | read (queue : Queue)
  deriving DecidableEq

/-- A call and the thread it runs on, named by its pool. -/
structure Event where
  call : Call
  thread : PoolId
  deriving DecidableEq

structure Journey where
  place : Place
  replyList : CTaskReplyList CReplyDispatcher
  deriving DecidableEq

/-- `TaskNotify` of a dispatcher of the chain. -/
def dispatcherNotify (self : CTaskDispatcher) (thread : PoolId)
    (replyList : CTaskReplyList CReplyDispatcher) : Journey :=
  match self.mSuccessor with
  | some successor => ⟨.running thread (.taskNotify successor), replyList⟩
  | none => ⟨.running thread .replyNotify, replyList⟩

/-- `CTaskPipe::TaskNotify`. -/
def taskPipeNotify (pipe : ObjectId) (replyList : CTaskReplyList CReplyDispatcher) : Journey :=
  ⟨.queued (.incoming pipe), (replyList.pushReplyDispatcher (some (.taskPipe pipe))).2⟩

/-- `CTaskReplyList::ReplyNotify` with the `ReplyNotify` of what it pops. -/
def replyNotify (heap : Heap) (thread : PoolId) (replyList : CTaskReplyList CReplyDispatcher) :
    Option (Event × Journey) :=
  match replyList.popFront with
  | (none, rest) => some (⟨.replyNotify none, thread⟩, ⟨.nowhere, rest⟩)
  | (some .initial, rest) => some (⟨.replyNotify (some .initial), thread⟩, ⟨.nowhere, rest⟩)
  | (some (.taskPipe pipe), rest) =>
      match heap.objects pipe with
      | some (.taskPipe _) =>
          some (⟨.replyNotify (some (.taskPipe pipe)), thread⟩, ⟨.queued (.returning pipe), rest⟩)
      | _ => none

/-- `TaskNotify` of a pipe: the thread of its reader, and what it calls. -/
def readNotify (heap : Heap) : Queue → Option (PoolId × Pending)
  | .incoming pipe =>
      match heap.objects pipe with
      | some (.taskPipe self) =>
          self.mIncomingPipe.reader.bind fun thread =>
            self.mIncomingPipe.mSuccessor.map fun successor => (thread, .taskNotify successor)
      | _ => none
  | .returning pipe =>
      match heap.objects pipe with
      | some (.taskPipe self) => self.mReturnPipe.reader.map fun thread => (thread, .replyNotify)
      | _ => none

/-- The next call for a task. -/
def move (heap : Heap) : Machine Journey Event
  | ⟨.running thread (.taskNotify dispatcher), replyList⟩ =>
      match heap.objects dispatcher with
      | some (.dispatcher self) =>
          some (⟨.taskNotify dispatcher, thread⟩, dispatcherNotify self thread replyList)
      | some (.taskPipe _) =>
          some (⟨.taskNotify dispatcher, thread⟩, taskPipeNotify dispatcher replyList)
      | none => none
  | ⟨.running thread .replyNotify, replyList⟩ => replyNotify heap thread replyList
  | ⟨.queued queue, replyList⟩ =>
      (readNotify heap queue).map fun next =>
        (⟨.read queue, next.1⟩, ⟨.running next.1 next.2, replyList⟩)
  | ⟨.nowhere, _⟩ => none

/-! ## The route -/

/-- The pipe behind a dispatcher, if there is one. -/
def crossing (heap : Heap) (id : ObjectId) : List ObjectId :=
  match heap.objects id with
  | some (.dispatcher ⟨_, some next⟩) =>
      match heap.objects next with
      | some (.taskPipe _) => [next]
      | _ => []
  | _ => []

/-- The pipes that a request crosses, in this order. -/
def crossed (heap : Heap) (chain : List ObjectId) : List ObjectId :=
  chain.flatMap (crossing heap)

/-- The calls for a request: each dispatcher, and each pipe with its reader. -/
def requestCalls (heap : Heap) (chain : List ObjectId) : List Call :=
  chain.flatMap fun id => .taskNotify id ::
    (crossing heap id).flatMap fun pipe => [.taskNotify pipe, .read (.incoming pipe)]

/-- The calls for a reply that passes these pipes. -/
def replyCalls (pipes : List ObjectId) : List Call :=
  pipes.flatMap fun pipe => [.replyNotify (some (.taskPipe pipe)), .read (.returning pipe)]

/-- The calls for one task, from the head of the chain back to its initial reply
dispatcher. -/
def route (heap : Heap) (chain : List ObjectId) : List Call :=
  requestCalls heap chain ++ replyCalls (crossed heap chain).reverse ++
    [.replyNotify (some .initial)]

/-- The owner of a dispatcher. -/
def ownerOf (heap : Heap) (id : ObjectId) : Option PoolId :=
  (heap.objects id).bind fun object => object.base.mOwner

/-- What belongs to the pipe of this name. -/
def ofPipe (heap : Heap) (id : ObjectId) (part : CTaskPipe → Option PoolId) : Option PoolId :=
  match heap.objects id with
  | some (.taskPipe self) => part self
  | _ => none

/-- The pool on whose thread a call has to run, in a chain with this head. -/
def callThread (heap : Heap) (head : ObjectId) : Call → Option PoolId
  | .taskNotify dispatcher => ownerOf heap dispatcher
  | .replyNotify none => none
  | .replyNotify (some .initial) => ownerOf heap head
  | .replyNotify (some (.taskPipe pipe)) => ofPipe heap pipe fun self => self.mReturnPipe.writer
  | .read (.incoming pipe) => ofPipe heap pipe fun self => self.mIncomingPipe.reader
  | .read (.returning pipe) => ofPipe heap pipe fun self => self.mReturnPipe.reader

/-- The call runs on the thread of its pool. -/
def OnItsThread (heap : Heap) (head : ObjectId) (event : Event) : Prop :=
  callThread heap head event.call = some event.thread

/-! ## One task on its own -/

section Route

variable {owner : ObjectId → PoolId} {heap : Heap}

theorem ownerOf_stage {id : ObjectId} {successor : Option ObjectId}
    (present : heap.objects id = some (stage owner id successor)) :
    ownerOf heap id = some (owner id) := by
  rw [ownerOf, present]
  rfl

/-- A dispatcher without a successor replies. -/
theorem move_last {id : ObjectId} (present : heap.objects id = some (stage owner id none))
    (thread : PoolId) (replyList : CTaskReplyList CReplyDispatcher) :
    move heap ⟨.running thread (.taskNotify id), replyList⟩ =
      some (⟨.taskNotify id, thread⟩, ⟨.running thread .replyNotify, replyList⟩) := by
  simp only [move, present, stage]
  rfl

theorem move_forward {id next : ObjectId}
    (present : heap.objects id = some (stage owner id (some next))) (thread : PoolId)
    (replyList : CTaskReplyList CReplyDispatcher) :
    move heap ⟨.running thread (.taskNotify id), replyList⟩ =
      some (⟨.taskNotify id, thread⟩, ⟨.running thread (.taskNotify next), replyList⟩) := by
  simp only [move, present, stage]
  rfl

/-- The calls from a dispatcher through the pipe behind it. -/
def outward (owner : ObjectId → PoolId) (source pipe target : ObjectId) : List Event :=
  [⟨.taskNotify source, owner source⟩, ⟨.taskNotify pipe, owner source⟩,
    ⟨.read (.incoming pipe), owner target⟩]

/-- The calls for a reply that pops this pipe. -/
def inward (owner : ObjectId → PoolId) (source pipe target : ObjectId) : List Event :=
  [⟨.replyNotify (some (.taskPipe pipe)), owner target⟩, ⟨.read (.returning pipe), owner source⟩]

section Pipe

variable {source pipe target : ObjectId}
  (bound : heap.objects source = some (stage owner source (some pipe)))
  (piped : heap.objects pipe = some (.taskPipe (between owner source target)))

include bound piped in
/-- A task is sent through the incoming pipe to the dispatcher behind it. -/
theorem runs_outward (replyList : CTaskReplyList CReplyDispatcher) :
    Runs (move heap) ⟨.running (owner source) (.taskNotify source), replyList⟩
      (outward owner source pipe target)
      ⟨.running (owner target) (.taskNotify target), .taskPipe pipe :: replyList⟩ := by
  have pushed : move heap ⟨.running (owner source) (.taskNotify pipe), replyList⟩ =
      some (⟨.taskNotify pipe, owner source⟩,
        ⟨.queued (.incoming pipe), .taskPipe pipe :: replyList⟩) := by
    simp only [move, piped]
    rfl
  have read : move heap ⟨.queued (.incoming pipe), .taskPipe pipe :: replyList⟩ =
      some (⟨.read (.incoming pipe), owner target⟩,
        ⟨.running (owner target) (.taskNotify target), .taskPipe pipe :: replyList⟩) := by
    simp only [move, readNotify, piped, between, Option.bind_some, Option.map_some]
  apply Runs.head (move_forward bound _ _)
  apply Runs.head pushed
  exact .single read

include piped in
/-- A reply that pops the pipe is sent back through its return pipe. -/
theorem runs_inward (replyList : CTaskReplyList CReplyDispatcher) :
    Runs (move heap) ⟨.running (owner target) .replyNotify, .taskPipe pipe :: replyList⟩
      (inward owner source pipe target)
      ⟨.running (owner source) .replyNotify, replyList⟩ := by
  have pushed : move heap ⟨.running (owner target) .replyNotify, .taskPipe pipe :: replyList⟩ =
      some (⟨.replyNotify (some (.taskPipe pipe)), owner target⟩,
        ⟨.queued (.returning pipe), replyList⟩) := by
    simp only [move, replyNotify, CTaskReplyList.popFront, piped]
  have read : move heap ⟨.queued (.returning pipe), replyList⟩ =
      some (⟨.read (.returning pipe), owner source⟩,
        ⟨.running (owner source) .replyNotify, replyList⟩) := by
    simp only [move, readNotify, piped, between, Option.map_some]
  apply Runs.head pushed
  exact .single read

include piped in
theorem ofPipe_between (part : CTaskPipe → Option PoolId) :
    ofPipe heap pipe part = part (between owner source target) := by
  rw [ofPipe, piped]

include bound piped in
theorem outward_onThread (head : ObjectId) :
    ∀ event ∈ outward owner source pipe target, OnItsThread heap head event := by
  have ownsPipe : ownerOf heap pipe = some (owner source) := by
    rw [ownerOf, piped]
    rfl
  simp only [outward, List.forall_mem_cons, OnItsThread, callThread]
  exact ⟨ownerOf_stage bound, ownsPipe, ofPipe_between piped _, List.forall_mem_nil _⟩

include piped in
theorem inward_onThread (head : ObjectId) :
    ∀ event ∈ inward owner source pipe target, OnItsThread heap head event := by
  simp only [inward, List.forall_mem_cons, OnItsThread, callThread]
  exact ⟨ofPipe_between piped _, ofPipe_between piped _, List.forall_mem_nil _⟩

end Pipe

theorem crossing_last {id : ObjectId} (present : heap.objects id = some (stage owner id none)) :
    crossing heap id = [] := by
  simp only [crossing, present, stage]

/-- No pipe is crossed between dispatchers that are bound directly. -/
theorem crossing_direct {id next : ObjectId} {last : Option ObjectId}
    (bound : heap.objects id = some (stage owner id (some next)))
    (staged : heap.objects next = some (stage owner next last)) : crossing heap id = [] := by
  simp only [crossing, bound, staged, stage]

theorem crossing_across {id pipe : ObjectId} {self : CTaskPipe}
    (bound : heap.objects id = some (stage owner id (some pipe)))
    (piped : heap.objects pipe = some (.taskPipe self)) : crossing heap id = [pipe] := by
  simp only [crossing, bound, piped, stage]

theorem requestCalls_cons (heap : Heap) (id : ObjectId) (rest : List ObjectId) :
    requestCalls heap (id :: rest) =
      .taskNotify id :: ((crossing heap id).flatMap fun pipe =>
        [.taskNotify pipe, .read (.incoming pipe)]) ++ requestCalls heap rest :=
  List.flatMap_cons

theorem crossed_cons (heap : Heap) (id : ObjectId) (rest : List ObjectId) :
    crossed heap (id :: rest) = crossing heap id ++ crossed heap rest :=
  List.flatMap_cons

theorem replyCalls_append (pipes more : List ObjectId) :
    replyCalls (pipes ++ more) = replyCalls pipes ++ replyCalls more :=
  List.flatMap_append

/-- A task handed to a dispatcher comes back to the thread of this dispatcher as
a reply, with the reply list that it had. -/
theorem runs_back (head : ObjectId) {rest : List ObjectId} :
    ∀ {id : ObjectId}, Chained owner heap (id :: rest) →
      ∀ replyList : CTaskReplyList CReplyDispatcher, ∃ requests replies : List Event,
        Runs (move heap) ⟨.running (owner id) (.taskNotify id), replyList⟩
          (requests ++ replies) ⟨.running (owner id) .replyNotify, replyList⟩ ∧
        requests.map Event.call = requestCalls heap (id :: rest) ∧
        replies.map Event.call = replyCalls (crossed heap (id :: rest)).reverse ∧
        ∀ event ∈ requests ++ replies, OnItsThread heap head event := by
  induction rest with
  | nil =>
      intro id chained replyList
      refine ⟨[⟨.taskNotify id, owner id⟩], [], .single (move_last chained _ _), ?_, ?_, ?_⟩
      · simp only [requestCalls, List.flatMap_cons, List.flatMap_nil, crossing_last chained,
          List.map_cons, List.map_nil, List.append_nil]
      · simp only [crossed, List.flatMap_cons, List.flatMap_nil, crossing_last chained,
          List.append_nil, List.reverse_nil, List.map_nil, replyCalls]
      · intro event member
        rw [List.append_nil] at member
        rw [List.mem_singleton.mp member]
        exact ownerOf_stage chained
  | cons successor rest inductionHypothesis =>
      intro id chained replyList
      obtain ⟨last, staged⟩ := chained.2.staged
      cases chained.1 with
      | direct same bound =>
          obtain ⟨requests, replies, runs, requestsEq, repliesEq, threads⟩ :=
            inductionHypothesis chained.2 replyList
          have crosses := crossing_direct bound staged
          refine ⟨⟨.taskNotify id, owner id⟩ :: requests, replies, ?_, ?_, ?_, ?_⟩
          · rw [← same] at runs
            exact .head (move_forward bound _ _) runs
          · rw [requestCalls_cons, crosses, List.map_cons, requestsEq]
            rfl
          · rw [crossed_cons, crosses, List.nil_append, repliesEq]
          · intro event member
            rcases List.mem_cons.mp member with first | later
            · rw [first]
              exact ownerOf_stage bound
            · exact threads event later
      | across pipe different bound piped =>
          obtain ⟨requests, replies, runs, requestsEq, repliesEq, threads⟩ :=
            inductionHypothesis chained.2 (.taskPipe pipe :: replyList)
          have crosses := crossing_across bound piped
          refine ⟨outward owner id pipe successor ++ requests,
            replies ++ inward owner id pipe successor, ?_, ?_, ?_, ?_⟩
          · have whole := ((runs_outward bound piped replyList).trans runs).trans
              (runs_inward piped replyList)
            simp only [List.append_assoc] at whole ⊢
            exact whole
          · rw [requestCalls_cons, crosses, List.map_append, requestsEq]
            rfl
          · rw [crossed_cons, crosses, List.reverse_append, replyCalls_append, List.map_append,
              repliesEq]
            rfl
          · simp only [List.forall_mem_append] at threads ⊢
            exact ⟨⟨outward_onThread bound piped head, threads.1⟩, threads.2,
              inward_onThread piped head⟩

/-- A task that enters at the head of a chain takes the whole route. -/
theorem runs_route {head : ObjectId} {rest : List ObjectId}
    (chained : Chained owner heap (head :: rest)) :
    ∃ events : List Event,
      Runs (move heap) ⟨.running (owner head) (.taskNotify head), [.initial]⟩ events
        ⟨.nowhere, []⟩ ∧
      events.map Event.call = route heap (head :: rest) ∧
      ∀ event ∈ events, OnItsThread heap head event := by
  obtain ⟨requests, replies, runs, requestsEq, repliesEq, threads⟩ :=
    runs_back head chained [.initial]
  obtain ⟨successor, staged⟩ := chained.staged
  let answer : Event := ⟨.replyNotify (some .initial), owner head⟩
  have answered : Runs (move heap) ⟨.running (owner head) .replyNotify, [.initial]⟩ [answer]
      ⟨.nowhere, []⟩ := .single rfl
  refine ⟨requests ++ replies ++ [answer], runs.trans answered, ?_, ?_⟩
  · rw [List.map_append, List.map_append, requestsEq, repliesEq]
    rfl
  · intro event member
    rcases List.mem_append.mp member with before | last
    · exact threads event before
    · rw [List.mem_singleton.mp last]
      exact ownerOf_stage staged

end Route

end NginxFastcgi.Service.ReplyRoute
