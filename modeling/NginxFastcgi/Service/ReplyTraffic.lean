import NginxFastcgi.Foundation.Transition
import NginxFastcgi.Service.ReplyRoute

/-!
# Tasks on a chain of dispatchers

Any number of tasks are under way at once.  A thread makes one call after the
other and reads a pipe only when it is idle; a pipe hands its tasks on in the
order in which they were pushed.

The next call for a task depends on nothing but its own reply list and place,
so each task takes its route as if it were alone.
-/

namespace NginxFastcgi.Service.ReplyTraffic

open Foundation.Emission
open Foundation.Transition
open NginxFastcgi.Network
open NginxFastcgi.Service.DispatcherChain
open NginxFastcgi.Service.ReplyRoute

/-- The address of a task. -/
abbrev TaskId := Nat

/-! ## Steps -/

structure State where
  /-- The task a thread works for, with the call it makes next. -/
  running : PoolId → Option (TaskId × Pending) := fun _ => none
  /-- What is in the pipes, the oldest task first. -/
  queues : Queue → List TaskId := fun _ => []
  replyLists : TaskId → CTaskReplyList CReplyDispatcher := fun _ => []
  entered : List TaskId := []
  calls : List (TaskId × Event) := []

namespace State

/-- A thread ends its call, or a reader takes what is first in its pipe. -/
def take (state : State) : Place → State
  | .running thread _ => { state with running := Function.update state.running thread none }
  | .queued queue =>
      { state with queues := Function.update state.queues queue (state.queues queue).tail }
  | .nowhere => state

/-- An idle thread begins a call, or the task is pushed into a pipe. -/
def put (state : State) (task : TaskId) : Place → Option State
  | .running thread pending =>
      if (state.running thread).isSome then
        none
      else
        some { state with
          running := Function.update state.running thread (some (task, pending)) }
  | .queued queue =>
      some { state with
        queues := Function.update state.queues queue (state.queues queue ++ [task]) }
  | .nowhere => some state

/-- The next call for a task that is at this place. -/
def advance (heap : Heap) (state : State) (task : TaskId) (place : Place) : Option State :=
  (move heap ⟨place, state.replyLists task⟩).bind fun moved =>
    ((state.take place).put task moved.2.place).map fun after =>
      { after with
        replyLists := Function.update after.replyLists task moved.2.replyList
        calls := after.calls ++ [(task, moved.1)] }

/-- A task enters with its initial reply dispatcher, on the thread of the head of
the chain. -/
def enter (heap : Heap) (head : ObjectId) (state : State) (task : TaskId) : Option State :=
  if task ∈ state.entered then
    none
  else
    (ownerOf heap head).bind fun thread =>
      (state.put task (.running thread (.taskNotify head))).map fun after =>
        { after with
          replyLists := Function.update after.replyLists task
            (CTaskReplyList.pushReplyDispatcher [] (some .initial)).2
          entered := after.entered ++ [task] }

end State

inductive Label
  | enter (task : TaskId)
  /-- The thread makes its next call. -/
  | call (thread : PoolId)
  /-- The reader of the pipe takes the next task. -/
  | read (queue : Queue)

/-- No task enters. -/
def Label.Onward : Label → Prop
  | .enter _ => False
  | _ => True

def step (heap : Heap) (head : ObjectId) : Step State Label
  | state, .enter task => state.enter heap head task
  | state, .call thread =>
      (state.running thread).bind fun current =>
        state.advance heap current.1 (.running thread current.2)
  | state, .read queue =>
      (state.queues queue).head?.bind fun task => state.advance heap task (.queued queue)

/-- The calls for one task. -/
def callsOf (state : State) (task : TaskId) : List Event :=
  (state.calls.filter fun call => call.1 = task).map Prod.snd

/-- No thread has a call to make, and every pipe is empty. -/
def Settled (state : State) : Prop :=
  (∀ thread, state.running thread = none) ∧ ∀ queue, state.queues queue = []

/-! ## Where a task is -/

/-- The task is at this place and nowhere else. -/
structure TaskAt (state : State) (task : TaskId) (place : Place) : Prop where
  running : ∀ thread pending,
    state.running thread = some (task, pending) ↔ place = .running thread pending
  queued : ∀ queue, (state.queues queue).count task = if place = .queued queue then 1 else 0

/-- The task is the next one to be taken from this place. -/
def NextAt (state : State) (task : TaskId) : Place → Prop
  | .running thread pending => state.running thread = some (task, pending)
  | .queued queue => (state.queues queue).head? = some task
  | .nowhere => False

section Places

variable {state after : State} {task other : TaskId} {place : Place}

/-- A task that can be taken is where it is known to be. -/
theorem TaskAt.eq_of_nextAt {taken : Place} (there : TaskAt state task place)
    (next : NextAt state task taken) : place = taken := by
  cases taken with
  | running thread pending => exact (there.running thread pending).mp next
  | queued queue =>
      have member : task ∈ state.queues queue := List.mem_of_mem_head? next
      have counted := there.queued queue
      by_contra different
      rw [if_neg different] at counted
      exact List.count_eq_zero.mp counted member
  | nowhere => exact next.elim

/-- An update of one thread as another one sees it. -/
theorem running_update {thread : PoolId} {current : Option (TaskId × Pending)}
    (free : ∀ pending, current ≠ some (other, pending)) (otherThread : PoolId)
    (pending : Pending) :
    Function.update state.running thread current otherThread = some (other, pending) ↔
      otherThread ≠ thread ∧ state.running otherThread = some (other, pending) := by
  by_cases same : otherThread = thread
  · rw [same, Function.update_self]
    exact iff_of_false (free pending) fun both => both.1 rfl
  · rw [Function.update_of_ne same]
    exact ⟨fun runs => ⟨same, runs⟩, And.right⟩

theorem taskAt_take_self (there : TaskAt state task place) (next : NextAt state task place) :
    TaskAt (state.take place) task .nowhere := by
  cases place with
  | running thread pending =>
      constructor
      · intro otherThread otherPending
        refine (running_update (fun _ => (Option.some_ne_none _).symm) _ _).trans
          (iff_of_false ?_ nofun)
        rintro ⟨different, runs⟩
        cases (there.running otherThread otherPending).mp runs
        exact different rfl
      · exact there.queued
  | queued queue =>
      constructor
      · exact fun otherThread otherPending =>
          (there.running otherThread otherPending).trans (iff_of_false nofun nofun)
      · intro otherQueue
        obtain ⟨rest, queueEq⟩ := List.head?_eq_some_iff.mp next
        have counted := there.queued otherQueue
        simp only [State.take, reduceCtorEq, if_false]
        by_cases same : otherQueue = queue
        · subst same
          rw [Function.update_self, queueEq, List.tail_cons]
          rw [if_pos rfl, queueEq, List.count_cons_self] at counted
          omega
        · rw [Function.update_of_ne same, counted, if_neg]
          rintro ⟨⟩
          exact same rfl
  | nowhere => exact next.elim

theorem taskAt_take_other (different : other ≠ task) {elsewhere : Place}
    (there : TaskAt state other elsewhere) (next : NextAt state task place) :
    TaskAt (state.take place) other elsewhere := by
  cases place with
  | running thread pending =>
      constructor
      · intro otherThread otherPending
        refine (running_update (fun _ => (Option.some_ne_none _).symm) _ _).trans ?_
        rw [← there.running otherThread otherPending]
        refine and_iff_right_of_imp fun runs => ?_
        rintro rfl
        cases next.symm.trans runs
        exact different rfl
      · exact there.queued
  | queued queue =>
      constructor
      · exact there.running
      · intro otherQueue
        obtain ⟨rest, queueEq⟩ := List.head?_eq_some_iff.mp next
        rw [← there.queued otherQueue]
        by_cases same : otherQueue = queue
        · rw [same, queueEq, List.count_cons_of_ne different.symm]
          simp only [State.take, Function.update_self, queueEq, List.tail_cons]
        · simp only [State.take, Function.update_of_ne same]
  | nowhere => exact next.elim

theorem taskAt_put_self (there : TaskAt state task .nowhere)
    (putEq : state.put task place = some after) : TaskAt after task place := by
  cases place with
  | running thread pending =>
      simp only [State.put] at putEq
      split at putEq
      · contradiction
      cases putEq
      constructor
      · intro otherThread otherPending
        by_cases same : otherThread = thread
        · subst same
          change Function.update state.running otherThread (some (task, pending)) otherThread =
            some (task, otherPending) ↔ _
          rw [Function.update_self, Option.some.injEq, Prod.mk.injEq, Place.running.injEq]
          exact and_congr_left' (iff_of_true rfl rfl)
        · change Function.update state.running thread (some (task, pending)) otherThread =
            some (task, otherPending) ↔ _
          rw [Function.update_of_ne same, there.running]
          exact iff_of_false nofun fun placed => same (Place.running.inj placed).1.symm
      · exact there.queued
  | queued queue =>
      cases putEq
      constructor
      · exact fun otherThread otherPending =>
          (there.running otherThread otherPending).trans (iff_of_false nofun nofun)
      · intro otherQueue
        have counted := there.queued otherQueue
        rw [if_neg nofun] at counted
        by_cases same : otherQueue = queue
        · subst same
          simp only [Function.update_self, List.count_append, counted, List.count_singleton_self,
            if_true]
        · simp only [Function.update_of_ne same, counted]
          rw [if_neg]
          rintro ⟨⟩
          exact same rfl
  | nowhere =>
      cases putEq
      exact there

theorem taskAt_put_other (different : other ≠ task) {elsewhere : Place}
    (there : TaskAt state other elsewhere) (putEq : state.put task place = some after) :
    TaskAt after other elsewhere := by
  cases place with
  | running thread pending =>
      simp only [State.put] at putEq
      split at putEq
      · contradiction
      rename_i idle
      cases putEq
      constructor
      · intro otherThread otherPending
        have free : ∀ last, some (task, pending) ≠ some (other, last) := by
          rintro last ⟨⟩
          exact different rfl
        refine (running_update free _ _).trans ?_
        rw [← there.running otherThread otherPending]
        refine and_iff_right_of_imp fun runs => ?_
        rintro rfl
        exact idle (Option.isSome_of_eq_some runs)
      · exact there.queued
  | queued queue =>
      cases putEq
      constructor
      · exact there.running
      · intro otherQueue
        rw [← there.queued otherQueue]
        by_cases same : otherQueue = queue
        · rw [same]
          simp only [Function.update_self, List.count_append]
          rw [List.count_singleton, if_neg (by simpa using different.symm), Nat.add_zero]
        · simp only [Function.update_of_ne same]
  | nowhere =>
      cases putEq
      exact there

/-- What calls do not touch. -/
theorem put_frame (putEq : state.put task place = some after) :
    after.replyLists = state.replyLists ∧ after.entered = state.entered ∧
      after.calls = state.calls := by
  cases place with
  | running thread pending =>
      simp only [State.put] at putEq
      split at putEq
      · contradiction
      · cases putEq
        exact ⟨rfl, rfl, rfl⟩
  | queued queue =>
      cases putEq
      exact ⟨rfl, rfl, rfl⟩
  | nowhere =>
      cases putEq
      exact ⟨rfl, rfl, rfl⟩

theorem take_frame (state : State) (place : Place) :
    (state.take place).replyLists = state.replyLists ∧
      (state.take place).entered = state.entered ∧ (state.take place).calls = state.calls := by
  cases place <;> exact ⟨rfl, rfl, rfl⟩

end Places

/-! ## Every task on its route -/

section Steps

variable {heap : Heap} {head : ObjectId} {thread : PoolId} {state after : State}
  {task other : TaskId} {place : Place}

/-- A task that entered is where the calls for it have led. -/
inductive Tracked (heap : Heap) (head : ObjectId) (thread : PoolId) (state : State)
    (task : TaskId) : Prop
  | outside (outside : task ∉ state.entered) (nowhere : TaskAt state task .nowhere)
      (silent : callsOf state task = [])
  | underWay (entered : task ∈ state.entered) (place : Place) (there : TaskAt state task place)
      (runs : Runs (move heap) ⟨.running thread (.taskNotify head), [.initial]⟩
        (callsOf state task) ⟨place, state.replyLists task⟩)

theorem callsOf_append_self {event : Event} (calls : after.calls = state.calls ++ [(task, event)]) :
    callsOf after task = callsOf state task ++ [event] := by
  simp [callsOf, calls]

theorem callsOf_append_other {event : Event}
    (calls : after.calls = state.calls ++ [(task, event)]) (different : other ≠ task) :
    callsOf after other = callsOf state other := by
  simp [callsOf, calls, different.symm]

/-- What the next call for a task does. -/
theorem advance_spec (advanced : state.advance heap task place = some after) :
    ∃ event next between, move heap ⟨place, state.replyLists task⟩ = some (event, next) ∧
      (state.take place).put task next.place = some between ∧
      after.running = between.running ∧ after.queues = between.queues ∧
      after.replyLists = Function.update state.replyLists task next.replyList ∧
      after.entered = state.entered ∧ after.calls = state.calls ++ [(task, event)] := by
  obtain ⟨⟨event, next⟩, moved, rest⟩ := Option.bind_eq_some_iff.mp advanced
  obtain ⟨between, putEq, rfl⟩ := Option.map_eq_some_iff.mp rest
  obtain ⟨lists, entered, calls⟩ := put_frame putEq
  obtain ⟨takenLists, takenEntered, takenCalls⟩ := take_frame state place
  refine ⟨event, next, between, moved, putEq, rfl, rfl, ?_, ?_, ?_⟩
  · exact congrArg (Function.update · task next.replyList) (lists.trans takenLists)
  · exact entered.trans takenEntered
  · exact congrArg (· ++ [(task, event)]) (calls.trans takenCalls)

/-- Where a task is depends on the threads and the pipes only. -/
theorem TaskAt.congr (there : TaskAt state task place) (running : after.running = state.running)
    (queues : after.queues = state.queues) : TaskAt after task place :=
  ⟨running ▸ there.running, queues ▸ there.queued⟩

theorem Tracked.advance (tracked : ∀ task, Tracked heap head thread state task)
    (next : NextAt state task place) (advanced : state.advance heap task place = some after)
    (other : TaskId) : Tracked heap head thread after other := by
  obtain ⟨event, moved, between, moveEq, putEq, running, queues, lists, entered, calls⟩ :=
    advance_spec advanced
  by_cases same : other = task
  · subst same
    cases tracked other with
    | outside _ nowhere _ =>
        cases nowhere.eq_of_nextAt next
        exact next.elim
    | underWay isEntered last there runs =>
        cases there.eq_of_nextAt next
        have arrived := taskAt_put_self (taskAt_take_self there next) putEq
        apply Tracked.underWay (entered ▸ isEntered) moved.place (arrived.congr running queues)
        rw [callsOf_append_self calls, lists, Function.update_self]
        exact runs.trans (.single moveEq)
  · have stays {elsewhere : Place} (there : TaskAt state other elsewhere) :
        TaskAt after other elsewhere :=
      (taskAt_put_other same (taskAt_take_other same there next) putEq).congr running queues
    cases tracked other with
    | outside outside nowhere silent =>
        apply Tracked.outside (entered ▸ outside) (stays nowhere)
        rw [callsOf_append_other calls same, silent]
    | underWay isEntered elsewhere there runs =>
        apply Tracked.underWay (entered ▸ isEntered) elsewhere (stays there)
        rw [callsOf_append_other calls same, lists, Function.update_of_ne same]
        exact runs

theorem enter_spec (owned : ownerOf heap head = some thread)
    (entering : state.enter heap head task = some after) :
    task ∉ state.entered ∧
      ∃ between, state.put task (.running thread (.taskNotify head)) = some between ∧
        after.running = between.running ∧ after.queues = between.queues ∧
        after.replyLists = Function.update state.replyLists task [.initial] ∧
        after.entered = state.entered ++ [task] ∧ after.calls = state.calls := by
  unfold State.enter at entering
  split at entering
  · contradiction
  rename_i new
  rw [owned, Option.bind_some] at entering
  obtain ⟨between, putEq, rfl⟩ := Option.map_eq_some_iff.mp entering
  obtain ⟨lists, entered, calls⟩ := put_frame putEq
  refine ⟨new, between, putEq, rfl, rfl, ?_, ?_, calls⟩
  · exact congrArg (Function.update · task [.initial]) lists
  · exact congrArg (· ++ [task]) entered

theorem Tracked.enter (owned : ownerOf heap head = some thread)
    (tracked : ∀ task, Tracked heap head thread state task)
    (entering : state.enter heap head task = some after) (other : TaskId) :
    Tracked heap head thread after other := by
  obtain ⟨new, between, putEq, running, queues, lists, entered, calls⟩ :=
    enter_spec owned entering
  have sameCalls : callsOf after other = callsOf state other := by
    rw [callsOf, callsOf, calls]
  by_cases same : other = task
  · subst same
    cases tracked other with
    | outside _ nowhere silent =>
        have arrived := taskAt_put_self nowhere putEq
        have isEntered : other ∈ after.entered := by simp [entered]
        apply Tracked.underWay isEntered _ (arrived.congr running queues)
        rw [sameCalls, silent, lists, Function.update_self]
        exact .refl _
    | underWay isEntered _ _ _ => exact absurd isEntered new
  · have stays {elsewhere : Place} (there : TaskAt state other elsewhere) :
        TaskAt after other elsewhere :=
      (taskAt_put_other same there putEq).congr running queues
    have sameEntered : other ∈ after.entered ↔ other ∈ state.entered := by simp [entered, same]
    cases tracked other with
    | outside outside nowhere silent =>
        exact .outside (sameEntered.not.mpr outside) (stays nowhere) (sameCalls.trans silent)
    | underWay isEntered elsewhere there runs =>
        apply Tracked.underWay (sameEntered.mpr isEntered) elsewhere (stays there)
        rw [sameCalls, lists, Function.update_of_ne same]
        exact runs

theorem Tracked.step (owned : ownerOf heap head = some thread)
    (tracked : ∀ task, Tracked heap head thread state task) {label : Label}
    (stepEq : step heap head state label = some after) (task : TaskId) :
    Tracked heap head thread after task := by
  cases label with
  | enter entering => exact Tracked.enter owned tracked stepEq task
  | call calling =>
      obtain ⟨⟨current, pending⟩, runs, advanced⟩ := Option.bind_eq_some_iff.mp stepEq
      have next : NextAt state current (.running calling pending) := runs
      exact Tracked.advance tracked next advanced task
  | read queue =>
      obtain ⟨first, isFirst, advanced⟩ := Option.bind_eq_some_iff.mp stepEq
      have next : NextAt state first (.queued queue) := isFirst
      exact Tracked.advance tracked next advanced task

theorem tracked_initial (task : TaskId) : Tracked heap head thread {} task := by
  apply Tracked.outside List.not_mem_nil _ rfl
  constructor
  · exact fun _ _ => iff_of_false nofun nofun
  · exact fun _ => rfl

/-! ## Progress -/

/-- A thread that goes on after a call is the one that made it. -/
theorem thread_of_move {calling other : PoolId} {pending next : Pending}
    {before after : CTaskReplyList CReplyDispatcher} {event : Event}
    (moved : move heap ⟨.running calling pending, before⟩ =
      some (event, ⟨.running other next, after⟩)) : other = calling := by
  cases pending with
  | taskNotify dispatcher =>
      simp only [move] at moved
      split at moved
      · rename_i self _
        unfold dispatcherNotify at moved
        split at moved <;> cases moved <;> rfl
      · cases moved
      · contradiction
  | replyNotify =>
      simp only [move, replyNotify] at moved
      split at moved
      · cases moved
      · cases moved
      · split at moved
        · cases moved
        · contradiction

theorem isSome_put {place : Place}
    (idle : ∀ thread pending, place = .running thread pending → state.running thread = none) :
    (state.put task place).isSome := by
  cases place with
  | running thread pending =>
      simp only [State.put, idle thread pending rfl, Option.isSome_none, Bool.false_eq_true,
        if_false, Option.isSome_some]
  | queued queue => rfl
  | nowhere => rfl

/-- A call is possible unless it goes on in another thread that is busy. -/
theorem isSome_advance {event : Event} {next : Journey}
    (moved : move heap ⟨place, state.replyLists task⟩ = some (event, next))
    (idle : ∀ thread pending, next.place = .running thread pending →
      (state.take place).running thread = none) : (state.advance heap task place).isSome := by
  rw [State.advance, moved, Option.bind_some, Option.isSome_map]
  exact isSome_put idle

end Steps

section Traffic

variable {owner : ObjectId → PoolId} {heap : Heap} {head : ObjectId} {rest : List ObjectId}
  {state after : State} {task : TaskId}

/-- Every task takes the route. -/
abbrev OnRoute (owner : ObjectId → PoolId) (heap : Heap) (head : ObjectId) (state : State) :
    Prop :=
  ∀ task, Tracked heap head (owner head) state task

/-- What was called for a task is the beginning of its route, and the rest can
follow. -/
theorem Tracked.route (chained : Chained owner heap (head :: rest))
    (tracked : Tracked heap head (owner head) state task) :
    ∃ left place, (callsOf state task ++ left).map Event.call = route heap (head :: rest) ∧
      (∀ event ∈ callsOf state task, OnItsThread heap head event) ∧
      TaskAt state task place ∧
      (task ∈ state.entered →
        Runs (move heap) ⟨place, state.replyLists task⟩ left ⟨.nowhere, []⟩) := by
  obtain ⟨events, whole, callsEq, threads⟩ := runs_route chained
  cases tracked with
  | outside outside nowhere silent =>
      refine ⟨events, .nowhere, ?_, ?_, nowhere, fun entered => absurd entered outside⟩
      · rw [silent]
        exact callsEq
      · rw [silent]
        exact List.forall_mem_nil _
  | underWay entered place there runs =>
      obtain ⟨left, eventsEq, runsLeft⟩ := whole.continues rfl runs
      rw [eventsEq] at callsEq threads
      exact ⟨left, place, callsEq,
        fun event member => threads event (List.mem_append_left _ member), there,
        fun _ => runsLeft⟩

/-- A task under way has a next call. -/
theorem Tracked.exists_move (chained : Chained owner heap (head :: rest))
    (tracked : Tracked heap head (owner head) state task) {place : Place}
    (next : NextAt state task place) :
    ∃ event moved, move heap ⟨place, state.replyLists task⟩ = some (event, moved) := by
  obtain ⟨left, known, -, -, there, runs⟩ := tracked.route chained
  cases there.eq_of_nextAt next
  have entered : task ∈ state.entered := by
    cases tracked with
    | outside _ nowhere _ =>
        cases nowhere.eq_of_nextAt next
        exact next.elim
    | underWay entered _ _ _ => exact entered
  generalize finalEq : (⟨.nowhere, []⟩ : Journey) = final at runs
  cases runs entered with
  | refl =>
      cases congrArg Journey.place finalEq
      exact next.elim
  | head moved _ => exact ⟨_, _, moved⟩

/-- While a thread has a call to make or a pipe is not empty, some call is
possible. -/
theorem exists_step (chained : Chained owner heap (head :: rest))
    (onRoute : OnRoute owner heap head state) (unsettled : ¬ Settled state) :
    ∃ label after, label.Onward ∧ step heap head state label = some after := by
  by_cases idle : ∀ thread, state.running thread = none
  · -- The reader of a pipe that is not empty is idle like every other thread.
    have filled : ∃ queue, state.queues queue ≠ [] := by
      by_contra empty
      exact unsettled ⟨idle, not_exists_not.mp empty⟩
    obtain ⟨queue, filled⟩ := filled
    obtain ⟨first, later, queueEq⟩ := List.exists_cons_of_ne_nil filled
    have isFirst : (state.queues queue).head? = some first := by
      rw [queueEq]
      rfl
    have next : NextAt state first (.queued queue) := isFirst
    obtain ⟨event, moved, moveEq⟩ := (onRoute first).exists_move chained next
    obtain ⟨after, advanced⟩ := Option.isSome_iff_exists.mp
      (isSome_advance moveEq fun thread _ _ => idle thread)
    refine ⟨.read queue, after, trivial, ?_⟩
    rw [step, isFirst, Option.bind_some]
    exact advanced
  · obtain ⟨thread, busy⟩ := not_forall.mp idle
    obtain ⟨⟨current, pending⟩, runs⟩ := Option.ne_none_iff_exists'.mp busy
    have next : NextAt state current (.running thread pending) := runs
    obtain ⟨event, moved, moveEq⟩ := (onRoute current).exists_move chained next
    have frees : ∀ other next, moved.place = .running other next →
        (state.take (.running thread pending)).running other = none := by
      intro other next placed
      obtain ⟨place, replyList⟩ := moved
      cases placed
      rw [thread_of_move moveEq]
      exact Function.update_self _ _ _
    obtain ⟨after, advanced⟩ := Option.isSome_iff_exists.mp (isSome_advance moveEq frees)
    refine ⟨.call thread, after, trivial, ?_⟩
    rw [step, runs, Option.bind_some]
    exact advanced

/-- Once nothing is under way, each task took its whole route. -/
theorem answered_of_settled (chained : Chained owner heap (head :: rest))
    (onRoute : OnRoute owner heap head state) (settled : Settled state)
    (entered : task ∈ state.entered) :
    (callsOf state task).map Event.call = route heap (head :: rest) ∧
      state.replyLists task = [] := by
  obtain ⟨left, place, callsEq, -, there, runs⟩ := (onRoute task).route chained
  have gone : place = .nowhere := by
    cases place with
    | running thread pending =>
        have busy := (there.running thread pending).mpr rfl
        rw [settled.1] at busy
        contradiction
    | queued queue =>
        have counted := there.queued queue
        rw [settled.2, if_pos rfl] at counted
        contradiction
    | nowhere => rfl
  subst gone
  obtain ⟨same, nothing⟩ := (runs entered).eq_of_ended rfl
  rw [nothing, List.append_nil] at callsEq
  exact ⟨callsEq, (congrArg Journey.replyList same).symm⟩

/-- Every step but an entry is one call. -/
theorem length_calls {label : Label} (onward : label.Onward)
    (stepEq : step heap head state label = some after) :
    after.calls.length = state.calls.length + 1 ∧ after.entered = state.entered := by
  have counted {place : Place} {task : TaskId}
      (advanced : state.advance heap task place = some after) :
      after.calls.length = state.calls.length + 1 ∧ after.entered = state.entered := by
    obtain ⟨_, _, _, -, -, -, -, -, entered, calls⟩ := advance_spec advanced
    rw [calls, List.length_append]
    exact ⟨rfl, entered⟩
  cases label with
  | enter entering => exact onward.elim
  | call thread =>
      obtain ⟨_, -, advanced⟩ := Option.bind_eq_some_iff.mp stepEq
      exact counted advanced
  | read queue =>
      obtain ⟨_, -, advanced⟩ := Option.bind_eq_some_iff.mp stepEq
      exact counted advanced

/-- A list of which no key has more than so many entries. -/
theorem length_le_of_countP {keys : List TaskId} {bound : Nat} :
    ∀ {entries : List (TaskId × Event)}, (∀ entry ∈ entries, entry.1 ∈ keys) →
      (∀ key, entries.countP (fun entry => entry.1 = key) ≤ bound) →
      entries.length ≤ keys.length * bound := by
  induction keys with
  | nil =>
      intro entries known _
      have nothing : entries = [] := List.eq_nil_iff_forall_not_mem.mpr fun entry member =>
        List.not_mem_nil (known entry member)
      rw [nothing]
      exact Nat.zero_le _
  | cons key keys inductionHypothesis =>
      intro entries known few
      let others := entries.filter fun entry => ¬ entry.1 = key
      have othersKnown : ∀ entry ∈ others, entry.1 ∈ keys := by
        intro entry member
        obtain ⟨there, different⟩ := List.mem_filter.mp member
        exact (List.mem_cons.mp (known entry there)).resolve_left (of_decide_eq_true different)
      have othersFew : ∀ other, others.countP (fun entry => entry.1 = other) ≤ bound :=
        fun other => Nat.le_trans List.filter_sublist.countP_le (few other)
      have othersLength := inductionHypothesis othersKnown othersFew
      have split : entries.length =
          entries.countP (fun entry => entry.1 = key) + others.length := by
        rw [← List.countP_eq_length_filter,
          List.length_eq_countP_add_countP fun entry => decide (entry.1 = key)]
        simp only [decide_eq_true_eq]
      calc
        entries.length = entries.countP (fun entry => entry.1 = key) + others.length := split
        _ ≤ bound + keys.length * bound := Nat.add_le_add (few key) othersLength
        _ = (key :: keys).length * bound := by
          rw [List.length_cons, Nat.succ_mul, Nat.add_comm]

/-- The calls so far are no more than all the routes together. -/
theorem length_calls_le (chained : Chained owner heap (head :: rest))
    (onRoute : OnRoute owner heap head state) :
    state.calls.length ≤ state.entered.length * (route heap (head :: rest)).length := by
  have callsEq (task : TaskId) : state.calls.countP (fun call => call.1 = task) =
      (callsOf state task).length := by
    rw [callsOf, List.length_map, List.countP_eq_length_filter]
  apply length_le_of_countP
  · intro call member
    cases onRoute call.1 with
    | outside _ _ silent =>
        have one : call.2 ∈ callsOf state call.1 :=
          List.mem_map_of_mem (List.mem_filter.mpr ⟨member, decide_eq_true rfl⟩)
        rw [silent] at one
        contradiction
    | underWay entered _ _ _ => exact entered
  · intro task
    obtain ⟨left, -, routeEq, -⟩ := (onRoute task).route chained
    rw [callsEq, ← routeEq, List.length_map, List.length_append]
    exact Nat.le_add_right _ _

/-- Without further entries only so many steps are possible. -/
theorem length_labels_le (owned : ownerOf heap head = some (owner head))
    (chained : Chained owner heap (head :: rest)) {labels : List Label}
    (onward : ∀ label ∈ labels, label.Onward) (onRoute : OnRoute owner heap head state)
    (executed : execute (step heap head) labels state = some after) :
    state.calls.length + labels.length ≤
      state.entered.length * (route heap (head :: rest)).length := by
  induction labels generalizing state with
  | nil => exact length_calls_le chained onRoute
  | cons label labels inductionHypothesis =>
      obtain ⟨between, stepEq, others⟩ := Option.bind_eq_some_iff.mp executed
      obtain ⟨calls, entered⟩ := length_calls (onward label List.mem_cons_self) stepEq
      have later := inductionHypothesis
        (fun other member => onward other (List.mem_cons_of_mem _ member))
        (fun task => Tracked.step owned onRoute stepEq task) others
      rw [calls, entered] at later
      rw [List.length_cons]
      omega

/-- What holds while tasks are under way on a chain with this head. -/
structure RepliesRetrace (heap : Heap) (head : ObjectId) (chain : List ObjectId)
    (state : State) : Prop where
  /-- Every call runs on the thread of its pool. -/
  threads : ∀ call ∈ state.calls, OnItsThread heap head call.2
  /-- The calls for a task come in the order of the route. -/
  order : ∀ task, (callsOf state task).map Event.call <+: route heap chain
  /-- When nothing is under way any more, every task took the whole route. -/
  answered : Settled state → ∀ task ∈ state.entered,
    (callsOf state task).map Event.call = route heap chain ∧ state.replyLists task = []
  /-- Until then another step is possible. -/
  continues : ¬ Settled state →
    ∃ label after, label.Onward ∧ step heap head state label = some after
  /-- Only so many steps are possible before another task enters. -/
  ends : ∀ labels after, (∀ label ∈ labels, label.Onward) →
    execute (step heap head) labels state = some after →
    labels.length ≤ state.entered.length * (route heap chain).length

theorem repliesRetrace (chained : Chained owner heap (head :: rest))
    (reachable : Reachable (step heap head) (fun _ _ => True) {} state) :
    RepliesRetrace heap head (head :: rest) state := by
  obtain ⟨successor, staged⟩ := chained.staged
  have owned := ownerOf_stage staged
  have onRoute : OnRoute owner heap head state :=
    reachable.invariant tracked_initial
      fun _ _ _ before _ stepEq task => Tracked.step owned before stepEq task
  refine ⟨?_, ?_, ?_, exists_step chained onRoute, ?_⟩
  · intro call member
    obtain ⟨-, -, -, threads, -⟩ := (onRoute call.1).route chained
    exact threads call.2
      (List.mem_map_of_mem (List.mem_filter.mpr ⟨member, decide_eq_true rfl⟩))
  · intro task
    obtain ⟨left, -, callsEq, -⟩ := (onRoute task).route chained
    rw [List.map_append] at callsEq
    exact ⟨_, callsEq⟩
  · exact fun settled task entered => answered_of_settled chained onRoute settled entered
  · intro labels after onward executed
    have bounded := length_labels_le owned chained onward onRoute executed
    omega

/-- However a chain of dispatchers is bound, every task that enters at its head
is handed on and answered on the right threads, and its reply passes the pipes
of the request in reverse order and ends at the initial reply dispatcher. -/
theorem replies_retrace_requests {heap : Heap} {head : ObjectId} {rest : List ObjectId}
    (distinct : (head :: rest).Nodup)
    (constructed : Constructed owner (head :: rest) heap)
    {bound : List (ObjectId × ObjectId)} (all : bound.Perm (links (head :: rest))) :
    ∃ linked, (∀ calls, bindAll (calls + 2) bound heap = some linked) ∧
      ∀ state, Reachable (step linked head) (fun _ _ => True) {} state →
        RepliesRetrace linked head (head :: rest) state := by
  obtain ⟨after, boundEq, chained⟩ :=
    bindAll_chained constructed distinct (List.cons_ne_nil head rest) all
  exact ⟨after, boundEq, fun _ reachable => repliesRetrace chained reachable⟩

end Traffic

/-- The dispatchers 0 and 2 in one pool, and 1 between them in another. -/
def pools (id : ObjectId) : PoolId :=
  if id = 1 then 7 else 5

def unbound : Heap where
  objects id := if id < 3 then some (stage pools id none) else none
  next := 3

theorem constructed_unbound : Constructed pools [0, 1, 2] unbound where
  staged := by
    intro id member
    simp only [List.mem_cons, List.not_mem_nil, or_false] at member
    rcases member with rfl | rfl | rfl <;> rfl
  fresh := fun _ beyond => if_neg (Nat.not_lt.mpr beyond)

/-- The chain is bound from its end. -/
theorem replies_retrace_of_unbound :
    ∃ linked, (∀ calls, bindAll (calls + 2) [(1, 2), (0, 1)] unbound = some linked) ∧
      ∀ state, Reachable (step linked 0) (fun _ _ => True) {} state →
        RepliesRetrace linked 0 [0, 1, 2] state :=
  replies_retrace_requests (by decide) constructed_unbound (by decide)

/-- One task goes to the other pool and back, twice. -/
example :
    ((bindAll 2 [(1, 2), (0, 1)] unbound).bind fun heap =>
      (execute (step heap 0) [.enter 9, .call 5, .call 5, .read (.incoming 4), .call 7, .call 7,
        .read (.incoming 3), .call 5, .call 5, .read (.returning 3), .call 7,
        .read (.returning 4), .call 5] {}).map fun state =>
          state.calls.map fun call => (call.2.thread, call.2.call)) =
      some [(5, .taskNotify 0), (5, .taskNotify 4), (7, .read (.incoming 4)), (7, .taskNotify 1),
        (7, .taskNotify 3), (5, .read (.incoming 3)), (5, .taskNotify 2),
        (5, .replyNotify (some (.taskPipe 3))), (7, .read (.returning 3)),
        (7, .replyNotify (some (.taskPipe 4))), (5, .read (.returning 4)),
        (5, .replyNotify (some .initial))] := by
  decide +kernel

end NginxFastcgi.Service.ReplyTraffic
