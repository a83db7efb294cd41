import EchoRobot.Calls.Alone
import EchoRobot.Interleaving.Rank

/-! Calls come to an end. A thread has a bounded number of steps from its entry to its
return, and waits for nobody but the timer, the worker and a notification; when nobody
calls any more, the replays that are queued are played, and everyone returns or sleeps. -/

namespace EchoRobot

open Interleaving

/-- A snapshot may put a whole recording before the worker. -/
def Instr.weight : Instr → Nat
  | .snapshot => 2 + 7 * echoFifoSize
  | _ => 1

/-- The most steps a thread can take through its code. -/
def work : Code → Nat
  | [] => 0
  | instr :: rest => instr.weight + work rest

@[simp] theorem work_nil : work [] = 0 := rfl

@[simp] theorem work_cons (instr : Instr) (rest : Code) :
    work (instr :: rest) = instr.weight + work rest := rfl

@[simp] theorem work_append (first second : Code) :
    work (first ++ second) = work first + work second := by
  induction first with
  | nil => simp
  | cons instr rest ih => rw [List.cons_append, work_cons, work_cons, ih, Nat.add_assoc]

theorem Instr.weight_pos (instr : Instr) : 0 < instr.weight := by
  cases instr <;> simp [Instr.weight]

theorem work_suffix {before code : Code} (suffix : before <:+ code) : work before ≤ work code := by
  obtain ⟨earlier, rfl⟩ := suffix
  simp

theorem work_replayLoop (moves : List EchoMove) :
    work (replayLoop moves) = 1 + 7 * moves.length := by
  have loop : work (moves.flatMap replayMove) = 7 * moves.length := by
    induction moves with
    | nil => rfl
    | cons move moves ih =>
      rw [List.flatMap_cons, work_append, ih, List.length_cons]
      have here : work (replayMove move) = 7 := rfl
      omega
  simp only [replayLoop, work_cons, loop, Instr.weight]

theorem length_replaySnapshot_le (fifo : List EchoMove) :
    (replaySnapshot fifo).length ≤ echoFifoSize := by
  simp [replaySnapshot]

section Step
variable {state after : State} {tid : Tid} {env : Env} {instr : Instr} {rest : Code}
variable {done : EchoDevice × Thread} {action : Action}

/-- A step takes its thread closer to the end of its code. -/
theorem work_step (owned : Owned state) (worker : WorkerCode (state.code .worker))
    (code : state.code tid = instr :: rest) (taken : exec state tid env instr rest = some done) :
    work done.2.code < work (instr :: rest) := by
  have own := owned tid instr (by simp [code])
  have positive := instr.weight_pos
  generalize done.2.code = left, exec_code taken = leaves
  cases leaves with
  | next =>
    rw [work_cons]
    omega
  | back =>
    rw [work_cons, work_nil]
    omega
  | stop same =>
    subst same
    cases tid with
    | worker =>
      have ending := work_suffix (code ▸ worker).of_shouldStop
      rw [work_cons]
      omega
    | _ => cases own
  | unroll same =>
    subst same
    have fits := length_replaySnapshot_le state.dev.buffer.moveFifo
    rw [work_cons, work_append, work_replayLoop, Instr.weight]
    omega

theorem work_next (owned : Owned state) (worker : WorkerCode (state.code .worker))
    (moved : next state (.step tid env) = some after) :
    GetsAhead (fun state tid => work (state.code tid)) state after := by
  obtain ⟨instr, rest, done, code, taken, rfl⟩ := next_step.mp moved
  refine ⟨tid, ?_, fun other different => ?_⟩
  · simp only [settle_code, code]
    exact work_step owned worker code taken
  · simp only [settle_code_of_ne _ _ _ _ _ different]

/-- A thread waits only for the timer, for the worker or for a notification. -/
theorem exec_waits (waits : exec state tid env instr rest = none) :
    instr = .timerDeleteSync ∧ state.code .timer ≠ [] ∨
      instr = .cancelWorkSync ∧ state.code .worker ≠ [] ∨
      instr = .waitNewData ∧ state.dev.newDataAvail = false ∨
      instr = .waitReplayDone ∧ state.dev.replayFinished = false := by
  by_cases passes : instr.passes = true
  · obtain ⟨done, taken, -⟩ := exec_passes state tid env rest passes
    simp [waits] at taken
  cases instr with
  | timerDeleteSync =>
    have busy : state.idle .timer = false := by simpa [exec] using waits
    exact Or.inl ⟨rfl, by simpa [State.idle] using busy⟩
  | cancelWorkSync =>
    have busy : state.idle .worker = false := by simpa [exec] using waits
    exact Or.inr (Or.inl ⟨rfl, by simpa [State.idle] using busy⟩)
  | waitNewData => exact Or.inr (Or.inr (Or.inl ⟨rfl, by simpa [exec] using waits⟩))
  | waitReplayDone => exact Or.inr (Or.inr (Or.inr ⟨rfl, by simpa [exec] using waits⟩))
  | snapshot =>
    simp only [exec] at waits
    split at waits <;> cases waits
  | shouldStop =>
    simp only [exec] at waits
    split at waits <;> cases waits
  | _ => exact absurd rfl passes

/-- Only a system call may have to wait. -/
theorem runs_on (owned : Owned state) (background : ∀ id, tid ≠ .proc id) (env : Env)
    (busy : state.code tid ≠ []) : ∃ after, next state (.step tid env) = some after := by
  obtain ⟨instr, rest, code⟩ := List.exists_cons_of_ne_nil busy
  have own := owned tid instr (by simp [code])
  cases taken : exec state tid env instr rest with
  | some done => exact ⟨_, next_step.mpr ⟨instr, rest, done, code, taken, rfl⟩⟩
  | none =>
    exfalso
    rcases exec_waits taken with ⟨rfl, -⟩ | ⟨rfl, -⟩ | ⟨rfl, -⟩ | ⟨rfl, -⟩ <;> cases tid <;>
      first
        | exact absurd rfl (background _)
        | cases own

/-- Where no thread can take a step, all are at their callers or asleep. -/
theorem resting_of_stuck (owned : Owned state)
    (stuck : ∀ tid, next state (.step tid Env.good) = none) : state.resting := by
  intro tid
  have free : ∀ tid, (∀ id, tid ≠ .proc id) → state.code tid = [] := by
    intro tid background
    by_contra busy
    obtain ⟨after, moved⟩ := runs_on owned background Env.good busy
    simp [stuck tid] at moved
  by_cases idle : state.code tid = []
  · exact Or.inl idle
  right
  obtain ⟨instr, rest, code⟩ := List.exists_cons_of_ne_nil idle
  have waits : exec state tid Env.good instr rest = none := by simpa [next, code] using stuck tid
  rcases exec_waits waits with ⟨-, busy⟩ | ⟨-, busy⟩ | ⟨rfl, unset⟩ | ⟨rfl, unset⟩
  · exact absurd (free .timer (by simp)) busy
  · exact absurd (free .worker (by simp)) busy
  · simp [State.asleep, code, unset]
  · simp [State.asleep, code, unset]

/-- Nobody calls and the timer does not expire; the threads and the work queue go on. -/
inductive Onward (state : State) : Action → Prop where
  | step (tid : Tid) (env : Env) : Onward state (.step tid env)
  | startWork : Onward state .startWork

/-- What a replay that is queued is worth: one step more than the worker can take. -/
def queuedWork : Nat := 1 + work replayWorker

/-- The steps before a thread, with the replays that it is going to queue. -/
def State.ahead (state : State) (tid : Tid) : Nat :=
  work (state.code tid) + queuedWork * (state.code tid).count .queueWork

def State.queued (state : State) : Nat :=
  if state.dev.buffer.replayPending then queuedWork else 0

/-- No step but a queueing brings one. -/
theorem queueings_step (taken : exec state tid env instr rest = some done) :
    done.2.code.count .queueWork ≤ rest.count .queueWork := by
  generalize done.2.code = left, exec_code taken = leaves
  cases leaves with
  | next => exact Nat.le_refl _
  | back => exact Nat.zero_le _
  | stop => exact Nat.zero_le _
  | unroll =>
    have none : (replayLoop (replaySnapshot state.dev.buffer.moveFifo)).count .queueWork = 0 :=
      List.count_eq_zero.mpr fun member => by cases replayLoop_ofLoop _ _ member
    rw [List.count_append, none, Nat.zero_add]

theorem ahead_eq_zero (idle : state.code tid = []) : state.ahead tid = 0 := by
  simp [State.ahead, idle]

/-- A thread that queues a replay pays for it. -/
theorem ahead_step (owned : Owned state) (worker : WorkerCode (state.code .worker))
    (code : state.code tid = instr :: rest) (taken : exec state tid env instr rest = some done) :
    (state.settle tid done.1 done.2).ahead tid + (state.settle tid done.1 done.2).queued <
      state.ahead tid + state.queued := by
  have less := work_step owned worker code taken
  have fewer := queueings_step taken
  have priced := Nat.mul_le_mul_left queuedWork fewer
  simp only [State.ahead, settle_code, code]
  by_cases queues : instr = .queueWork
  · subst queues
    have most : (state.settle tid done.1 done.2).queued ≤ queuedWork := by
      unfold State.queued
      split
      · exact Nat.le_refl _
      · exact Nat.zero_le _
    rw [List.count_cons_self, Nat.mul_add, Nat.mul_one]
    omega
  · have kept : (state.settle tid done.1 done.2).queued ≤ state.queued := by
      have moved : next state (.step tid env) = some (state.settle tid done.1 done.2) :=
        next_step.mpr ⟨_, _, _, code, taken, rfl⟩
      unfold State.queued
      split
      · rename_i pending
        have before : state.dev.buffer.replayPending = true :=
          (replayPending_of_next moved pending).resolve_right fun head => by
            rw [instr?_step code] at head
            exact queues (Option.some.inj head)
        rw [if_pos before]
      · exact Nat.zero_le _
    rw [List.count_cons_of_ne queues]
    omega

/-- A replay that is picked up has been paid for. -/
theorem ahead_startWork (moved : next state .startWork = some after) :
    after.ahead .worker + after.queued < state.ahead .worker + state.queued := by
  obtain ⟨⟨pending, idle⟩, rfl⟩ := next_startWork.mp moved
  have none : replayWorker.count .queueWork = 0 := by decide
  rw [ahead_eq_zero idle, State.queued, State.queued, if_pos pending]
  simp only [State.ahead, settle_code, settle_dev, Thread.code_begin, none, queuedWork]
  simp

/-- What the threads have before them, and the replay that is queued. -/
def State.left (threads : Finset Tid) (state : State) : Nat :=
  ∑ tid ∈ threads, state.ahead tid + state.queued

theorem left_next {threads : Finset Tid} (owned : Owned state)
    (worker : WorkerCode (state.code .worker)) (runs : .worker ∈ threads)
    (outside : ∀ tid ∉ threads, state.code tid = []) (ok : Onward state action)
    (moved : next state action = some after) :
    after.left threads < state.left threads ∧ ∀ tid ∉ threads, after.code tid = [] := by
  obtain ⟨mover, actor, inside, less⟩ : ∃ mover, action.actor = some mover ∧ mover ∈ threads ∧
      after.ahead mover + after.queued < state.ahead mover + state.queued := by
    cases ok with
    | step tid env =>
      obtain ⟨instr, rest, done, code, taken, rfl⟩ := next_step.mp moved
      refine ⟨tid, rfl, ?_, ahead_step owned worker code taken⟩
      by_contra absent
      simp [outside tid absent] at code
    | startWork => exact ⟨.worker, rfl, runs, ahead_startWork moved⟩
  have same : ∀ other, other ≠ mover → after.code other = state.code other := by
    intro other different
    rw [State.code, State.code, thread_next (by simp [actor, different.symm]) moved]
  constructor
  · have sums := @sum_rank_changed _ _ State.ahead state after threads mover inside
      fun other different => by simp only [State.ahead, same other different]
    unfold State.left
    omega
  · intro tid absent
    rw [same tid fun own => absent (own ▸ inside)]
    exact outside tid absent

/-- Every thread rests and no replay is queued. -/
def State.settled (state : State) : Prop :=
  state.resting ∧ state.dev.buffer.replayPending = false

/-- Left alone, the driver comes to rest: in any order its threads and the work queue take
only so many steps, they cannot block one another, and so they can all be brought to rest. -/
structure ComesToRest (threads : Finset Tid) (state : State) : Prop where
  bounded : ∀ later after, Run next Onward state later after →
    later.length ≤ state.left threads
  unblocked : ∀ later after, Run next Onward state later after →
    (∀ tid, next after (.step tid Env.good) = none) → next after .startWork = none → after.settled
  rests : ∃ later after, Run next Onward state later after ∧ after.settled

theorem settled_of_stuck (owned : Owned state)
    (stuck : ∀ tid, next state (.step tid Env.good) = none)
    (unqueued : next state .startWork = none) : state.settled := by
  have resting := resting_of_stuck owned stuck
  have idle : state.code .worker = [] := by
    by_contra busy
    obtain ⟨after, moved⟩ := runs_on owned (by simp) Env.good busy
    simp [stuck] at moved
  refine ⟨resting, Bool.eq_false_iff.mpr fun pending => ?_⟩
  rw [next_startWork.mpr ⟨⟨pending, idle⟩, rfl⟩] at unqueued
  cases unqueued

/-- An action moves at most one thread. -/
theorem active_next (active : ∃ threads : Finset Tid, ∀ tid ∉ threads, state.code tid = [])
    (moved : next state action = some after) :
    ∃ threads : Finset Tid, ∀ tid ∉ threads, after.code tid = [] := by
  obtain ⟨threads, idle⟩ := active
  cases mover : action.actor with
  | none =>
    refine ⟨threads, fun tid absent => ?_⟩
    rw [State.code, thread_next (by simp [mover]) moved]
    exact idle tid absent
  | some tid =>
    refine ⟨insert tid threads, fun other absent => ?_⟩
    rw [Finset.mem_insert, not_or] at absent
    rw [State.code, thread_next (by simp [mover, Ne.symm absent.1]) moved]
    exact idle other absent.2

end Step

section Runs
variable {servo : EchoServoCtx} {clock : Nat} {actions : List Action} {state : State}

/-- Only the threads that were moved can have something before them. -/
theorem exists_active (run : Run next anyStep (State.initial servo clock) actions state) :
    ∃ threads : Finset Tid, ∀ tid ∉ threads, state.code tid = [] := by
  induction run with
  | refl => exact ⟨∅, fun _ _ => rfl⟩
  | step before ok moved ih => exact active_next ih moved

theorem comesToRest_of_active (run : Run next anyStep (State.initial servo clock) actions state)
    {threads : Finset Tid} (runs : .worker ∈ threads)
    (outside : ∀ tid ∉ threads, state.code tid = []) : ComesToRest threads state := by
  have reached : ∀ {later after}, Run next Onward state later after →
      Owned after ∧ WorkerCode (after.code .worker) := fun later =>
    ⟨owned_of_run (run.trans later.any), workerCode_of_run (run.trans later.any)⟩
  have absent : ∀ {later after}, Run next Onward state later after →
      ∀ tid ∉ threads, after.code tid = [] := fun later =>
    later.invariant (fun after => ∀ tid ∉ threads, after.code tid = []) outside
      fun _ _ _ _ before outside ok moved =>
        (left_next (reached before).1 (reached before).2 runs outside ok moved).2
  have bounded : ∀ later after, Run next Onward state later after →
      later.length ≤ state.left threads := by
    intro later after onward
    have bound := onward.length_le_measure (State.left threads)
      fun later middle action after before ok moved =>
        (left_next (reached before).1 (reached before).2 runs (absent before) ok moved).1
    omega
  refine ⟨bounded, fun later after onward => settled_of_stuck (reached onward).1,
    Run.exists_goal State.settled bounded fun later middle onward => ?_⟩
  by_cases stuck : ∀ tid, next middle (.step tid Env.good) = none
  · cases queued : next middle .startWork with
    | none => exact Or.inl (settled_of_stuck (reached onward).1 stuck queued)
    | some after => exact Or.inr ⟨_, after, .startWork, queued⟩
  · obtain ⟨tid, moves⟩ := not_forall.mp stuck
    obtain ⟨after, moved⟩ := Option.ne_none_iff_exists'.mp moves
    exact Or.inr ⟨_, after, .step tid Env.good, moved⟩

/-- From every reachable state the driver comes to rest when it is left alone. -/
theorem comes_to_rest (run : Run next anyStep (State.initial servo clock) actions state) :
    ∃ threads, ComesToRest threads state := by
  obtain ⟨threads, outside⟩ := exists_active run
  refine ⟨insert .worker threads, comesToRest_of_active run (Finset.mem_insert_self ..) ?_⟩
  exact fun tid absent => outside tid fun inside => absent (Finset.mem_insert_of_mem inside)

/-- A replay, a stop and a step of the joystick, all under way. -/
def threeUnderWay : List Action :=
  [.call (.proc 0) (writeCmd echoCmdReplay), .call (.proc 1) (writeCmd echoCmdStop),
    .call (.irq 0) (.input .up)] ++ steps (.proc 0) 2

theorem comes_to_rest_threeUnderWay :
    ∃ state, run next (State.initial simServo 0) threeUnderWay = some state ∧
      .queueWork ∈ state.code (.proc 0) ∧
      ∃ later after, Run next Onward state later after ∧ after.settled := by
  obtain ⟨state, ran, queues⟩ := exists_run next (fun _ _ => true) (State.initial simServo 0)
    threeUnderWay (fun state => decide (.queueWork ∈ state.code (.proc 0))) (by decide)
  obtain ⟨threads, comes⟩ := comes_to_rest ran.any
  exact ⟨state, ran.execution, of_decide_eq_true queues, comes.rests⟩

end Runs

end EchoRobot
