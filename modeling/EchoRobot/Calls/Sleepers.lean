import EchoRobot.Calls.Rest
import EchoRobot.Replay.WakeUp
import EchoRobot.Interleaving.WaitQueue

/-! Sleepers are woken up. `wait_event_interruptible` puts a thread to sleep on its queue; each
store that makes a condition true is followed at once by the `wake_up_interruptible` of that
queue. -/

namespace EchoRobot

open Interleaving

/-- The queue on which `wait_event_interruptible` sleeps. -/
def State.waitsFor (state : State) (tid : Tid) : Option EchoQueue :=
  match state.code tid with
  | .waitNewData :: _ => some .read
  | .waitReplayDone :: _ => some .replayDone
  | _ => none

/-- The condition of a queue. -/
def EchoDevice.ready (dev : EchoDevice) : EchoQueue → Bool
  | .read => dev.newDataAvail
  | .replayDone => dev.replayFinished

/-- The store that makes it true. -/
def EchoQueue.store : EchoQueue → Instr
  | .read => .setNewDataAvail true
  | .replayDone => .setReplayFinished true

/-- The queue that `wake_up_interruptible` wakes up. -/
def State.wakes (state : State) (action : Action) : Option EchoQueue :=
  match state.instr? action with
  | some (.wakeUp queue) => some queue
  | _ => none

/-- The driver with its two wait queues. A signal rouses a sleeper; whether its wait then ends
the thread itself finds out. -/
def waitQueues : Waiting State Action Tid EchoQueue :=
  ⟨next, Action.actor, State.waitsFor, fun state => state.dev.ready, State.wakes⟩

/-- The thread's next step wakes the queue up. -/
def State.wakesNext (state : State) (tid : Tid) (queue : EchoQueue) : Prop :=
  ∃ rest, state.code tid = .wakeUp queue :: rest

/-- A flag is set right before its queue is woken up. -/
def wakeRule : Instr → Code → Bool
  | .setNewDataAvail true, rest => rest.head? == some (.wakeUp .read)
  | .setReplayFinished true, rest => rest.head? == some (.wakeUp .replayDone)
  | _, _ => true

theorem wakeRule_lawful : CodeRule wakeRule where
  entry tid code entry := by
    cases entry with
    | read id nonblock count => cases nonblock <;> rfl
    | input id pin => cases pin <;> rfl
    | _ => rfl
  timer := by decide
  worker := by decide
  stop := by decide
  unroll moves rest shape := by
    have plays : obeys wakeRule (moves.flatMap replayMove ++ rest) := by
      induction moves with
      | nil => exact obeys_tail shape
      | cons move moves ih => simpa [replayMove, notifyReaders, wakeRule] using ih
    exact plays

section Step
variable {state after : State} {action : Action} {queue : EchoQueue} {tid : Tid}

theorem waitsFor_next (moved : next state action = some after) (other : action.actor ≠ some tid) :
    after.waitsFor tid = state.waitsFor tid := by
  rw [State.waitsFor, State.waitsFor, State.code, State.code, thread_next other moved]

/-- Only its own stores change the flag for the readers. -/
theorem newDataAvail_stored (moved : next state action = some after) :
    after.dev.newDataAvail = state.dev.newDataAvail ∨
      state.instr? action = some (.setNewDataAvail after.dev.newDataAvail) := by
  rcases next_device moved with ⟨tid, env, instr, rest, done, rfl, code, taken, rfl⟩ | frame
  · cases instr with
    | setNewDataAvail value =>
      cases taken
      exact Or.inr (instr?_step code)
    | _ => exact Or.inl ((exec_frame taken).newData (by simp [Instr.writes]))
  · exact Or.inl (frame.newData (by simp))

theorem ready_next (moved : next state action = some after)
    (before : state.dev.ready queue = false) (ready : after.dev.ready queue = true) :
    state.instr? action = some queue.store := by
  cases queue with
  | read =>
    refine ((newDataAvail_stored moved).resolve_left fun same => ?_).trans ?_
    · exact absurd (before.symm.trans (same.symm.trans ready)) (by simp)
    · rw [show after.dev.newDataAvail = true from ready, EchoQueue.store]
  | replayDone =>
    refine ((replayFinished_next moved).resolve_left fun same => ?_).trans ?_
    · exact absurd (before.symm.trans (same.symm.trans ready)) (by simp)
    · rw [show after.dev.replayFinished = true from ready, EchoQueue.store]

theorem wakesNext_of_ready (shape : Obeys wakeRule state) (moved : next state action = some after)
    (before : state.dev.ready queue = false) (ready : after.dev.ready queue = true) :
    ∃ tid, after.wakesNext tid queue := by
  obtain ⟨tid, env, rest, done, rfl, code, taken, rfl⟩ :=
    next_instr (ready_next moved before ready) moved
  have rule := obeys_head (code ▸ shape tid)
  refine ⟨tid, ?_⟩
  cases queue <;>
  · cases taken
    simpa [State.wakesNext, wakeRule, EchoQueue.store, List.head?_eq_some_iff] using rule

/-- A wake-up that is due stays due until it is made. -/
theorem wakesNext_next (moved : next state action = some after)
    (due : state.wakesNext tid queue) :
    after.wakesNext tid queue ∨ state.wakes action = some queue := by
  obtain ⟨rest, code⟩ := due
  by_cases actor : action.actor = some tid
  · cases acts actor moved with
    | call request may idle => simp [code] at idle
    | step env instr rest' done code' taken =>
      obtain ⟨rfl, -⟩ := List.cons.inj (code.symm.trans code')
      exact Or.inr (by rw [State.wakes, instr?_step code])
    | expire pending idle => simp [code] at idle
    | startWork pending idle => simp [code] at idle
    | signal asleep => simp [State.asleep, code] at asleep
  · refine Or.inl ⟨rest, ?_⟩
    rw [State.code, thread_next actor moved]
    exact code

/-- While its condition is false, a thread that waits takes no step. -/
theorem step_of_waitsFor {env : Env} (waits : state.waitsFor tid = some queue)
    (unready : state.dev.ready queue = false) : next state (.step tid env) = none := by
  unfold State.waitsFor at waits
  split at waits
  · rename_i rest code
    cases waits
    simp only [EchoDevice.ready] at unready
    simp [next, code, exec, unready]
  · rename_i rest code
    cases waits
    simp only [EchoDevice.ready] at unready
    simp [next, code, exec, unready]
  · cases waits

end Step

section Runs
variable {servo : EchoServoCtx} {clock : Nat} {actions : List (SleepAction Action Tid)}
variable {sleeping : Sleeping State Tid}

theorem waitQueues_disciplined (servo : EchoServoCtx) (clock : Nat) :
    waitQueues.Disciplined (State.initial servo clock)
      fun state queue => ∃ tid, state.wakesNext tid queue where
  still _ _ _ _ moved other := waitsFor_next moved other
  announced _ _ _ _ _ run moved before ready :=
    wakesNext_of_ready (wakeRule_lawful.of_run run) moved before ready
  lasts := by
    rintro state action after queue moved ⟨tid, due⟩
    exact (wakesNext_next moved due).imp_left fun due => ⟨tid, due⟩

/-- Every sleeper waits for what has not happened, or its wake-up is the next step of a thread
that is awake; and where nobody who is awake can go on, there is nothing left to do. -/
structure WokenInTime (sleeping : Sleeping State Tid) : Prop where
  woken : ∀ tid ∈ sleeping.sleepers, ∃ queue, sleeping.state.waitsFor tid = some queue ∧
    (sleeping.state.dev.ready queue = true →
      ∃ waker, waker ∉ sleeping.sleepers ∧ sleeping.state.wakesNext waker queue)
  unblocked : (∀ tid ∉ sleeping.sleepers, next sleeping.state (.step tid Env.good) = none) →
    next sleeping.state .startWork = none → sleeping.state.settled

theorem sleepers_are_woken
    (run : Run waitQueues.step anyStep ⟨State.initial servo clock, []⟩ actions sleeping) :
    WokenInTime sleeping := by
  have heard := heard_of_run (waitQueues_disciplined servo clock) run
  obtain ⟨acts, own⟩ := run.awake
  have woken : ∀ tid ∈ sleeping.sleepers, ∃ queue, sleeping.state.waitsFor tid = some queue ∧
      (sleeping.state.dev.ready queue = true →
        ∃ waker, waker ∉ sleeping.sleepers ∧ sleeping.state.wakesNext waker queue) := by
    intro tid sleeps
    obtain ⟨queue, waits, alerted⟩ := heard tid sleeps
    refine ⟨queue, waits, fun ready => ?_⟩
    obtain ⟨waker, rest, code⟩ := alerted ready
    refine ⟨waker, fun slept => ?_, rest, code⟩
    obtain ⟨other, stands, -⟩ := heard waker slept
    simp [waitQueues, State.waitsFor, code] at stands
  refine ⟨woken, fun stuck unqueued => settled_of_stuck (owned_of_run own) ?_ unqueued⟩
  intro tid
  by_cases sleeps : tid ∈ sleeping.sleepers
  · obtain ⟨queue, waits, due⟩ := woken tid sleeps
    cases ready : sleeping.state.dev.ready queue with
    | true =>
      obtain ⟨waker, awake, rest, code⟩ := due ready
      have goes : next sleeping.state (.step waker Env.good) = some _ :=
        next_step.mpr ⟨_, _, _, code, rfl, rfl⟩
      exact absurd ((stuck waker awake).symm.trans goes) (by simp)
    | false => exact step_of_waitsFor waits ready
  · exact stuck tid sleeps

/-- A reader has fallen asleep; a move is made, and its reader about to be woken up. -/
def moveWhileAsleep : List (SleepAction Action Tid) :=
  [.act (.call (.proc 0) (.read false sizeofEchoSnapshot)), .sleep (.proc 0),
    .act (.call (.proc 1) (.write sizeofEchoCmd (some ⟨echoCmdMove, 0, 100, 0⟩)))] ++
    (steps (.proc 1) 2).map .act

theorem sleepers_are_woken_moveWhileAsleep :
    ∃ sleeping, run waitQueues.step ⟨State.initial simServo 0, []⟩ moveWhileAsleep =
        some sleeping ∧
      (sleeping.sleepers = [.proc 0] ∧ sleeping.state.dev.newDataAvail = true) ∧
      WokenInTime sleeping := by
  obtain ⟨sleeping, ran, facts⟩ := exists_run waitQueues.step (fun _ _ => true)
    ⟨State.initial simServo 0, []⟩ moveWhileAsleep (fun sleeping =>
      decide (sleeping.sleepers = [.proc 0] ∧ sleeping.state.dev.newDataAvail = true)) (by decide)
  exact ⟨sleeping, ran.execution, of_decide_eq_true facts, sleepers_are_woken ran.any⟩

end Runs

end EchoRobot
