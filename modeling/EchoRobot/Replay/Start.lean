import EchoRobot.Model.Threads

/-! What is under way around the replay work item: a start that still has to
queue it, and a worker run that still has to store its completion. -/

namespace EchoRobot

open Interleaving

def isQueueWork (instr : Instr) : Bool := instr == .queueWork

def isReplayComplete (instr : Instr) : Bool := instr == .lockReplayComplete

/-- The thread has made its transition to `REPLAY` and is about to queue. -/
def State.starting (state : State) (tid : Tid) : Prop :=
  commits Instr.mayLeave isQueueWork (state.code tid) = true

def State.someStarting (state : State) : Prop := ∃ tid, state.starting tid

/-- The worker runs and has not stored its completion. -/
def State.playing (state : State) : Prop :=
  commits Instr.mayReturn isReplayComplete (state.code .worker) = true

/-- A transition to `REPLAY` is followed by its `queue_work`, only the two start
sections make one, and the play loop is followed by the completion. -/
def startRule : Instr → Code → Bool
  | .lockStartReplay, rest | .lockInactivity, rest => commits Instr.mayLeave isQueueWork rest
  | .lockSetMode mode, _ => mode != .replay
  | .shouldStop, rest | .snapshot, rest => commits Instr.mayReturn isReplayComplete rest
  | instr, rest => !(instr.mayReturn && commits Instr.mayLeave isQueueWork rest)

theorem startRule_lawful : CodeRule startRule where
  entry tid code entry := by
    cases entry with
    | read id nonblock count => cases nonblock <;> rfl
    | input id pin => cases pin <;> rfl
    | _ => rfl
  timer := by decide
  worker := by decide
  stop := by decide
  unroll moves rest shape := by
    have completes : commits Instr.mayReturn isReplayComplete rest := obeys_head shape
    refine obeys_replayLoop (fun instr before own loop => ?_) (obeys_tail shape)
    have later := commits_loop loop completes
    cases instr <;> first | rfl | exact later | cases own

/-- No call and no timer expiry starts out past its mode check. -/
theorem Entry.not_starting {tid : Tid} {code : Code} (entry : Entry tid code) :
    commits Instr.mayLeave isQueueWork code = false := by
  cases entry with
  | read id nonblock count => cases nonblock <;> rfl
  | input id pin => cases pin <;> rfl
  | _ => rfl

/-- Whoever starts a replay has the `queue_work` ahead. -/
theorem queueWork_of_commits {leaves : Instr → Bool} {code : Code}
    (committed : commits leaves isQueueWork code = true) : .queueWork ∈ code := by
  obtain ⟨instr, member, hit⟩ := commits_mem committed
  obtain rfl : instr = .queueWork := by simpa [isQueueWork] using hit
  exact member

theorem worker_not_starting {state : State} (owned : Owned state) : ¬ state.starting .worker :=
  fun starting => absurd (owned .worker _ (queueWork_of_commits starting)) (by decide)

variable {state after : State} {action : Action}

theorem starting_keeps {tid : Tid} (starting : state.starting tid)
    (other : state.instr? action ≠ some .queueWork) (moved : next state action = some after) :
    after.starting tid := by
  rcases (carries_mayLeave (by decide)).next starting moved with still | queued
  · exact still
  · obtain ⟨-, instr, -, head, hit⟩ := queued
    obtain rfl : instr = .queueWork := by simpa [isQueueWork] using hit
    exact absurd head other

theorem starting_next {tid : Tid} (starting : state.starting tid)
    (moved : next state action = some after) :
    after.starting tid ∨ after.dev.buffer.replayPending = true := by
  by_cases head : state.instr? action = some .queueWork
  · obtain ⟨other, env, rest, done, -, -, taken, rfl⟩ := next_instr head moved
    cases taken
    exact Or.inr rfl
  · exact Or.inl (starting_keeps starting head moved)

theorem playing_next (playing : state.playing) (moved : next state action = some after) :
    after.playing ∨
      (state.instr? action = some .lockReplayComplete ∧ after.dev.state.mode = .idle) := by
  rcases (carries_mayReturn (by decide) (by decide)).next playing moved with still | completed
  · exact Or.inl still
  · obtain ⟨-, instr, -, head, hit⟩ := completed
    obtain rfl : instr = .lockReplayComplete := by simpa [isReplayComplete] using hit
    obtain ⟨other, env, rest, done, -, -, taken, rfl⟩ := next_instr head moved
    cases taken
    exact Or.inr ⟨head, rfl⟩

/-- A pending item stays pending until the worker runs or it is cancelled. -/
theorem pending_next (pending : state.dev.buffer.replayPending = true)
    (moved : next state action = some after) :
    after.dev.buffer.replayPending = true ∨ (action = .startWork ∧ after.playing) ∨
      state.instr? action = some .cancelWorkSync := by
  cases action with
  | step tid env =>
    obtain ⟨instr, rest, done, code, taken, rfl⟩ := next_step.mp moved
    by_cases cancel : instr = .cancelWorkSync
    · exact Or.inr (Or.inr (by simp [State.instr?, code, cancel]))
    · left
      by_cases queue : instr = .queueWork
      · subst queue
        cases taken
        rfl
      · have untouched : Field.pending ∉ instr.writes := by
          cases instr <;> simp_all [Instr.writes]
        exact ((exec_frame taken).pending untouched).trans pending
  | startWork =>
    obtain ⟨-, rfl⟩ := next_startWork.mp moved
    refine Or.inr (Or.inl ⟨rfl, ?_⟩)
    simp only [State.playing, settle_code, Thread.code_begin]
    decide
  | call tid request =>
    obtain ⟨-, rfl⟩ := next_call.mp moved
    exact Or.inl pending
  | expire =>
    obtain ⟨-, rfl⟩ := next_expire.mp moved
    exact Or.inl pending
  | tick ns =>
    obtain rfl := next_tick.mp moved
    exact Or.inl pending
  | signal tid =>
    obtain ⟨-, rfl⟩ := next_signal.mp moved
    exact Or.inl pending

/-- The mode becomes `REPLAY` only with a start. -/
theorem replay_next (shape : Obeys startRule state) (before : state.dev.state.mode ≠ .replay)
    (moved : next state action = some after) (replay : after.dev.state.mode = .replay) :
    ∃ tid instr, state.instr? action = some instr ∧ StartsReplay state instr ∧
      after.starting tid := by
  rcases next_device moved with ⟨tid, env, instr, rest, done, rfl, code, taken, rfl⟩ | frame
  · have rule := obeys_head (code ▸ shape tid)
    cases exec_mode taken with
    | keep same => exact absurd (same.symm.trans replay) before
    | enter lock idle mode => simp [mode] at replay
    | start lock mode left =>
      refine ⟨tid, instr, instr?_step code, lock, ?_⟩
      simp only [State.starting, settle_code, left]
      rcases lock with ⟨rfl, -⟩ | ⟨rfl, -⟩ <;> exact rule
    | set stored lock mode =>
      subst lock
      simp only [settle_dev, mode] at replay
      simp [startRule, replay] at rule
    | complete lock mode => simp [mode] at replay
  · exact absurd ((frame.mode (by simp)).symm.trans replay) before

/-- A start can only be under way because it was, or because it just made its
transition. -/
theorem starting_of_next {tid : Tid} (owned : Owned state) (shape : Obeys startRule state)
    (moved : next state action = some after) (starting : after.starting tid) :
    state.starting tid ∨ ∃ instr, state.instr? action = some instr ∧ StartsReplay state instr := by
  have notWorker : tid ≠ .worker := by
    rintro rfl
    exact worker_not_starting (owned_next owned moved) starting
  cases moves owned notWorker moved with
  | still other same =>
    left
    simpa [State.starting, State.code, same] using starting
  | call request may code =>
    simp [State.starting, code, (entry_of_mayCall may).not_starting] at starting
  | expire timer code =>
    rw [State.starting, code] at starting
    exact absurd starting (by decide)
  | back actor code => simp [State.starting, code] at starting
  | step env instr rest done code taken left =>
    simp only [State.starting, settle_code, left] at starting
    by_cases lock : instr = .lockStartReplay ∨ instr = .lockInactivity
    · right
      refine ⟨instr, instr?_step code, ?_⟩
      by_contra rejected
      rw [← left, (exec_rejected lock rejected taken).2] at starting
      simp at starting
    · left
      have rule := obeys_head (code ▸ shape tid)
      have own : tid.runs instr = true := owned tid instr (by simp [code])
      have outside : instr ≠ .shouldStop ∧ instr ≠ .snapshot := by
        constructor <;> rintro rfl <;> cases tid <;> first | exact absurd rfl notWorker | cases own
      have stays : instr.mayReturn = false := by
        cases instr <;> simp_all [startRule, Instr.mayReturn]
      simp [State.starting, code, Instr.mayLeave, stays, outside, starting]

/-- No step of the worker opens the stretch before its completion. -/
theorem playing_of_step {instr : Instr} {rest reached : Code}
    (code : state.code .worker = instr :: rest) (own : instr.ofWorker = true)
    (rule : startRule instr rest = true) (left : Leaves state instr rest reached)
    (playing : commits Instr.mayReturn isReplayComplete reached = true) : state.playing := by
  have stays := Instr.ofWorker_stays own
  simp only [State.playing, code, commits_cons, stays, Bool.not_false, Bool.true_and,
    Bool.or_eq_true]
  cases left with
  | next => exact Or.inr playing
  | back returns => simp [stays] at returns
  | stop same =>
    subst same
    exact Or.inr rule
  | unroll same =>
    subst same
    exact Or.inr rule

/-- A run of the worker is under way because it was, or because the item has
just been picked up. -/
theorem playing_of_next (owned : Owned state) (shape : Obeys startRule state)
    (moved : next state action = some after) (playing : after.playing) :
    state.playing ∨ (action = .startWork ∧ state.dev.buffer.replayPending = true) := by
  cases worker_moves owned moved with
  | still other same =>
    left
    simpa [State.playing, State.code, same] using playing
  | start pending code => exact Or.inr ⟨rfl, pending⟩
  | step env instr rest done code taken own left =>
    simp only [State.playing, settle_code] at playing
    exact Or.inl (playing_of_step code own (obeys_head (code ▸ shape .worker)) left playing)

/-- A worker that is not in a run begins one only by picking up the item. -/
theorem not_playing_next (owned : Owned state) (shape : Obeys startRule state)
    (rests : ¬ state.playing) (moved : next state action = some after)
    (pick : action ≠ .startWork) : ¬ after.playing := fun runs =>
  (playing_of_next owned shape moved runs).elim rests fun picked => pick picked.1

theorem someStarting_of_queueWork (head : state.instr? action = some .queueWork) :
    state.someStarting := by
  cases action with
  | step tid env =>
    obtain ⟨rest, code⟩ := code_of_head head
    exact ⟨tid, by simp [State.starting, code, isQueueWork]⟩
  | _ => cases head

/-- After a start section that makes its transition the mode is `REPLAY`. -/
theorem startsReplay_next {instr : Instr} (head : state.instr? action = some instr)
    (lock : StartsReplay state instr) (moved : next state action = some after) :
    after.dev.state.mode = .replay := by
  obtain ⟨tid, env, rest, done, rfl, code, taken, rfl⟩ := next_instr head moved
  rcases lock with ⟨rfl, other⟩ | ⟨rfl, teach⟩
  · simp only [exec, other, ↓reduceIte] at taken
    cases taken
    rfl
  · simp only [exec, teach, ↓reduceIte] at taken
    cases taken
    rfl

end EchoRobot
