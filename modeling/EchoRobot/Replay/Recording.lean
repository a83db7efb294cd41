import EchoRobot.Replay.Teach

/-! Which recording a replay plays. A worker run takes one snapshot and then
looks at nothing but the mode, which may have left `REPLAY` and come back. -/

namespace EchoRobot

open Interleaving

/-- `fresh` says that the worker run under way took its snapshot since the last
start; `since` lists the recording as it was at that start and at every step
after it. -/
structure Recordings where
  fresh : Bool
  since : List (List EchoMove)

def Recordings.initial : Recordings := ⟨false, []⟩

/-- The step makes a replay start. -/
def startsReplay (state : State) (action : Action) : Bool :=
  match state.instr? action with
  | some .lockStartReplay => state.dev.state.mode != .replay
  | some .lockInactivity => state.dev.state.mode == .teach
  | _ => false

def Recordings.update (recordings : Recordings) (state : State) (action : Action)
    (after : State) : Recordings :=
  if startsReplay state action then ⟨false, [after.dev.buffer.moveFifo]⟩
  else
    ⟨match action with
      | .startWork => false
      | .step _ env =>
        (state.instr? action == some .snapshot && env.allocated) || recordings.fresh
      | _ => recordings.fresh,
      recordings.since ++ [after.dev.buffer.moveFifo]⟩

abbrev nextRecordings := withHistory next Recordings.update

/-- The move is one of the recording at or after the last start. -/
def Recordings.contain (recordings : Recordings) (servoId angle : Nat) : Prop :=
  ∃ recording ∈ recordings.since, ∃ move ∈ recording,
    move.servoId = servoId ∧ move.angle = angle

/-- In mode `REPLAY` the worker moves servos only by the recording of this
replay, and the mode is left only by an explicit change or by a worker run that
took its snapshot for this replay. -/
structure PlaysOwn (pair : State × Recordings) : Prop where
  move : pair.1.dev.state.mode = .replay → ∀ env servoId angle,
    pair.1.instr? (.step .worker env) = some (.setAngle servoId angle) →
    pair.2.contain servoId angle
  ends : pair.1.dev.state.mode = .replay → ∀ action after, next pair.1 action = some after →
    after.dev.state.mode ≠ .replay →
    (∃ mode, pair.1.instr? action = some (.lockSetMode mode)) ∨
      (∃ env, action = .step .worker env) ∧ pair.2.fresh = true

/-- A replay starts only while no worker run stands between its snapshot and its
completion, and a worker run has the memory for its snapshot in mode `REPLAY`. -/
structure StartsBetweenRuns (state : State) (action : Action) : Prop where
  starts : startsReplay state action = true → state.playing →
    (state.code .worker).head? = some .snapshot
  allocates : ∀ env, action = .step .worker env → state.instr? action = some .snapshot →
    state.dev.state.mode = .replay → env.allocated = true

/-- What the worker has before it in mode `REPLAY`. -/
structure Playing (pair : State × Recordings) : Prop where
  moves : ∀ servoId angle, .setAngle servoId angle ∈ pair.1.code .worker →
    pair.2.contain servoId angle
  fresh : pair.1.playing → (pair.1.code .worker).head? = some .snapshot ∨ pair.2.fresh = true

variable {pair after : State × Recordings} {action : Action}

/-- Moves stand before the worker only between its snapshot and its completion. -/
theorem move_ahead {state : State} {servoId angle : Nat} (shape : WorkerCode (state.code .worker))
    (ahead : .setAngle servoId angle ∈ state.code .worker) :
    state.playing ∧ (state.code .worker).head? ≠ some .snapshot := by
  unfold State.playing
  generalize state.code .worker = code at *
  cases shape with
  | tail suffix => exact absurd (suffix.subset ahead) (by simp [replayWorker, bufOpReplayDone,
      signalReplayDone, notifyReaders])
  | loop moves left suffix =>
    have loop := fun instr member => replayLoop_ofLoop moves instr (suffix.subset member)
    refine ⟨commits_loop loop (by decide), ?_⟩
    cases left with
    | nil => exact absurd ahead (by simp [bufOpReplayDone, signalReplayDone, notifyReaders])
    | cons head left =>
      intro same
      obtain rfl : head = .snapshot := by simpa using same
      exact absurd (replayLoop_ofLoop moves .snapshot (suffix.subset (by simp))) (by decide)

theorem contain_append {recordings : Recordings} {servoId angle : Nat} {fresh : Bool}
    {more : List (List EchoMove)} (contain : recordings.contain servoId angle) :
    Recordings.contain ⟨fresh, recordings.since ++ more⟩ servoId angle := by
  obtain ⟨recording, member, found⟩ := contain
  exact ⟨recording, by simp [member], found⟩

theorem mem_fifo_of_snapshot {state : State} {tid : Tid} {env : Env} {rest : Code}
    {done : EchoDevice × Thread} {move : EchoMove}
    (taken : exec state tid env .snapshot rest = some done)
    (member : move ∈ replaySnapshot state.dev.buffer.moveFifo) :
    move ∈ done.1.buffer.moveFifo := by
  simp only [exec] at taken
  split at taken <;> cases taken
  · exact List.mem_append_right _ member
  · exact mem_of_mem_replaySnapshot member

theorem startsReplay_of {state : State} {instr : Instr} (head : state.instr? action = some instr)
    (lock : StartsReplay state instr) : startsReplay state action = true := by
  rcases lock with ⟨rfl, other⟩ | ⟨rfl, teach⟩
  · simpa [startsReplay, head] using other
  · simpa [startsReplay, head] using teach

theorem not_startsReplay (replay : pair.1.dev.state.mode = .replay) :
    startsReplay pair.1 action = false := by
  unfold startsReplay
  split <;> simp [replay]

/-- At its start a replay finds no move of an older run before the worker. -/
theorem playing_start (owned : Owned pair.1) (shape : WorkerCode (pair.1.code .worker))
    (ok : StartsBetweenRuns pair.1 action) (moved : next pair.1 action = some after.1)
    {instr : Instr} (head : pair.1.instr? action = some instr)
    (lock : StartsReplay pair.1 instr) : Playing after := by
  have between := ok.starts (startsReplay_of head lock)
  have still : after.1.code .worker = pair.1.code .worker := by
    refine congrArg Thread.code (thread_next ?_ moved)
    obtain ⟨tid, env, rest, done, rfl, code, -, -⟩ := next_instr head moved
    have own := owned tid instr (by simp [code])
    rintro ⟨⟩
    rcases lock with ⟨rfl, -⟩ | ⟨rfl, -⟩ <;> cases own
  constructor
  · intro servoId angle ahead
    rw [still] at ahead
    obtain ⟨playing, past⟩ := move_ahead shape ahead
    exact absurd (between playing) past
  · intro playing
    rw [State.playing, still] at playing
    exact Or.inl (still ▸ between playing)

/-- In mode `REPLAY` a worker step leaves the moves it found, or those of the
snapshot it takes. -/
theorem setAngle_left {state : State} {env : Env} {instr : Instr} {rest : Code}
    {done : EchoDevice × Thread} {servoId angle : Nat} (replay : state.dev.state.mode = .replay)
    (own : instr.ofWorker = true) (taken : exec state .worker env instr rest = some done)
    (ahead : .setAngle servoId angle ∈ done.2.code) :
    .setAngle servoId angle ∈ rest ∨
      ∃ move ∈ done.1.buffer.moveFifo, move.servoId = servoId ∧ move.angle = angle := by
  have left := exec_code taken
  generalize done.2.code = reached at left ahead
  cases left with
  | next => exact Or.inl ahead
  | back returns => simp [Instr.ofWorker_stays own] at returns
  | stop same other => exact absurd replay other
  | unroll same =>
    subst same
    rcases List.mem_append.mp ahead with loop | later
    · obtain ⟨move, inside, same⟩ := setAngle_replayLoop loop
      exact Or.inr ⟨move, mem_fifo_of_snapshot taken inside, same⟩
    · exact Or.inl later

/-- A step within a replay keeps what the worker plays. -/
theorem playing_step (owned : Owned pair.1) (shape : Obeys startRule pair.1)
    (playing : Playing pair) (replay : pair.1.dev.state.mode = .replay)
    (ok : StartsBetweenRuns pair.1 action) (moved : nextRecordings pair action = some after) :
    Playing after := by
  obtain ⟨stepped, history⟩ := withHistory_some.mp moved
  obtain ⟨reached, recordings⟩ := after
  dsimp only at stepped history
  simp only [Recordings.update, not_startsReplay replay, Bool.false_eq_true, ↓reduceIte] at history
  subst history
  cases worker_moves owned stepped with
  | still other same =>
    have code : reached.code .worker = pair.1.code .worker := congrArg Thread.code same
    constructor
    · intro servoId angle ahead
      rw [code] at ahead
      exact contain_append (playing.moves servoId angle ahead)
    · intro runs
      rw [State.playing, code] at runs
      rw [code]
      refine (playing.fresh runs).imp_right fun fresh => ?_
      cases action with
      | startWork => exact absurd rfl other
      | _ => simp [fresh]
  | start pending code =>
    constructor
    · intro servoId angle ahead
      rw [code] at ahead
      exact absurd ahead (by simp [replayWorker, bufOpReplayDone, signalReplayDone, notifyReaders])
    · rintro -
      exact Or.inl (by rw [code]; rfl)
  | step env instr rest done code taken own left =>
    constructor
    · intro servoId angle ahead
      simp only [settle_code] at ahead
      rcases setAngle_left replay own taken ahead with later | found
      · exact contain_append (playing.moves servoId angle (by simp [code, later]))
      · exact ⟨_, by simp, found⟩
    · intro runs
      simp only [State.playing, settle_code] at runs
      have before := playing_of_step code own (obeys_head (code ▸ shape .worker)) left runs
      have head : pair.1.instr? (.step .worker env) = some instr := instr?_step code
      rcases playing.fresh before with first | fresh
      · obtain rfl : instr = .snapshot := by simpa [code] using first
        exact Or.inr (by simp [head, ok.allocates env rfl head replay])
      · exact Or.inr (by simp [fresh])

variable {servo : EchoServoCtx} {clock : Nat} {actions : List Action}

/-- In every run whose replays start between worker runs, which find the memory they
ask for, each replay plays its own recording and is ended by its own worker run. -/
theorem replay_plays_own
    (run : Run nextRecordings (fun pair action => StartsBetweenRuns pair.1 action)
      (State.initial servo clock, Recordings.initial) actions pair) : PlaysOwn pair := by
  have playing : pair.1.dev.state.mode = .replay → Playing pair := by
    refine run.invariant (fun pair => pair.1.dev.state.mode = .replay → Playing pair) ?_ ?_
    · intro replay
      simp [State.initial, EchoDevice.initial] at replay
    · intro earlier before action after ran playing ok moved replay
      have owned := owned_of_run ran.forget.any
      have shape := startRule_lawful.of_run ran.forget.any
      have moved' := (withHistory_some.mp moved).1
      by_cases stays : before.1.dev.state.mode = .replay
      · exact playing_step owned shape (playing stays) stays ok moved
      · obtain ⟨-, instr, head, lock, -⟩ := replay_next shape stays moved' replay
        exact playing_start owned (workerCode_of_run ran.forget.any) ok moved' head lock
  have owned := owned_of_run run.forget.any
  constructor
  · intro replay env servoId angle head
    obtain ⟨rest, code⟩ := code_of_head head
    exact (playing replay).moves servoId angle (by simp [code])
  · intro replay action after moved left
    rcases next_device moved with ⟨tid, env, instr, rest, done, rfl, code, taken, rfl⟩ | frame
    · cases exec_mode taken with
      | keep same => exact absurd (same.trans replay) left
      | enter lock idle => simp [replay] at idle
      | start lock mode => exact absurd mode left
      | set mode lock => exact Or.inl ⟨mode, by rw [instr?_step code, lock]⟩
      | complete lock =>
        right
        subst lock
        have own := owned tid .lockReplayComplete (by simp [code])
        obtain rfl : tid = .worker := by cases tid <;> first | rfl | cases own
        have runs : pair.1.playing := by simp [State.playing, code, isReplayComplete]
        rcases (playing replay).fresh runs with first | fresh
        · simp [code] at first
        · exact ⟨⟨env, rfl⟩, fresh⟩
    · exact absurd ((frame.mode (by simp)).trans replay) left

/-- The kernel has memory in this step. -/
def Action.allocates : Action → Bool
  | .step _ env => env.allocated
  | _ => true

theorem replay_plays_own_oneMove :
    ∃ pair, run nextRecordings (State.initial simServo 0, Recordings.initial)
        (replayingOneMove ++ steps .worker 1) = some pair ∧
      pair.1.dev.state.mode = .replay ∧
      pair.1.instr? (.step .worker Env.good) = some (.setAngle echoServoTilt 95) ∧
      PlaysOwn pair := by
  obtain ⟨pair, ran, facts⟩ := exists_run nextRecordings
    (fun pair action => (!startsReplay pair.1 action || pair.1.idle .worker) && action.allocates)
    (State.initial simServo 0, Recordings.initial) (replayingOneMove ++ steps .worker 1)
    (fun pair => pair.1.dev.state.mode == .replay &&
      pair.1.instr? (.step .worker Env.good) == some (.setAngle echoServoTilt 95)) (by decide)
  have between := ran.mono (fun pair action => StartsBetweenRuns pair.1 action) <| by
    intro pair action passed
    simp only [Bool.and_eq_true, Bool.or_eq_true, Bool.not_eq_true'] at passed
    constructor
    · intro starts playing
      have idle : pair.1.code .worker = [] := by simpa [starts, State.idle] using passed.1
      simp [State.playing, idle] at playing
    · rintro env rfl - -
      exact passed.2
  simp only [Bool.and_eq_true, beq_iff_eq] at facts
  exact ⟨pair, ran.execution, facts.1, facts.2, replay_plays_own between⟩

/-- While the worker sleeps, the replay is left for `TEACH`, which clears the
recording, and another replay is started. -/
def replayWithinSleep : List Action :=
  teachDuringReplay ++ [.call (.proc 0) (.ioctl (.setMode (some 2)))] ++ steps (.proc 0) 6 ++
  steps .worker 1

theorem replayWithinSleep_playsStale :
    ∃ pair, run nextRecordings (State.initial simServo 0, Recordings.initial) replayWithinSleep =
      some pair ∧ ¬ PlaysOwn pair := by
  obtain ⟨pair, ran, facts⟩ := exists_run nextRecordings (fun _ _ => true)
    (State.initial simServo 0, Recordings.initial) replayWithinSleep
    (fun pair => pair.1.dev.state.mode == .replay &&
      pair.1.instr? (.step .worker Env.good) == some (.setAngle echoServoTilt 95) &&
      pair.2.since.all List.isEmpty) (by decide)
  simp only [Bool.and_eq_true, beq_iff_eq, List.all_eq_true, List.isEmpty_iff] at facts
  obtain ⟨⟨replay, head⟩, empty⟩ := facts
  refine ⟨pair, ran.execution, fun own => ?_⟩
  obtain ⟨recording, member, move, inside, -⟩ := own.move replay Env.good _ _ head
  simp [empty recording member] at inside

end EchoRobot
