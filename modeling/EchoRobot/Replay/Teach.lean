import EchoRobot.Replay.Start

/-! A request for `TEACH` and the replay it interrupts. The worker ends long
after the request and stores `IDLE` whatever the mode has become. -/

namespace EchoRobot

open Interleaving

/-- The step is a mode store of a stop, of a replay request or of the timer. -/
def endsTeach (state : State) (action : Action) : Bool :=
  match state.instr? action with
  | some (.lockSetMode .idle) | some .lockStartReplay | some .lockInactivity => true
  | _ => false

/-- The worker changes no mode but `REPLAY`, and a mode `TEACH` lasts until it
is ended from outside, as long as the steps are `allowed`. -/
structure TeachLasts (allowed : State → Action → Prop) (state : State) : Prop where
  worker : ∀ env after, next state (.step .worker env) = some after →
    after.dev.state.mode ≠ state.dev.state.mode → state.dev.state.mode = .replay
  lasts : ∀ later final,
    Run next (fun state action => allowed state action ∧ endsTeach state action = false)
      state later final →
    state.dev.state.mode = .teach → final.dev.state.mode = .teach

/-- The step makes the mode `TEACH`: a request, or the first input from `IDLE`. -/
def StoresTeach (state : State) (action : Action) : Prop :=
  state.instr? action = some (.lockSetMode .teach) ∨
    state.instr? action = some .lockHandleInput ∧ state.dev.state.mode = .idle

/-- Nothing of a replay is left: no item, no run before its completion, and no
start about to queue. -/
structure ReplayOver (state : State) : Prop where
  pending : state.dev.buffer.replayPending = false
  playing : ¬ state.playing
  starting : ¬ state.someStarting

def TeachesAfterReplay (state : State) (action : Action) : Prop :=
  StoresTeach state action → ReplayOver state

/-- `TEACH` is never in force together with a replay. -/
def TeachAlone (state : State) : Prop :=
  state.dev.state.mode = .teach → ReplayOver state

variable {state after : State} {action : Action}

/-- The mode becomes `TEACH` only by a step that stores it. -/
theorem storesTeach_of_next (before : state.dev.state.mode ≠ .teach)
    (moved : next state action = some after) (teach : after.dev.state.mode = .teach) :
    StoresTeach state action := by
  rcases next_device moved with ⟨tid, env, instr, rest, done, rfl, code, taken, rfl⟩ | frame
  · cases exec_mode taken with
    | keep same => exact absurd (same.symm.trans teach) before
    | enter lock idle => exact Or.inr ⟨by simp [State.instr?, code, lock], idle⟩
    | start lock mode => simp [mode] at teach
    | set stored lock mode =>
      obtain rfl : stored = .teach := mode.symm.trans teach
      exact Or.inl (by simp [State.instr?, code, lock])
    | complete lock mode => simp [mode] at teach
  · exact absurd ((frame.mode (by simp)).symm.trans teach) before

/-- Without a start nothing of a replay comes up again. -/
theorem replayOver_next (owned : Owned state) (shape : Obeys startRule state)
    (past : ReplayOver state)
    (starts : ∀ instr, state.instr? action = some instr → ¬ StartsReplay state instr)
    (moved : next state action = some after) : ReplayOver after where
  pending := by
    by_contra pending
    rcases replayPending_of_next moved (by simpa using pending) with before | queues
    · simp [past.pending] at before
    · exact past.starting (someStarting_of_queueWork queues)
  playing := by
    intro playing
    rcases playing_of_next owned shape moved playing with before | ⟨-, pending⟩
    · exact past.playing before
    · simp [past.pending] at pending
  starting := by
    rintro ⟨tid, starting⟩
    rcases starting_of_next owned shape moved starting with before | ⟨instr, head, lock⟩
    · exact past.starting ⟨tid, before⟩
    · exact starts instr head lock

theorem teachAlone_next (owned : Owned state) (shape : Obeys startRule state)
    (alone : TeachAlone state) (ok : TeachesAfterReplay state action)
    (moved : next state action = some after) : TeachAlone after := by
  intro teach
  have past : ReplayOver state := by
    by_cases before : state.dev.state.mode = .teach
    · exact alone before
    · exact ok (storesTeach_of_next before moved teach)
  refine replayOver_next owned shape past (fun instr head lock => ?_) moved
  have replay := startsReplay_next head lock moved
  simp [replay] at teach

/-- While `TEACH` is alone, only a stop, a start or the timer ends it. -/
theorem teach_next (owned : Owned state) (shape : Obeys startRule state)
    (alone : TeachAlone state) (moved : next state action = some after)
    (outside : endsTeach state action = false) (teach : state.dev.state.mode = .teach) :
    after.dev.state.mode = .teach := by
  rcases next_device moved with ⟨tid, env, instr, rest, done, rfl, code, taken, rfl⟩ | frame
  · have head : state.instr? (.step tid env) = some instr := by simp [State.instr?, code]
    have rule := obeys_head (code ▸ shape tid)
    simp only [endsTeach, head] at outside
    cases exec_mode taken with
    | keep same => exact same.trans teach
    | enter lock idle => simp [teach] at idle
    | start lock => rcases lock with ⟨rfl, -⟩ | ⟨rfl, -⟩ <;> simp at outside
    | set stored lock mode =>
      subst lock
      cases stored with
      | idle => simp at outside
      | teach => exact mode
      | replay => simp [startRule] at rule
    | complete lock =>
      subst lock
      have own := owned tid .lockReplayComplete (by simp [code])
      obtain rfl : tid = .worker := by cases tid <;> first | rfl | cases own
      exact absurd (by simp [State.playing, code, isReplayComplete]) (alone teach).playing
  · exact (frame.mode (by simp)).trans teach

theorem worker_changes_replay (owned : Owned state) (alone : TeachAlone state) {env : Env}
    (moved : next state (.step .worker env) = some after)
    (changed : after.dev.state.mode ≠ state.dev.state.mode) :
    state.dev.state.mode = .replay := by
  obtain ⟨instr, rest, done, code, taken, rfl⟩ := next_step.mp moved
  have own : instr.ofWorker = true := owned .worker instr (by simp [code])
  cases exec_mode taken with
  | keep same => exact absurd same changed
  | enter lock => subst lock; cases own
  | start lock => rcases lock with ⟨rfl, -⟩ | ⟨rfl, -⟩ <;> cases own
  | set stored lock => subst lock; cases own
  | complete lock mode =>
    subst lock
    cases before : state.dev.state.mode with
    | idle => exact absurd (mode.trans before.symm) changed
    | teach => exact absurd (by simp [State.playing, code, isReplayComplete]) (alone before).playing
    | replay => rfl

theorem teachAlone_of_run {start : State} {actions : List Action}
    (owned : Owned start) (shape : Obeys startRule start) (alone : TeachAlone start)
    (run : Run next TeachesAfterReplay start actions state) :
    Owned state ∧ Obeys startRule state ∧ TeachAlone state := by
  refine run.invariant (fun state => Owned state ∧ Obeys startRule state ∧ TeachAlone state)
    ⟨owned, shape, alone⟩ ?_
  rintro - before action after - ⟨owned, shape, alone⟩ ok moved
  exact ⟨owned_next owned moved, startRule_lawful.next shape moved,
    teachAlone_next owned shape alone ok moved⟩

variable {servo : EchoServoCtx} {clock : Nat} {actions : List Action}

/-- In every run that makes the mode `TEACH` only when no replay is left, the
worker changes no mode but `REPLAY` and `TEACH` lasts until it is ended. -/
theorem teach_survives_replay
    (run : Run next TeachesAfterReplay (State.initial servo clock) actions state) :
    TeachLasts TeachesAfterReplay state := by
  obtain ⟨owned, shape, alone⟩ := teachAlone_of_run (owned_initial servo clock) (fun _ => rfl)
    (fun teach => by simp [State.initial, EchoDevice.initial] at teach) run
  refine ⟨fun env after moved => worker_changes_replay owned alone moved, ?_⟩
  intro later final rest teach
  induction rest with
  | refl => exact teach
  | step before ok moved ih =>
    have reached := before.mono TeachesAfterReplay fun _ _ ok => ok.1
    obtain ⟨owned, shape, alone⟩ := teachAlone_of_run owned shape alone reached
    exact teach_next owned shape alone moved ok.2 ih

/-- A complete `SET_MODE(TEACH)`. -/
def teachRequest : List Action :=
  [.call (.proc 0) (.ioctl (.setMode (some 1)))] ++ steps (.proc 0) 9

/-- One recorded move is being replayed: the worker is inside its sleep. -/
def replayingOneMove : List Action :=
  [.call (.irq 0) (.input .up)] ++ steps (.irq 0) 10 ++
  [.call (.proc 1) (writeCmd echoCmdReplay)] ++ steps (.proc 1) 6 ++
  [.startWork] ++ steps .worker 5

/-- The replay comes to its end, and then `TEACH` is asked for. -/
def teachAfterReplay : List Action :=
  replayingOneMove ++ steps .worker 8 ++ steps (.proc 1) 2 ++ teachRequest

/-- Nothing of a replay is left among the threads that move. -/
def replayOver (tids : List Tid) (state : State) : Bool :=
  !state.dev.buffer.replayPending &&
    !commits Instr.mayReturn isReplayComplete (state.code .worker) &&
    tids.all fun tid => !commits Instr.mayLeave isQueueWork (state.code tid)

def storesTeach (state : State) (action : Action) : Bool :=
  state.instr? action == some (.lockSetMode .teach) ||
    state.instr? action == some .lockHandleInput && state.dev.state.mode == .idle

theorem replayOver_sound {tids : List Tid} (past : replayOver tids state = true)
    (idle : ∀ tid ∉ tids, state.code tid = []) : ReplayOver state := by
  simp only [replayOver, Bool.and_eq_true, Bool.not_eq_true', List.all_eq_true] at past
  obtain ⟨⟨pending, played⟩, queued⟩ := past
  refine ⟨pending, by simp [State.playing, played], ?_⟩
  rintro ⟨tid, starting⟩
  by_cases moves : tid ∈ tids
  · simp [State.starting, queued tid moves] at starting
  · simp [State.starting, idle tid moves] at starting

theorem teach_survives_replay_teachAfterReplay :
    ∃ state, run next (State.initial simServo 0) teachAfterReplay = some state ∧
      state.dev.buffer.replayCount = 1 ∧ state.dev.state.mode = .teach ∧
      TeachLasts TeachesAfterReplay state := by
  obtain ⟨state, ran, facts⟩ := exists_run next
    (fun state action => movesOnly [.irq 0, .proc 0, .proc 1, .worker] state action &&
      (!storesTeach state action || replayOver [.irq 0, .proc 0, .proc 1, .worker] state))
    (State.initial simServo 0) teachAfterReplay
    (fun state => state.dev.buffer.replayCount == 1 && state.dev.state.mode == .teach) (by decide)
  have past := ran.strengthen TeachesAfterReplay <| by
    intro earlier state action before passed store
    simp only [Bool.and_eq_true, Bool.or_eq_true, Bool.not_eq_true'] at passed
    have stores : storesTeach state action = true := by
      rcases store with store | ⟨store, idle⟩ <;> simp [storesTeach, *]
    refine replayOver_sound (passed.2.resolve_left (by simp [stores])) ?_
    exact fun tid outside => code_of_run _ before
      (fun _ _ passed => by simp only [Bool.and_eq_true] at passed; exact passed.1) outside
  simp only [Bool.and_eq_true, beq_iff_eq] at facts
  exact ⟨state, ran.execution, facts.1, facts.2, teach_survives_replay past⟩

/-- The replay is then interrupted by a complete `SET_MODE(TEACH)`. -/
def teachDuringReplay : List Action :=
  replayingOneMove ++ [.call (.proc 0) (.ioctl (.setMode (some 1)))] ++ steps (.proc 0) 9

theorem teachDuringReplay_lost :
    ∃ state, run next (State.initial simServo 0) teachDuringReplay = some state ∧
      (state.thread (.proc 0)).result = some 0 ∧ state.dev.state.mode = .teach ∧
      ¬ TeachLasts anyStep state := by
  obtain ⟨state, ran, facts⟩ := exists_run next (fun _ _ => true)
    (State.initial simServo 0) teachDuringReplay
    (fun state => (state.thread (.proc 0)).result == some 0 &&
      state.dev.state.mode == .teach &&
      (run (guarded (fun state action => !endsTeach state action) next) state
        (steps .worker 5)).any (·.dev.state.mode == .idle)) (by decide)
  simp only [Bool.and_eq_true, beq_iff_eq] at facts
  obtain ⟨⟨result, teach⟩, lost⟩ := facts
  refine ⟨state, ran.execution, result, teach, fun lasts => ?_⟩
  obtain ⟨final, later, idle⟩ := exists_run _ _ _ _ _ lost
  have stays := lasts.lasts _ final
    (later.mono _ fun _ _ passed => ⟨trivial, by simpa using passed⟩) teach
  simp [stays] at idle

end EchoRobot
