import EchoRobot.Replay.Start

/-! Replay mode and the work item that is to end it. A stop stores `IDLE` and
cancels the item later; a start that fits in between is left without its item. -/

namespace EchoRobot

open Interleaving

/-- The thread sleeps on, or re-checks, `wq_replay_done`. -/
def State.awaitsReplay (state : State) (tid : Tid) : Bool :=
  (state.code tid).head? == some .waitReplayDone

/-- No operation is in flight; a waiting writer does not count, and the worker
is looked at separately. -/
def State.quiet (state : State) : Prop :=
  ∀ tid, tid ≠ .worker → state.code tid = [] ∨ state.awaitsReplay tid = true

def NeverStranded (state : State) : Prop :=
  state.quiet → state.dev.state.mode = .replay → state.workBusy

/-- A cancellation does not take the item of a mode `REPLAY` that is in force,
unless another start is about to queue it again. -/
def CancelsNoReplay (state : State) (action : Action) : Prop :=
  state.instr? action = some .cancelWorkSync → state.dev.state.mode = .replay →
    state.dev.buffer.replayPending = true → state.someStarting

/-- While the mode is `REPLAY`, somebody is going to end it. -/
def ReplayCarried (state : State) : Prop :=
  state.dev.state.mode = .replay →
    state.dev.buffer.replayPending = true ∨ state.playing ∨ state.someStarting

theorem replayCarried_next {state after : State} {action : Action}
    (shape : Obeys startRule state) (carried : ReplayCarried state)
    (ok : CancelsNoReplay state action) (moved : next state action = some after) :
    ReplayCarried after := by
  intro replay
  have stillStarting : state.someStarting →
      after.dev.buffer.replayPending = true ∨ after.playing ∨ after.someStarting := by
    rintro ⟨tid, starting⟩
    rcases starting_next starting moved with still | queued
    · exact Or.inr (Or.inr ⟨tid, still⟩)
    · exact Or.inl queued
  by_cases before : state.dev.state.mode = .replay
  · rcases carried before with pending | playing | starting
    · rcases pending_next pending moved with still | ⟨-, playing⟩ | cancelled
      · exact Or.inl still
      · exact Or.inr (Or.inl playing)
      · exact stillStarting (ok cancelled before pending)
    · rcases playing_next playing moved with still | ⟨-, idle⟩
      · exact Or.inr (Or.inl still)
      · simp [idle] at replay
    · exact stillStarting starting
  · obtain ⟨tid, -, -, -, starting⟩ := replay_next shape before moved replay
    exact Or.inr (Or.inr ⟨tid, starting⟩)

theorem awaitsReplay_cons {state : State} {tid : Tid} (waiting : state.awaitsReplay tid = true) :
    ∃ rest, state.code tid = .waitReplayDone :: rest := by
  cases code : state.code tid with
  | nil => simp [State.awaitsReplay, code] at waiting
  | cons head rest =>
    obtain rfl : head = .waitReplayDone := by simpa [State.awaitsReplay, code] using waiting
    exact ⟨rest, rfl⟩

theorem not_starting_of_quiet {state : State} (quiet : state.quiet) {tid : Tid}
    (other : tid ≠ .worker) : ¬ state.starting tid := by
  intro starting
  rcases quiet tid other with empty | waiting
  · simp [State.starting, empty] at starting
  · obtain ⟨rest, code⟩ := awaitsReplay_cons waiting
    simp [State.starting, code, Instr.mayLeave, Instr.mayReturn, isQueueWork] at starting

theorem neverStranded_of_carried {state : State} (carried : ReplayCarried state) :
    NeverStranded state := by
  intro quiet replay
  have busy : ∀ leaves target, commits leaves target (state.code .worker) = true →
      state.idle .worker = false := by
    intro leaves target committed
    cases code : state.code .worker with
    | nil => simp [code] at committed
    | cons head rest => simp [State.idle, code]
  rcases carried replay with pending | playing | ⟨tid, starting⟩
  · exact Or.inl pending
  · exact Or.inr (busy _ _ playing)
  · by_cases other : tid = .worker
    · subst other
      exact Or.inr (busy _ _ starting)
    · exact absurd starting (not_starting_of_quiet quiet other)

variable {servo : EchoServoCtx} {clock : Nat} {actions : List Action} {state : State}

/-- In every run whose cancellations spare the replay in force, a quiet state
in mode `REPLAY` has the work item pending or running. -/
theorem replay_never_stranded
    (run : Run next CancelsNoReplay (State.initial servo clock) actions state) :
    NeverStranded state := by
  apply neverStranded_of_carried
  refine run.invariant ReplayCarried ?_ ?_
  · intro replay
    simp [State.initial, EchoDevice.initial] at replay
  · intro earlier before action after ran carried ok moved
    exact replayCarried_next (startRule_lawful.of_run ran.any) carried ok moved

/-- A stop, and then a replay that process 1 waits for. -/
def stopThenReplay : List Action :=
  [.call (.proc 0) (writeCmd echoCmdStop)] ++ steps (.proc 0) 10 ++
  [.call (.proc 1) (writeCmd echoCmdReplay)] ++ steps (.proc 1) 6

theorem replay_never_stranded_stopThenReplay :
    ∃ state, run next (State.initial simServo 0) stopThenReplay = some state ∧
      state.dev.state.mode = .replay ∧ NeverStranded state := by
  obtain ⟨state, ran, replay⟩ := exists_run next
    (fun state action =>
      state.instr? action != some .cancelWorkSync || state.dev.state.mode != .replay)
    (State.initial simServo 0) stopThenReplay
    (fun state => state.dev.state.mode == .replay) (by decide)
  have spares := ran.mono CancelsNoReplay fun state action passed cancel busy => by
    simp [cancel, busy] at passed
  exact ⟨state, ran.execution, by simpa using replay, replay_never_stranded spares⟩

/-- Process 0 stops; after its mode store process 1 starts a replay and waits;
then the stop goes on and cancels the new item. -/
def stopCrossesReplay : List Action :=
  [.call (.proc 0) (writeCmd echoCmdStop)] ++ steps (.proc 0) 2 ++
  [.call (.proc 1) (writeCmd echoCmdReplay)] ++ steps (.proc 1) 6 ++
  steps (.proc 0) 8 ++ steps (.proc 1) 2

theorem stopCrossesReplay_strands :
    ∃ state, run next (State.initial simServo 0) stopCrossesReplay = some state ∧
      ¬ NeverStranded state := by
  obtain ⟨state, ran, facts⟩ := exists_run next
    (movesOnly [.proc 0, .proc 1]) (State.initial simServo 0) stopCrossesReplay
    (fun state => state.idle (.proc 0) && state.idle (.proc 1) && state.idle .worker &&
      (state.dev.state.mode == .replay) && !state.dev.buffer.replayPending) (by decide)
  simp only [Bool.and_eq_true, beq_iff_eq, Bool.not_eq_true', State.idle,
    List.isEmpty_iff] at facts
  obtain ⟨⟨⟨⟨first, second⟩, worker⟩, replay⟩, pending⟩ := facts
  refine ⟨state, ran.execution, fun never => ?_⟩
  have quiet : state.quiet := by
    intro tid other
    left
    by_cases listed : tid ∈ [Tid.proc 0, Tid.proc 1]
    · simp only [List.mem_cons, List.not_mem_nil, or_false] at listed
      rcases listed with rfl | rfl <;> assumption
    · exact code_of_run [.proc 0, .proc 1] ran (fun _ _ moves => moves) listed
  rcases never quiet replay with busy | busy
  · simp [pending] at busy
  · simp [State.idle, worker] at busy

end EchoRobot
