import EchoRobot.Replay.Stranding
import EchoRobot.Replay.Teach

/-! A teach session and its inactivity timer. The mode changes under its lock, and the
timer is armed or deleted after it; a delete may come when the session it was meant
for is over and another one has armed the timer. -/

namespace EchoRobot

open Interleaving

def isModTimer (instr : Instr) : Bool := instr == .modTimer

/-- The thread is about to arm the timer. -/
def State.arming (state : State) (tid : Tid) : Prop :=
  commits Instr.mayLeave isModTimer (state.code tid) = true

/-- The timer callback has begun and is going to look at the mode. -/
def State.expired (state : State) : Prop :=
  (state.code .timer).head? = some .lockInactivity

def AlwaysTimed (state : State) : Prop :=
  state.quiet → state.dev.state.mode = .teach → state.dev.state.timerPending = true

/-- A delete does not take the timer of a session in force, unless somebody is about
to arm it again. -/
def DeletesNoSession (state : State) (action : Action) : Prop :=
  state.instr? action = some .timerDeleteSync → state.dev.state.mode = .teach →
    state.dev.state.timerPending = true → ∃ tid, state.arming tid

/-- In mode `TEACH`, the timer is pending, about to be armed, or past its expiry. -/
def SessionTimed (state : State) : Prop :=
  state.dev.state.mode = .teach →
    state.dev.state.timerPending = true ∨ (∃ tid, state.arming tid) ∨ state.expired

/-- The sections that begin a session are followed by `mod_timer`. -/
def timerRule : Instr → Code → Bool
  | .lockHandleInput, rest | .lockSetMode .teach, rest => commits Instr.mayLeave isModTimer rest
  | _, _ => true

theorem timerRule_lawful : CodeRule timerRule where
  entry tid code entry := by
    cases entry with
    | read id nonblock count => cases nonblock <;> rfl
    | input id pin => cases pin <;> rfl
    | _ => rfl
  timer := by decide
  worker := by decide
  stop := by decide
  unroll moves rest shape := by
    refine obeys_replayLoop (fun instr before own loop => ?_) (obeys_tail shape)
    cases instr <;> first | rfl | cases own

variable {state after : State} {action : Action}

theorem arming_next {tid : Tid} (arming : state.arming tid)
    (moved : next state action = some after) :
    after.arming tid ∨ after.dev.state.timerPending = true := by
  rcases (carries_mayLeave (by decide)).next arming moved with still | armed
  · exact Or.inl still
  · obtain ⟨-, instr, -, head, hit⟩ := armed
    obtain rfl : instr = .modTimer := by simpa [isModTimer] using hit
    obtain ⟨other, env, rest, done, -, -, taken, rfl⟩ := next_instr head moved
    cases taken
    exact Or.inr rfl

/-- A pending timer stays pending until it expires or is deleted. -/
theorem timerPending_next (pending : state.dev.state.timerPending = true)
    (moved : next state action = some after) :
    after.dev.state.timerPending = true ∨ after.expired ∨
      state.instr? action = some .timerDeleteSync := by
  cases action with
  | step tid env =>
    obtain ⟨instr, rest, done, code, taken, rfl⟩ := next_step.mp moved
    by_cases deletes : instr = .timerDeleteSync
    · exact Or.inr (Or.inr (by simp [State.instr?, code, deletes]))
    · left
      by_cases arms : instr = .modTimer
      · subst arms
        cases taken
        rfl
      · have untouched : Field.timer ∉ instr.writes := by
          cases instr <;> simp_all [Instr.writes]
        exact ((exec_frame taken).timer untouched).trans pending
  | expire =>
    obtain ⟨-, rfl⟩ := next_expire.mp moved
    exact Or.inr (Or.inl (by simp [State.expired, inactivityTimerFn]))
  | startWork =>
    obtain ⟨-, rfl⟩ := next_startWork.mp moved
    exact Or.inl pending
  | call tid request =>
    obtain ⟨-, rfl⟩ := next_call.mp moved
    exact Or.inl pending
  | tick ns =>
    obtain rfl := next_tick.mp moved
    exact Or.inl pending
  | signal tid =>
    obtain ⟨-, rfl⟩ := next_signal.mp moved
    exact Or.inl pending

/-- The callback ends the session it finds. -/
theorem expired_next (expired : state.expired) (teach : state.dev.state.mode = .teach)
    (moved : next state action = some after) :
    after.expired ∨ after.dev.state.mode = .replay := by
  obtain ⟨rest, code⟩ := List.head?_eq_some_iff.mp expired
  rcases stands_next code (by decide) moved with still | ⟨env, rfl⟩
  · exact Or.inl (by simp [State.expired, still])
  · right
    obtain ⟨instr, rest', done, code', taken, rfl⟩ := next_step.mp moved
    obtain ⟨rfl, rfl⟩ := List.cons.inj (code'.symm.trans code)
    simp only [exec, teach, ↓reduceIte] at taken
    cases taken
    rfl

/-- Who begins a session is about to arm the timer. -/
theorem arming_of_storesTeach (shape : Obeys timerRule state) (stores : StoresTeach state action)
    (moved : next state action = some after) : ∃ tid, after.arming tid := by
  rcases stores with head | ⟨head, idle⟩
  · obtain ⟨tid, env, rest, done, rfl, code, taken, rfl⟩ := next_instr head moved
    have rule : commits Instr.mayLeave isModTimer rest = true := obeys_head (code ▸ shape tid)
    cases taken
    exact ⟨tid, by simpa [State.arming] using rule⟩
  · obtain ⟨tid, env, rest, done, rfl, code, taken, rfl⟩ := next_instr head moved
    have rule : commits Instr.mayLeave isModTimer rest = true := obeys_head (code ▸ shape tid)
    simp only [exec, idle] at taken
    cases taken
    exact ⟨tid, by simpa [State.arming] using rule⟩

theorem sessionTimed_next (shape : Obeys timerRule state) (timed : SessionTimed state)
    (ok : DeletesNoSession state action) (moved : next state action = some after) :
    SessionTimed after := by
  intro teach
  have stillArming : (∃ tid, state.arming tid) →
      after.dev.state.timerPending = true ∨ (∃ tid, after.arming tid) ∨ after.expired := by
    rintro ⟨tid, arming⟩
    rcases arming_next arming moved with still | armed
    · exact Or.inr (Or.inl ⟨tid, still⟩)
    · exact Or.inl armed
  by_cases before : state.dev.state.mode = .teach
  · rcases timed before with pending | arming | expired
    · rcases timerPending_next pending moved with still | expired | deleted
      · exact Or.inl still
      · exact Or.inr (Or.inr expired)
      · exact stillArming (ok deleted before pending)
    · exact stillArming arming
    · rcases expired_next expired before moved with still | replay
      · exact Or.inr (Or.inr still)
      · simp [replay] at teach
  · have stores := storesTeach_of_next before moved teach
    exact Or.inr (Or.inl (arming_of_storesTeach shape stores moved))

/-- The worker arms no timer. -/
theorem not_arming_worker (owned : Owned state) : ¬ state.arming .worker := by
  intro arming
  obtain ⟨instr, member, hit⟩ := commits_mem arming
  obtain rfl : instr = .modTimer := by simpa [isModTimer] using hit
  exact absurd (owned .worker _ member) (by decide)

theorem alwaysTimed_of_timed (owned : Owned state) (timed : SessionTimed state) :
    AlwaysTimed state := by
  intro quiet teach
  rcases timed teach with pending | ⟨tid, arming⟩ | expired
  · exact pending
  · have other : tid ≠ .worker := by
      rintro rfl
      exact not_arming_worker owned arming
    rcases quiet tid other with empty | waiting
    · simp [State.arming, empty] at arming
    · obtain ⟨rest, code⟩ := awaitsReplay_cons waiting
      simp [State.arming, code, Instr.mayLeave, Instr.mayReturn, isModTimer] at arming
  · rcases quiet .timer (by decide) with empty | waiting
    · simp [State.expired, empty] at expired
    · obtain ⟨rest, code⟩ := awaitsReplay_cons waiting
      simp [State.expired, code] at expired

variable {servo : EchoServoCtx} {clock : Nat} {actions : List Action}

/-- In every run whose deletes spare the session in force, a quiet state in mode
`TEACH` has the inactivity timer pending. -/
theorem session_always_timed
    (run : Run next DeletesNoSession (State.initial servo clock) actions state) :
    AlwaysTimed state := by
  refine alwaysTimed_of_timed (owned_of_run run.any) (run.invariant SessionTimed ?_ ?_)
  · intro teach
    simp [State.initial, EchoDevice.initial] at teach
  · intro earlier before action after ran timed ok moved
    exact sessionTimed_next (timerRule_lawful.of_run ran.any) timed ok moved

/-- A joystick step begins a session, a stop ends it, and a request begins another. -/
def teachAfterStop : List Action :=
  [.call (.irq 0) (.input .up)] ++ steps (.irq 0) 10 ++
  [.call (.proc 0) (writeCmd echoCmdStop)] ++ steps (.proc 0) 10 ++ teachRequest

theorem session_always_timed_teachAfterStop :
    ∃ state, run next (State.initial simServo 0) teachAfterStop = some state ∧
      state.dev.state.mode = .teach ∧ state.quiet ∧ AlwaysTimed state := by
  obtain ⟨state, ran, facts⟩ := exists_run next
    (fun state action => movesOnly [.irq 0, .proc 0] state action &&
      (state.instr? action != some .timerDeleteSync || state.dev.state.mode != .teach))
    (State.initial simServo 0) teachAfterStop
    (fun state => state.dev.state.mode == .teach && [Tid.irq 0, .proc 0].all state.idle) (by decide)
  simp only [Bool.and_eq_true, beq_iff_eq] at facts
  have spares := ran.mono DeletesNoSession fun state action passed deletes teach => by
    simp [deletes, teach] at passed
  have quiet : state.quiet := fun tid _ => Or.inl <| returned_of_run [.irq 0, .proc 0] ran
    (fun _ _ passed => (Bool.and_eq_true_iff.mp passed).1) facts.2 tid
  exact ⟨state, ran.execution, facts.1, quiet, session_always_timed spares⟩

/-- Process 1 stops; after its mode store process 0 begins a session, whose timer the
stop then deletes. -/
def teachCrossesStop : List Action :=
  [.call (.proc 1) (writeCmd echoCmdStop)] ++ steps (.proc 1) 1 ++ teachRequest ++
  steps (.proc 1) 9

theorem teachCrossesStop_untimed :
    ∃ state, run next (State.initial simServo 0) teachCrossesStop = some state ∧
      state.quiet ∧ state.dev.state.mode = .teach ∧ state.dev.state.timerPending = false ∧
      ¬ AlwaysTimed state := by
  obtain ⟨state, ran, facts⟩ := exists_run next (movesOnly [.proc 0, .proc 1])
    (State.initial simServo 0) teachCrossesStop
    (fun state => state.dev.state.mode == .teach && !state.dev.state.timerPending &&
      [Tid.proc 0, .proc 1].all state.idle) (by decide)
  simp only [Bool.and_eq_true, beq_iff_eq, Bool.not_eq_true'] at facts
  obtain ⟨⟨teach, unarmed⟩, returned⟩ := facts
  have quiet : state.quiet := fun tid _ => Or.inl <|
    returned_of_run [.proc 0, .proc 1] ran (fun _ _ moves => moves) returned tid
  refine ⟨state, ran.execution, quiet, teach, unarmed, fun timed => ?_⟩
  simp [timed quiet teach] at unarmed

end EchoRobot
