import EchoRobot.Replay.Start

/-! Joystick input and replay. The mode is tested once, at the beginning of a
joystick step; what the step does to the device comes after the lock is released. -/

namespace EchoRobot

open Interleaving

/-- A servo move, a record, a count or an arming of the timer. -/
def Instr.inputEffect : Instr → Bool
  | .moveServo _ | .recordMove _ | .incTotalMoves | .modTimer => true
  | _ => false

/-- No effect of a joystick step takes place in mode `REPLAY`. -/
def InputMuted (state : State) : Prop :=
  ∀ id env instr after, state.instr? (.step (.irq id) env) = some instr →
    instr.inputEffect = true → next state (.step (.irq id) env) = some after →
    state.dev.state.mode ≠ .replay

/-- The joystick step has passed its test and has an effect before it. -/
def State.inputUnderWay (state : State) (id : Nat) : Prop :=
  commits Instr.mayReturn Instr.inputEffect (state.code (.irq id)) = true

/-- The mode becomes `REPLAY` only between joystick steps. -/
def StartsBetweenInputs (state : State) (action : Action) : Prop :=
  ∀ instr, state.instr? action = some instr → StartsReplay state instr →
    ∀ id, ¬ state.inputUnderWay id

def ReplayMutes (state : State) : Prop :=
  state.dev.state.mode = .replay → ∀ id, ¬ state.inputUnderWay id

variable {state after : State} {action : Action}

/-- A joystick step is under way because it was, or because its test passed. -/
theorem inputUnderWay_of_next {id : Nat} (owned : Owned state)
    (moved : next state action = some after) (underWay : after.inputUnderWay id) :
    state.inputUnderWay id ∨
      state.instr? action = some .lockHandleInput ∧ state.dev.state.mode ≠ .replay := by
  have other : Tid.irq id ≠ .worker := by simp
  cases moves owned other moved with
  | still other same =>
    left
    simpa [State.inputUnderWay, State.code, same] using underWay
  | call request may code =>
    cases request with
    | input pin =>
      rw [State.inputUnderWay, code] at underWay
      cases pin <;> exact absurd underWay (by decide)
    | _ => simp [Tid.mayCall] at may
  | expire timer => cases timer
  | back actor code => simp [State.inputUnderWay, code] at underWay
  | step env instr rest done code taken left =>
    have own : instr.ofInput = true := owned (.irq id) instr (by simp [code])
    simp only [State.inputUnderWay, settle_code, left] at underWay
    by_cases test : instr = .lockHandleInput
    · subst test
      refine Or.inr ⟨instr?_step code, fun replay => ?_⟩
      simp only [exec, leave, replay] at taken
      cases taken
      obtain rfl : [] = rest := left
      simp at underWay
    · left
      have stays : instr.mayReturn = false := by
        cases instr <;> first | exact absurd rfl test | rfl | cases own
      simp [State.inputUnderWay, code, stays, underWay]

theorem replayMutes_next (owned : Owned state) (shape : Obeys startRule state)
    (mutes : ReplayMutes state) (ok : StartsBetweenInputs state action)
    (moved : next state action = some after) : ReplayMutes after := by
  intro replay id underWay
  have none : ∀ id, ¬ state.inputUnderWay id := by
    by_cases before : state.dev.state.mode = .replay
    · exact mutes before
    · obtain ⟨-, instr, head, lock, -⟩ := replay_next shape before moved replay
      exact ok instr head lock
  rcases inputUnderWay_of_next owned moved underWay with before | ⟨head, other⟩
  · exact none id before
  · obtain ⟨-, instr, lockHead, lock, -⟩ := replay_next shape other moved replay
    obtain rfl : instr = .lockHandleInput := Option.some.inj (lockHead.symm.trans head)
    rcases lock with ⟨same, -⟩ | ⟨same, -⟩ <;> cases same

variable {servo : EchoServoCtx} {clock : Nat} {actions : List Action}

/-- In every run that enters `REPLAY` only between joystick steps, no joystick
step has an effect in mode `REPLAY`. -/
theorem input_muted_in_replay
    (run : Run next StartsBetweenInputs (State.initial servo clock) actions state) :
    InputMuted state := by
  have mutes : ReplayMutes state := by
    refine run.invariant ReplayMutes ?_ ?_
    · intro replay
      simp [State.initial, EchoDevice.initial] at replay
    · intro earlier before action after ran mutes ok moved
      exact replayMutes_next (owned_of_run ran.any) (startRule_lawful.of_run ran.any)
        mutes ok moved
  intro id env instr after head effect moved replay
  obtain ⟨tid, env', rest, done, same, code, -, -⟩ := next_instr head moved
  cases same
  exact mutes replay id (by simp [State.inputUnderWay, code, effect])

/-- A joystick step, and then a replay. -/
def inputThenReplay : List Action :=
  [.call (.irq 0) (.input .up)] ++ steps (.irq 0) 10 ++
  [.call (.proc 1) (writeCmd echoCmdReplay)] ++ steps (.proc 1) 6 ++
  [.call (.irq 0) (.input .up)]

theorem input_muted_inputThenReplay :
    ∃ state, run next (State.initial simServo 0) inputThenReplay = some state ∧
      state.dev.state.mode = .replay ∧ InputMuted state := by
  obtain ⟨state, ran, replay⟩ := exists_run next
    (fun state action => movesOnly [.irq 0, .proc 1] state action &&
      (state.idle (.irq 0) || state.instr? action != some .lockStartReplay &&
        state.instr? action != some .lockInactivity))
    (State.initial simServo 0) inputThenReplay
    (fun state => state.dev.state.mode == .replay) (by decide)
  have between := ran.strengthen StartsBetweenInputs <| by
    intro earlier state action before passed instr head lock id underWay
    simp only [Bool.and_eq_true, Bool.or_eq_true, bne_iff_ne, ne_eq] at passed
    have idle : state.code (.irq id) = [] := by
      rcases passed.2 with idle | ⟨request, timer⟩
      · by_cases first : id = 0
        · subst first
          simpa [State.idle] using idle
        · exact code_of_run [.irq 0, .proc 1] before
            (fun _ _ passed => (Bool.and_eq_true _ _ ▸ passed).1) (by simp [first])
      · rcases lock with ⟨rfl, -⟩ | ⟨rfl, -⟩
        · exact absurd head request
        · exact absurd head timer
    simp [State.inputUnderWay, idle] at underWay
  exact ⟨state, ran.execution, by simpa using replay, input_muted_in_replay between⟩

/-- A second joystick step passes its test, and then the timer that the first
one armed expires and switches to `REPLAY`. -/
def expiryDuringInput : List Action :=
  [.call (.irq 0) (.input .up)] ++ steps (.irq 0) 10 ++
  [.call (.irq 0) (.input .up)] ++ steps (.irq 0) 2 ++ [.expire] ++ steps .timer 1

theorem expiryDuringInput_moves :
    ∃ state, run next (State.initial simServo 0) expiryDuringInput = some state ∧
      ¬ InputMuted state := by
  obtain ⟨state, ran, facts⟩ := exists_run next
    (movesOnly [.irq 0, .timer]) (State.initial simServo 0) expiryDuringInput
    (fun state => state.dev.state.mode == .replay &&
      state.instr? (.step (.irq 0) Env.good) == some (.moveServo 1) &&
      (next state (.step (.irq 0) Env.good)).any (·.dev.servo.pos echoServoTilt == 100))
    (by decide)
  simp only [Bool.and_eq_true, beq_iff_eq] at facts
  obtain ⟨⟨replay, head⟩, moves⟩ := facts
  refine ⟨state, ran.execution, fun muted => ?_⟩
  cases moved : next state (.step (.irq 0) Env.good) with
  | none => simp [moved] at moves
  | some after => exact muted 0 Env.good _ after head rfl moved replay

end EchoRobot
