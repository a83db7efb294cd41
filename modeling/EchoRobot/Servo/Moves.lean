import EchoRobot.Model.Threads
import EchoRobot.Servo.Pwm

/-! The servo moves that the steps of the running driver make. -/

namespace EchoRobot

open Interleaving

/-- The call of `echo_servo_set_angle` that an action makes. -/
def State.servoCall? (state : State) : Action → Option ServoCall
  | .step tid env =>
    match (state.code tid).head? with
    | some (.moveServo servoId) => some ⟨servoId, (state.thread tid).newAngle, env.i2c⟩
    | some (.setAngle servoId angle) => some ⟨servoId, angle, env.i2c⟩
    | some (.setAngleOrReturn servoId angle) => some ⟨servoId, angle, env.i2c⟩
    | _ => none
  | _ => none

/-- The byte writes that an action completes, by its calls of `pca9685_set_pwm`. -/
def State.written (state : State) (action : Action) : List ByteWrite :=
  ((state.servoCall? action).map (·.bytes state.dev.servo.simMode)).getD []

/-- Every byte write of the step succeeds. -/
def Succeeds (action : Action) : Prop :=
  ∀ tid env, action = .step tid env → ∀ write, env.i2c write = 0

variable {state after : State} {action : Action} {call : ServoCall}

/-- The call by its instruction. -/
inductive MovesServo (state : State) (tid : Tid) (env : Env) : Instr → ServoCall → Prop where
  | input (servoId : Nat) :
      MovesServo state tid env (.moveServo servoId) ⟨servoId, (state.thread tid).newAngle, env.i2c⟩
  | plain (servoId angle : Nat) :
      MovesServo state tid env (.setAngle servoId angle) ⟨servoId, angle, env.i2c⟩
  | request (servoId angle : Nat) :
      MovesServo state tid env (.setAngleOrReturn servoId angle) ⟨servoId, angle, env.i2c⟩

theorem movesServo_of (makes : state.servoCall? action = some call) :
    ∃ tid env instr rest, action = .step tid env ∧ state.code tid = instr :: rest ∧
      MovesServo state tid env instr call := by
  cases action with
  | step tid env =>
    cases code : state.code tid with
    | nil => simp [State.servoCall?, code] at makes
    | cons instr rest =>
      refine ⟨tid, env, instr, rest, rfl, code, ?_⟩
      cases instr with
      | moveServo servoId =>
        obtain rfl : _ = call := by simpa [State.servoCall?, code] using makes
        exact .input servoId
      | setAngle servoId angle =>
        obtain rfl : _ = call := by simpa [State.servoCall?, code] using makes
        exact .plain servoId angle
      | setAngleOrReturn servoId angle =>
        obtain rfl : _ = call := by simpa [State.servoCall?, code] using makes
        exact .request servoId angle
      | _ => simp [State.servoCall?, code] at makes
  | _ => simp [State.servoCall?] at makes

/-- An action does to the servos what its call does. -/
theorem servo_next (moved : next state action = some after) :
    after.dev.servo =
      ((state.servoCall? action).map fun call => (call.run state.dev.servo).1).getD
        state.dev.servo := by
  cases action with
  | step tid env =>
    obtain ⟨instr, rest, done, code, taken, rfl⟩ := next_step.mp moved
    rw [settle_dev]
    cases instr with
    | moveServo servoId =>
      cases taken
      simp [State.servoCall?, code, ServoCall.run]
    | setAngle servoId angle =>
      cases taken
      simp [State.servoCall?, code, ServoCall.run]
    | setAngleOrReturn servoId angle =>
      simp only [exec, leave] at taken
      split at taken <;> cases taken <;> simp [State.servoCall?, code, ServoCall.run]
    | _ =>
      rw [(exec_frame taken).servo (by simp [Instr.writes])]
      simp [State.servoCall?, code]
  | call tid request =>
    obtain ⟨-, rfl⟩ := next_call.mp moved
    rfl
  | expire =>
    obtain ⟨-, rfl⟩ := next_expire.mp moved
    rfl
  | startWork =>
    obtain ⟨-, rfl⟩ := next_startWork.mp moved
    rfl
  | tick ns =>
    obtain rfl := next_tick.mp moved
    rfl
  | signal tid =>
    obtain ⟨-, rfl⟩ := next_signal.mp moved
    rfl

theorem servo_of_call (moved : next state action = some after)
    (makes : state.servoCall? action = some call) :
    after.dev.servo = (call.run state.dev.servo).1 := by
  rw [servo_next moved, makes]
  rfl

theorem servo_of_none (moved : next state action = some after)
    (none : state.servoCall? action = none) : after.dev.servo = state.dev.servo := by
  rw [servo_next moved, none]
  rfl

/-- The chip gets these byte writes and no others. -/
theorem regs_next (moved : next state action = some after) :
    after.dev.servo.regs = registers state.dev.servo.regs (state.written action) := by
  unfold State.written
  cases makes : state.servoCall? action with
  | none =>
    rw [servo_of_none moved makes]
    rfl
  | some call =>
    rw [servo_of_call moved makes]
    exact regs_run

end EchoRobot
