import EchoRobot.Lifecycle.Module
import EchoRobot.Servo.Creation
import EchoRobot.Servo.Moves

/-! The bounds that the driver's data keep from `echo_init` on. Angles flow from the
positions to the recording, from there to the worker and back to the servos. -/

namespace EchoRobot

open Interleaving

/-- The servos that the joystick drives. -/
def ByJoystick (servoId : Nat) : Prop :=
  servoId = echoServoPan.val ∨ servoId = echoServoTilt.val

/-- A move that a joystick step can record. -/
def SoundMove (servoId angle : Nat) : Prop := ByJoystick servoId ∧ angle ≤ echoServoMax

/-- Every move that stands before the worker comes from its snapshot. The speed is
the divisor of the worker's division whenever that is executed. What an action writes to
the chip are the pulses of its calls. -/
structure WellFormed (state : State) : Prop where
  positions : ∀ servo, state.dev.servo.pos servo ≤ echoServoMax
  capacity : state.dev.buffer.moveFifo.length ≤ echoFifoSize
  recorded : ∀ move ∈ state.dev.buffer.moveFifo, SoundMove move.servoId move.angle
  snapshotted : ∀ servoId angle, .setAngle servoId angle ∈ state.code .worker →
    SoundMove servoId angle
  speed : 1 ≤ state.dev.buffer.replaySpeed
  pulses : ∀ action call, state.servoCall? action = some call →
    ∀ pwm ∈ call.pwm state.dev.servo.simMode,
      servoTicksMin ≤ pwm.off ∧ pwm.off ≤ servoTicksMax
  programmed : ∀ action after, next state action = some after →
    after.dev.servo.regs = registers state.dev.servo.regs (state.written action)

/-- What the threads hold that they still have to store. -/
structure Bounded (state : State) : Prop where
  angle : ∀ tid, (state.thread tid).newAngle ≤ echoServoMax
  record : ∀ tid servoId, .recordMove servoId ∈ state.code tid → ByJoystick servoId
  speed : ∀ tid speed, .setReplaySpeed speed ∈ state.code tid → 1 ≤ speed

theorem pulse_in_range {call : ServoCall} {simMode : Bool} {pwm : PwmCall}
    (member : pwm ∈ call.pwm simMode) : servoTicksMin ≤ pwm.off ∧ pwm.off ≤ servoTicksMax := by
  rw [(mem_pwm member).2.2]
  exact angleToPwm_bounds (Nat.min_le_right call.angle echoServoMax)

section Request
variable {tid : Tid} {request : Request}

/-- A joystick call moves and records the joystick's servos. -/
theorem byJoystick_of_request {instr : Instr} {servoId : Nat} (may : tid.mayCall request = true)
    (member : instr ∈ request.code)
    (named : instr = .moveServo servoId ∨ instr = .recordMove servoId) :
    ByJoystick servoId := by
  have foreign : instr.ofSyscall = false := by rcases named with rfl | rfl <;> rfl
  obtain ⟨pin, inside⟩ := input_of_request may member foreign
  rcases named with rfl | rfl <;> cases pin <;>
    simp [joyOpDirection, echoStateHandleInput, notifyReaders] at inside <;>
    subst inside <;> simp [ByJoystick]

/-- A speed of zero is refused. -/
theorem speed_of_request {speed : Nat} (member : .setReplaySpeed speed ∈ request.code) :
    1 ≤ speed := by
  cases request with
  | read nonblock count =>
    cases nonblock <;> simp [Request.code, echoRead, buildSnapshot] at member
  | write count copied =>
    simp only [Request.code, echoWrite] at member
    repeat' split at member
    all_goals
      simp [echoStateSetMode, echoStateStartReplay, echoStateStop, stateOpStartReplay,
        stateOpCancelReplay, signalReplayDone, notifyReaders] at member
  | ioctl ioc =>
    cases ioc with
    | setSpeed copied =>
      cases copied with
      | none => simp [Request.code, echoIoctl] at member
      | some given =>
        simp only [Request.code, echoIoctl] at member
        split at member
        · simp at member
        · rename_i positive
          obtain rfl : speed = given := by simpa using member
          omega
    | setMode copied =>
      rcases copied with _ | _ | _ | _ | mode <;>
        simp [Request.code, echoIoctl, echoStateSetMode, echoStateStartReplay, echoStateStop,
          stateOpStartReplay, stateOpCancelReplay, signalReplayDone, notifyReaders] at member
    | _ =>
      simp [Request.code, echoIoctl, echoIocReset, echoStateStop, stateOpCancelReplay,
        signalReplayDone, notifyReaders, buildSnapshot] at member
  | input pin =>
    cases pin <;>
      simp [Request.code, joyOpDirection, echoStateHandleInput, notifyReaders] at member

end Request

section Step
variable {state after : State} {action : Action}

/-- The speeds that are going to be stored were asked for. -/
theorem setReplaySpeed_next
    (speeds : ∀ tid speed, .setReplaySpeed speed ∈ state.code tid → 1 ≤ speed)
    (moved : next state action = some after) :
    ∀ tid speed, .setReplaySpeed speed ∈ after.code tid → 1 ≤ speed := by
  intro tid speed ahead
  rcases ahead_next moved ahead with before | enters
  · exact speeds tid speed before
  · cases enters with
    | request request may member => exact speed_of_request member
    | timer member => exact absurd (inactivityTimerFn_runs _ member) (by simp [Instr.ofTimer])
    | worker member => exact absurd (replayWorker_runs _ member) (by simp [Instr.ofWorker])
    | loop env rest code member =>
      exact absurd (replayLoop_ofLoop _ _ member) (by simp [Instr.ofLoop])

theorem bounded_next (bounded : Bounded state)
    (moved : next state action = some after) : Bounded after where
  angle tid := by
    by_cases actor : action.actor = some tid
    swap
    · rw [thread_next actor moved]
      exact bounded.angle tid
    cases acts actor moved with
    | step env instr rest done code taken =>
      rw [settle_thread]
      have held := bounded.angle tid
      cases instr <;> simp only [exec, leave, Thread.leave] at taken
      all_goals repeat' split at taken
      all_goals first
        | contradiction
        | (cases taken; exact held)
        | (cases taken; exact clampAngle_le _ _)
    | _ =>
      rw [settle_thread]
      exact bounded.angle _
  record tid servoId ahead := by
    rcases ahead_next moved ahead with before | enters
    · exact bounded.record tid servoId before
    · cases enters with
      | request request may member => exact byJoystick_of_request may member (Or.inr rfl)
      | timer member => exact absurd (inactivityTimerFn_runs _ member) (by simp [Instr.ofTimer])
      | worker member => exact absurd (replayWorker_runs _ member) (by simp [Instr.ofWorker])
      | loop env rest code member =>
        exact absurd (replayLoop_ofLoop _ _ member) (by simp [Instr.ofLoop])
  speed := setReplaySpeed_next bounded.speed moved

theorem pos_le_run {call : ServoCall} {ctx : EchoServoCtx}
    (bounded : ∀ servo, ctx.pos servo ≤ echoServoMax) (servo : Fin echoNumServos) :
    (call.run ctx).1.pos servo ≤ echoServoMax := by
  by_cases known : call.servoId < echoNumServos
  · rw [pos_run known, movePos_apply]
    split
    · exact Nat.min_le_right _ _
    · exact bounded servo
  · rw [run_unknown (by omega)]
    exact bounded servo

theorem positions_next (wellFormed : WellFormed state) (moved : next state action = some after)
    (servo : Fin echoNumServos) : after.dev.servo.pos servo ≤ echoServoMax := by
  cases makes : state.servoCall? action with
  | none =>
    rw [servo_of_none moved makes]
    exact wellFormed.positions servo
  | some call =>
    rw [servo_of_call moved makes]
    exact pos_le_run wellFormed.positions servo

/-- The recording stays within its capacity. -/
theorem capacity_next (capacity : state.dev.buffer.moveFifo.length ≤ echoFifoSize)
    (moved : next state action = some after) :
    after.dev.buffer.moveFifo.length ≤ echoFifoSize := by
  rcases next_device moved with ⟨tid, env, instr, rest, done, rfl, code, taken, rfl⟩ | frame
  · rw [settle_dev]
    cases instr with
    | recordMove servoId =>
      cases taken
      exact length_echoBufferRecord_le _ _ capacity
    | clearBuffer =>
      cases taken
      simp
    | snapshot =>
      simp only [exec] at taken
      split at taken <;> cases taken
      · exact (length_replayRefill _).trans_le capacity
      · exact capacity
    | _ => rwa [(exec_frame taken).fifo (by simp [Instr.writes])]
  · rwa [frame.fifo (by simp)]

/-- What is recorded comes from a joystick step, or was there. -/
theorem recorded_next (wellFormed : WellFormed state) (bounded : Bounded state)
    (moved : next state action = some after) :
    ∀ move ∈ after.dev.buffer.moveFifo, SoundMove move.servoId move.angle := by
  rcases next_device moved with ⟨tid, env, instr, rest, done, rfl, code, taken, rfl⟩ | frame
  · rw [settle_dev]
    cases instr with
    | recordMove servoId =>
      cases taken
      intro move member
      rcases mem_of_mem_echoBufferRecord member with before | rfl
      · exact wellFormed.recorded move before
      · exact ⟨bounded.record tid servoId (by simp [code]), bounded.angle tid⟩
    | clearBuffer =>
      cases taken
      simp
    | snapshot =>
      simp only [exec] at taken
      split at taken <;> cases taken
      · exact fun move member => wellFormed.recorded move (mem_of_mem_replayRefill member)
      · exact wellFormed.recorded
    | _ =>
      rw [(exec_frame taken).fifo (by simp [Instr.writes])]
      exact wellFormed.recorded
  · rw [frame.fifo (by simp)]
    exact wellFormed.recorded

theorem snapshotted_next (wellFormed : WellFormed state) (moved : next state action = some after)
    {servoId angle : Nat} (ahead : .setAngle servoId angle ∈ after.code .worker) :
    SoundMove servoId angle := by
  rcases ahead_next moved ahead with before | enters
  · exact wellFormed.snapshotted servoId angle before
  · cases enters with
    | request request may => simp [Tid.mayCall] at may
    | worker member =>
      exact absurd member
        (by simp [replayWorker, bufOpReplayDone, signalReplayDone, notifyReaders])
    | loop env rest code member =>
      obtain ⟨move, inside, rfl, rfl⟩ := setAngle_replayLoop member
      exact wellFormed.recorded move (mem_of_mem_replaySnapshot inside)

theorem replaySpeed_next (positive : 1 ≤ state.dev.buffer.replaySpeed)
    (speeds : ∀ tid speed, .setReplaySpeed speed ∈ state.code tid → 1 ≤ speed)
    (moved : next state action = some after) : 1 ≤ after.dev.buffer.replaySpeed := by
  rcases next_device moved with ⟨tid, env, instr, rest, done, rfl, code, taken, rfl⟩ | frame
  · rw [settle_dev]
    cases instr with
    | setReplaySpeed speed =>
      cases taken
      exact speeds tid speed (by simp [code])
    | _ =>
      rw [(exec_frame taken).speed (by simp [Instr.writes])]
      exact positive
  · rw [frame.speed (by simp)]
    exact positive

theorem wellFormed_next (wellFormed : WellFormed state) (bounded : Bounded state)
    (moved : next state action = some after) : WellFormed after where
  positions := positions_next wellFormed moved
  capacity := capacity_next wellFormed.capacity moved
  recorded := recorded_next wellFormed bounded moved
  snapshotted _ _ ahead := snapshotted_next wellFormed moved ahead
  speed := replaySpeed_next wellFormed.speed bounded.speed moved
  pulses _ _ _ _ member := pulse_in_range member
  programmed _ _ := regs_next

/-- The marks of the timer and of the work item do not matter. -/
theorem wellFormed_of_frame (wellFormed : WellFormed state) (bounded : Bounded state)
    (same : after.thread = state.thread) (frame : Frame state.dev after.dev [.timer, .pending]) :
    WellFormed after ∧ Bounded after := by
  have code : ∀ tid, after.code tid = state.code tid := fun tid => by simp only [State.code, same]
  constructor
  · constructor
    · rw [frame.servo (by simp)]
      exact wellFormed.positions
    · rw [frame.fifo (by simp)]
      exact wellFormed.capacity
    · rw [frame.fifo (by simp)]
      exact wellFormed.recorded
    · rw [code]
      exact wellFormed.snapshotted
    · rw [frame.speed (by simp)]
      exact wellFormed.speed
    · exact fun _ _ _ _ member => pulse_in_range member
    · exact fun _ _ => regs_next
  · constructor
    · rw [same]
      exact bounded.angle
    · simpa only [code] using bounded.record
    · simpa only [code] using bounded.speed

end Step

section Initial
variable {servo : EchoServoCtx} {clock : Nat}

theorem wellFormed_initial (positions : ∀ other, servo.pos other ≤ echoServoMax) :
    WellFormed (State.initial servo clock) ∧ Bounded (State.initial servo clock) := by
  refine ⟨⟨positions, ?_, ?_, ?_, ?_, ?_, fun _ _ => regs_next⟩, ⟨?_, ?_, ?_⟩⟩
  · exact Nat.zero_le _
  · simp [State.initial, EchoDevice.initial]
  · simp [State.code, State.initial, Thread.initial]
  · exact Nat.le_refl 1
  · exact fun _ _ _ _ member => pulse_in_range member
  · exact fun _ => Nat.zero_le _
  · simp [State.code, State.initial, Thread.initial]
  · simp [State.code, State.initial, Thread.initial]

/-- In every state of the running driver the data are in bounds. -/
theorem wellFormed_of_run {actions : List Action} {state : State}
    (positions : ∀ other, servo.pos other ≤ echoServoMax)
    (run : Run next anyStep (State.initial servo clock) actions state) :
    WellFormed state ∧ Bounded state := by
  refine run.invariant (fun state => WellFormed state ∧ Bounded state)
    (wellFormed_initial positions) ?_
  rintro - before action after - ⟨wellFormed, bounded⟩ - moved
  exact ⟨wellFormed_next wellFormed bounded moved, bounded_next bounded moved⟩

end Initial

/-- From the creation of the servos on, through loading, any calls and unloading, the
data are in bounds and so is every pulse. -/
theorem well_formed (simMode : Bool) (regs : Nat → Nat) (env : CreateEnv)
    (servo : EchoServoCtx) (clock : Nat) (actions : List DriverAction) (driver : Driver)
    (created : echoServoCreate simMode regs env = .ok servo)
    (run : Run nextDriver anyStep (Driver.initial servo clock) actions driver) :
    WellFormed driver.state ∧
      (∀ pwm ∈ centringPwm env, servoTicksMin ≤ pwm.off ∧ pwm.off ≤ servoTicksMax) ∧
      (simMode = false → servo.regs = registers (pca9685InitHw regs env.init).1
        ((centringPwm env).flatMap PwmCall.completed)) := by
  refine ⟨?_, ?_, ?_⟩
  · have positions : ∀ other, servo.pos other ≤ echoServoMax := by
      rw [(pos_created created).2]
      decide
    have kept : WellFormed driver.state ∧ Bounded driver.state := by
      refine run.invariant (fun driver => WellFormed driver.state ∧ Bounded driver.state)
        (wellFormed_initial positions) ?_
      rintro - before action after - ⟨wellFormed, bounded⟩ - moved
      rcases nextDriver_state moved with ⟨base, -, stepped⟩ | ⟨same, frame⟩
      · exact ⟨wellFormed_next wellFormed bounded stepped, bounded_next bounded stepped⟩
      · exact wellFormed_of_frame wellFormed bounded same frame
    exact kept.1
  · intro pwm member
    rw [(mem_centringPwm member).2.2]
    decide
  · rintro rfl
    rw [create_hardware created]

/-- The servos of a chip that has answered every byte. -/
def hardwareServo : EchoServoCtx :=
  ⟨false, fun _ => echoServoCenter, registers (pca9685InitHw (fun _ => 0) workingEnv.init).1
    ((centringPwm workingEnv).flatMap PwmCall.completed)⟩

/-- The driver is loaded on its hardware, the base is moved to an angle out of range, and a
joystick step is recorded and replayed at three times the speed. -/
def moveTooFar : List DriverAction :=
  moduleSteps 10 ++ [.echoOpen 0, .base (.call (.proc 0) (.ioctl (.setSpeed (some 3))))] ++
  baseSteps (.proc 0) 2 ++
  [.base (.call (.proc 0) (.write sizeofEchoCmd (some ⟨echoCmdMove, 0, 70000, 0⟩)))] ++
  baseSteps (.proc 0) 4 ++
  [.base (.call (.irq 0) (.input .up))] ++ baseSteps (.irq 0) 10 ++
  [.base (.call (.proc 0) (writeCmd echoCmdReplay))] ++ baseSteps (.proc 0) 6 ++
  [.base .startWork] ++ baseSteps .worker 6

theorem well_formed_moveTooFar :
    ∃ driver, run nextDriver (Driver.initial hardwareServo 0) moveTooFar = some driver ∧
      driver.state.dev.buffer.replaySpeed = 3 ∧
      driver.state.dev.servo.pos echoServoTilt2 = 180 ∧
      (driver.state.servoCall? (.step .worker Env.good)).map (fun call =>
        (call.pwm driver.state.dev.servo.simMode).map PwmCall.off) = some [313] ∧
      WellFormed driver.state := by
  have created : echoServoCreate false (fun _ => 0) workingEnv = .ok hardwareServo := by
    obtain ⟨ctx, created⟩ :
        ∃ ctx, echoServoCreate false (fun _ => 0) workingEnv = .ok ctx := ⟨_, rfl⟩
    rw [created, create_hardware created]
    rfl
  obtain ⟨driver, ran, facts⟩ := exists_run nextDriver (fun _ _ => true)
    (Driver.initial hardwareServo 0) moveTooFar
    (fun driver => decide (driver.state.dev.buffer.replaySpeed = 3 ∧
      driver.state.dev.servo.pos echoServoTilt2 = 180 ∧
      (driver.state.servoCall? (.step .worker Env.good)).map (fun call =>
        (call.pwm driver.state.dev.servo.simMode).map PwmCall.off) = some [313])) (by decide)
  obtain ⟨speed, moved, replays⟩ := of_decide_eq_true facts
  exact ⟨driver, ran.execution, speed, moved, replays,
    (well_formed false (fun _ => 0) workingEnv hardwareServo 0 moveTooFar driver created ran.any).1⟩

end EchoRobot
