import EchoRobot.Model.Step
import EchoRobot.Servo.Programming
import EchoRobot.Session.Robot

/-! An event of the code, taken to its end: a thread enters the driver or wakes up, and takes
step after step until it is back at its caller or asleep. -/

namespace EchoRobot

open Interleaving

/-- What the users see of the device. -/
def EchoDevice.robot (dev : EchoDevice) : Robot :=
  ⟨dev.servo.pos, dev.state.mode, dev.buffer.moveFifo, dev.buffer.replaySpeed,
    dev.state.timerPending, dev.buffer.replayPending, dev.state.lastMoveTime, dev.state.totalMoves,
    dev.buffer.replayCount, dev.irqCount, dev.newDataAvail, dev.replayFinished⟩

/-- Back at the caller, or asleep. -/
def State.halted (state : State) (tid : Tid) : Prop :=
  state.code tid = [] ∨ state.asleep tid = true

def Stops (tid : Tid) (entered final : State) : Prop :=
  final.halted tid ∧ ∃ count, run next entered (steps tid count) = some final

variable {state entered final after : State} {tid : Tid}

theorem run_steps_succ {count : Nat} : run next state (steps tid (count + 1)) =
    (next state (.step tid Env.good)).bind (run next · (steps tid count)) := rfl

theorem run_steps_add {first second : Nat} (ran : run next state (steps tid first) = some entered) :
    run next state (steps tid (first + second)) = run next entered (steps tid second) := by
  rw [steps, List.replicate_add, run_append]
  change (run next state (steps tid first)).bind _ = _
  rw [ran]
  rfl

/-- A thread that has come to its end takes no step. -/
theorem halted_stays (halted : state.halted tid) : next state (.step tid Env.good) = none := by
  rcases halted with returned | asleep
  · simp [next, returned]
  · rcases asleep_cases asleep with ⟨rest, code, unset⟩ | ⟨rest, code, unset⟩ <;>
      simp [next, code, exec, unset]

theorem steps_halted {count : Nat} (halted : state.halted tid)
    (ran : run next state (steps tid count) = some final) : final = state := by
  cases count with
  | zero => simpa [steps, run] using ran.symm
  | succ count => simp [run_steps_succ, halted_stays halted] at ran

/-- An event has one end. -/
theorem stops_unique {one two : State} (first : Stops tid state one)
    (second : Stops tid state two) : one = two := by
  obtain ⟨oneHalted, count, ran⟩ := first
  obtain ⟨twoHalted, count', ran'⟩ := second
  rcases Nat.le_total count count' with within | within
  · obtain ⟨more, rfl⟩ := Nat.exists_eq_add_of_le within
    exact (steps_halted oneHalted ((run_steps_add ran).symm.trans ran')).symm
  · obtain ⟨more, rfl⟩ := Nat.exists_eq_add_of_le within
    exact steps_halted twoHalted ((run_steps_add ran').symm.trans ran)

/-- Two changes by one thread are the second. -/
@[simp] theorem settle_settle (state : State) (tid : Tid) (dev dev' : EchoDevice)
    (thread thread' : Thread) :
    (state.settle tid dev thread).settle tid dev' thread' = state.settle tid dev' thread' := by
  simp [State.settle]

theorem pos_setAngle (ctx : EchoServoCtx) (servoId angle : Nat) (i2c : I2cResults) :
    (echoServoSetAngle ctx servoId angle i2c).1.pos = turned ctx.pos servoId angle := by
  have same : echoServoSetAngle ctx servoId angle i2c =
      (⟨servoId, angle, i2c⟩ : ServoCall).run ctx := rfl
  unfold turned
  rw [same]
  split
  · rename_i known
    exact @pos_run ⟨servoId, angle, i2c⟩ ctx known
  · rename_i unknown
    rw [@run_unknown ⟨servoId, angle, i2c⟩ ctx (Nat.le_of_not_lt unknown)]

/-- A thread by itself: nobody else is under way. -/
def solo (dev : EchoDevice) (clock : Nat) (thread : Thread) : State :=
  ⟨dev, clock, fun _ => { thread with code := [] }⟩

/-- What a thread by itself makes of the device and of itself. -/
def soloRun (tid : Tid) (clock : Nat) : Nat → EchoDevice → Thread → Option (EchoDevice × Thread)
  | 0, dev, thread => some (dev, thread)
  | count + 1, dev, thread =>
    match thread.code with
    | [] => none
    | instr :: rest => (exec (solo dev clock thread) tid Env.good instr rest).bind
        fun done => soloRun tid clock count done.1 done.2

/-- Neither the timer nor the worker is under way, and the thread is neither of them. -/
structure Undisturbed (tid : Tid) (state : State) : Prop where
  notTimer : tid ≠ .timer
  notWorker : tid ≠ .worker
  timer : state.code .timer = []
  worker : state.code .worker = []

theorem Undisturbed.settle {dev : EchoDevice} {thread : Thread} (alone : Undisturbed tid state) :
    Undisturbed tid (state.settle tid dev thread) where
  notTimer := alone.notTimer
  notWorker := alone.notWorker
  timer := (settle_code_of_ne _ _ _ _ _ alone.notTimer.symm).trans alone.timer
  worker := (settle_code_of_ne _ _ _ _ _ alone.notWorker.symm).trans alone.worker

theorem exec_solo {env : Env} {instr : Instr} {rest : Code} (alone : Undisturbed tid state) :
    exec state tid env instr rest =
      exec (solo state.dev state.clock (state.thread tid)) tid env instr rest := by
  cases instr with
  | timerDeleteSync => simp only [exec, State.idle, alone.timer]; rfl
  | cancelWorkSync => simp only [exec, State.idle, alone.worker]; rfl
  | _ => rfl

/-- Undisturbed, a thread runs as it does by itself. -/
theorem run_solo {code : Code} (alone : Undisturbed tid state) (ahead : state.code tid = code)
    (count : Nat) : run next state (steps tid count) =
      (soloRun tid state.clock count state.dev { state.thread tid with code := code }).map
        fun done => state.settle tid done.1 done.2 := by
  have own : { state.thread tid with code := code } = state.thread tid := by
    rw [← ahead]
    rfl
  rw [own]
  clear ahead own
  induction count generalizing state with
  | zero => simp [steps, run, soloRun, State.settle]
  | succ count ih =>
    rw [run_steps_succ, soloRun]
    have same : state.code tid = (state.thread tid).code := rfl
    cases left : (state.thread tid).code with
    | nil => simp [next, same, left]
    | cons instr rest =>
      simp only [next, same, left]
      rw [exec_solo alone]
      cases exec (solo state.dev state.clock (state.thread tid)) tid Env.good instr rest with
      | none => rfl
      | some done =>
        simp only [Option.map_some, Option.bind_some, ih alone.settle, settle_clock, settle_dev,
          settle_thread, settle_settle]

/-- A thread that has come some way goes on as it does by itself. -/
theorem run_on {dev : EchoDevice} {thread : Thread} {first : Nat} (alone : Undisturbed tid state)
    (ran : run next state (steps tid first) = some (state.settle tid dev thread)) (count : Nat) :
    run next state (steps tid (first + count)) = (soloRun tid state.clock count dev thread).map
      fun done => state.settle tid done.1 done.2 := by
  rw [run_steps_add ran, run_solo alone.settle (settle_code ..) count]
  simp only [settle_clock, settle_dev, settle_thread, settle_settle]

section Caller
variable {rest : Code}

theorem run_ret {value : Int} (code : state.code tid = [.ret value]) :
    run next state (steps tid 1) =
      some (state.settle tid state.dev ((state.thread tid).leave (some value))) := by
  simp [steps, next, code, exec, leave, Thread.leave]

theorem run_teach (alone : Undisturbed tid state)
    (code : state.code tid = echoStateSetMode .teach ++ rest) :
    run next state (steps tid 8) = some (state.settle tid
      { state.dev with
        state := ⟨.teach, true, state.clock, 0⟩
        buffer := { state.dev.buffer with moveFifo := [] }
        newDataAvail := true }
      { state.thread tid with code := rest, now := state.clock }) :=
  run_solo alone code 8

theorem run_stop (alone : Undisturbed tid state)
    (code : state.code tid = echoStateStop ++ rest) :
    run next state (steps tid 9) = some (state.settle tid
      { state.dev with
        state := { state.dev.state with mode := .idle, timerPending := false }
        buffer := { state.dev.buffer with replayPending := false }
        replayFinished := true
        newDataAvail := true }
      { state.thread tid with code := rest }) :=
  run_solo alone code 9

theorem run_start (alone : Undisturbed tid state) (mode : state.dev.state.mode ≠ .replay)
    (code : state.code tid = echoStateStartReplay ++ rest) :
    run next state (steps tid 5) = some (state.settle tid
      { state.dev with
        state := { state.dev.state with mode := .replay, timerPending := false }
        buffer := { state.dev.buffer with replayPending := true }
        newDataAvail := true }
      { state.thread tid with code := rest }) := by
  have tested : run next state (steps tid 1) = some (state.settle tid
      { state.dev with state := { state.dev.state with mode := .replay } }
      { state.thread tid with
        code := [.timerDeleteSync] ++ stateOpStartReplay ++ notifyReaders ++ rest }) := by
    simp only [echoStateStartReplay, List.cons_append] at code
    simp [steps, next, code, exec, mode]
  exact run_on alone tested 4

theorem run_busy (mode : state.dev.state.mode = .replay)
    (code : state.code tid = echoStateStartReplay ++ rest) :
    run next state (steps tid 1) =
      some (state.settle tid state.dev ((state.thread tid).leave (some (-EBUSY)))) := by
  simp only [echoStateStartReplay, List.cons_append] at code
  simp [steps, next, code, exec, leave, Thread.leave, mode]

theorem run_getState {size : Nat} {value : Int} (alone : Undisturbed tid state)
    (code : state.code tid = buildSnapshot ++ [.copyToUser size, .ret value]) :
    run next state (steps tid 10) = some (state.settle tid state.dev
      { state.thread tid with
        code := []
        snap := state.dev.robot.snapshot
        delivered := some (.copied (state.thread tid).delivered size state.dev.robot.snapshot)
        result := some value }) :=
  run_solo alone code 10

theorem run_gather {size : Nat} {value : Int} (alone : Undisturbed tid state)
    (news : state.dev.newDataAvail = true)
    (code : state.code tid = [.waitNewData, .setNewDataAvail false] ++ buildSnapshot ++
      [.copyToUser size, .ret value]) :
    run next state (steps tid 12) = some (state.settle tid
      { state.dev with newDataAvail := false }
      { state.thread tid with
        code := []
        snap := state.dev.robot.snapshot
        delivered := some (.copied (state.thread tid).delivered size state.dev.robot.snapshot)
        result := some value }) := by
  have woken : run next state (steps tid 1) = some (state.settle tid state.dev
      { state.thread tid with
        code := [.setNewDataAvail false] ++ buildSnapshot ++ [.copyToUser size, .ret value] }) := by
    simp only [List.cons_append, List.nil_append] at code
    simp [steps, next, code, exec, news]
  exact run_on alone woken 11

theorem run_finished {value : Int} (finished : state.dev.replayFinished = true)
    (code : state.code tid = [.waitReplayDone, .ret value]) :
    run next state (steps tid 2) =
      some (state.settle tid state.dev ((state.thread tid).leave (some value))) := by
  simp [run, steps, List.replicate, next, code, exec, leave, Thread.leave, finished]

theorem run_nonblock (code : state.code tid = .testNonblock :: rest) :
    run next state (steps tid 1) = some (if state.dev.newDataAvail then
      state.settle tid state.dev { state.thread tid with code := rest }
    else state.settle tid state.dev ((state.thread tid).leave (some (-EAGAIN)))) := by
  cases news : state.dev.newDataAvail <;>
    simp [steps, next, code, exec, leave, Thread.leave, news]

theorem turned_centre {pos : Fin echoNumServos → Nat} :
    turned (turned (turned pos echoServoPan echoServoCenter) echoServoTilt echoServoCenter)
      echoServoTilt2 echoServoCenter = fun _ => echoServoCenter := by
  funext servo
  rcases pan_tilt_or_tilt2 servo with rfl | rfl | rfl <;> rfl

theorem run_centre (alone : Undisturbed tid state) (code : state.code tid =
    [.clearBuffer, .setAngle echoServoPan echoServoCenter,
      .setAngle echoServoTilt echoServoCenter, .setAngle echoServoTilt2 echoServoCenter] ++
      notifyReaders ++ rest) :
    ∃ dev, run next state (steps tid 6) = some (state.settle tid dev
        { state.thread tid with code := rest }) ∧ dev.buffer.moveFifo = [] ∧
      dev.robot = { state.dev.robot with
        recording := [], pos := fun _ => echoServoCenter, news := true } := by
  let base := (echoServoSetAngle state.dev.servo echoServoPan echoServoCenter Env.good.i2c).1
  let tilt := (echoServoSetAngle base echoServoTilt echoServoCenter Env.good.i2c).1
  let tilt2 := (echoServoSetAngle tilt echoServoTilt2 echoServoCenter Env.good.i2c).1
  have centred : tilt2.pos = fun _ => echoServoCenter := by
    rw [pos_setAngle, pos_setAngle, pos_setAngle, turned_centre]
  refine ⟨{ state.dev with
    servo := tilt2
    buffer := { state.dev.buffer with moveFifo := [] }
    newDataAvail := true }, run_solo alone code 6, rfl, ?_⟩
  rw [EchoDevice.robot, centred]
  rfl

theorem run_setAngle {servoId angle : Nat} (alone : Undisturbed tid state)
    (known : servoId < echoNumServos)
    (code : state.code tid = [.setAngleOrReturn servoId angle] ++ notifyReaders ++ rest) :
    ∃ dev, run next state (steps tid 3) = some (state.settle tid dev
        { state.thread tid with code := rest }) ∧ dev.buffer = state.dev.buffer ∧
      dev.robot = (state.dev.robot.turn servoId angle).notify := by
  have works : (echoServoSetAngle state.dev.servo servoId angle Env.good.i2c).2 = 0 :=
    @result_run_of_succeed ⟨servoId, angle, Env.good.i2c⟩ state.dev.servo (fun _ => rfl) known
  have turned : run next state (steps tid 1) = some (state.settle tid
      { state.dev with
        servo := (echoServoSetAngle state.dev.servo servoId angle Env.good.i2c).1 }
      { state.thread tid with code := notifyReaders ++ rest }) := by
    simp only [List.cons_append, List.nil_append] at code
    simp [steps, next, code, exec, works]
  refine ⟨{ state.dev with
    servo := (echoServoSetAngle state.dev.servo servoId angle Env.good.i2c).1
    newDataAvail := true }, run_on alone turned 2, rfl, ?_⟩
  simp only [EchoDevice.robot, pos_setAngle]
  rfl

theorem run_unknown_servo {servoId angle : Nat} (unknown : echoNumServos ≤ servoId)
    (code : state.code tid = .setAngleOrReturn servoId angle :: rest) :
    run next state (steps tid 1) =
      some (state.settle tid state.dev ((state.thread tid).leave (some (-EINVAL)))) := by
  have refused : echoServoSetAngle state.dev.servo servoId angle Env.good.i2c =
      (state.dev.servo, -EINVAL) :=
    @run_unknown ⟨servoId, angle, Env.good.i2c⟩ state.dev.servo unknown
  simp [steps, next, code, exec, leave, Thread.leave, refused, EINVAL]

/-- The mode test of an input that is not muted. -/
theorem run_tested {servo : Fin echoNumServos} {delta : Int}
    (mode : state.dev.state.mode ≠ .replay)
    (code : state.code tid = echoStateHandleInput servo delta) :
    run next state (steps tid 1) = some (state.settle tid
      { state.dev with state := { state.dev.state with
        mode := .teach
        lastMoveTime := if state.dev.state.mode = .idle then state.clock
          else state.dev.state.lastMoveTime } }
      { state.thread tid with code := (echoStateHandleInput servo delta).tail }) := by
  simp only [echoStateHandleInput, List.cons_append, List.tail_cons] at code ⊢
  cases kind : state.dev.state.mode with
  | replay => exact absurd kind mode
  | idle => simp [steps, next, code, exec, kind]
  | teach =>
    have same : { state.dev.state with mode := EchoMode.teach } = state.dev.state := by rw [← kind]
    simp [steps, next, code, exec, kind, same]

theorem run_inputPin {servo : Fin echoNumServos} {delta : Int} (alone : Undisturbed tid state)
    (mode : state.dev.state.mode ≠ .replay)
    (code : state.code tid = echoStateHandleInput servo delta) :
    ∃ dev thread, run next state (steps tid 10) = some (state.settle tid dev thread) ∧
      thread.code = [] ∧ dev.robot = state.dev.robot.input state.clock servo delta := by
  let since := if state.dev.state.mode = .idle then state.clock else state.dev.state.lastMoveTime
  let angle := clampAngle (echoServoGetAngle state.dev.servo servo) delta
  let move : EchoMove := ⟨servo, angle, toU32 (ktimeMsDelta state.clock since)⟩
  have own : angle = clampAngle (state.dev.robot.pos servo) delta := by
    simp [angle, echoServoGetAngle, EchoDevice.robot]
  have moved : (echoServoSetAngle state.dev.servo servo angle Env.good.i2c).1.pos =
      movePos state.dev.servo.pos servo angle :=
    pos_echoServoSetAngle state.dev.servo servo Env.good.i2c (clampAngle_le _ delta)
  refine ⟨{ state.dev with
    servo := (echoServoSetAngle state.dev.servo servo angle Env.good.i2c).1
    buffer := { state.dev.buffer with moveFifo := echoBufferRecord state.dev.buffer.moveFifo move }
    state := ⟨.teach, true, state.clock, state.dev.state.totalMoves + 1⟩
    newDataAvail := true }, _, run_on alone (run_tested mode code) 9, rfl, ?_⟩
  rw [Robot.input, if_neg (show ¬ state.dev.robot.mode = .replay from mode)]
  dsimp only
  rw [← own, EchoDevice.robot, moved]
  rfl

theorem run_muted {servo : Fin echoNumServos} {delta : Int} (mode : state.dev.state.mode = .replay)
    (code : state.code tid = echoStateHandleInput servo delta) :
    run next state (steps tid 1) =
      some (state.settle tid state.dev ((state.thread tid).leave none)) := by
  simp only [echoStateHandleInput, List.cons_append] at code
  simp [steps, next, code, exec, leave, Thread.leave, mode]

end Caller

section Kernel
variable {rest : Code}

theorem run_expiry (mode : state.dev.state.mode = .teach)
    (code : state.code tid = inactivityTimerFn) :
    run next state (steps tid 4) = some (state.settle tid
      { state.dev with
        state := { state.dev.state with mode := .replay }
        buffer := { state.dev.buffer with replayPending := true }
        newDataAvail := true }
      { state.thread tid with code := [] }) := by
  simp only [inactivityTimerFn, stateOpStartReplay, notifyReaders, List.cons_append,
    List.nil_append] at code
  simp [run, steps, List.replicate, next, code, exec, mode]

theorem run_expiry_late (mode : state.dev.state.mode ≠ .teach)
    (code : state.code tid = inactivityTimerFn) :
    run next state (steps tid 1) =
      some (state.settle tid state.dev ((state.thread tid).leave none)) := by
  simp only [inactivityTimerFn, stateOpStartReplay, notifyReaders, List.cons_append,
    List.nil_append] at code
  simp [steps, List.replicate, next, code, exec, leave, Thread.leave, mode]

/-- The timer ends the teaching, or finds it ended. -/
theorem run_timer (unarmed : state.dev.robot.armed = false)
    (code : state.code tid = inactivityTimerFn) :
    ∃ dev thread count, run next state (steps tid count) = some (state.settle tid dev thread) ∧
      thread.code = [] ∧ dev.robot = state.dev.robot.expire := by
  unfold Robot.expire
  by_cases mode : state.dev.robot.mode = .teach
  · rw [if_pos mode, ← unarmed]
    exact ⟨_, _, 4, run_expiry mode code, rfl, rfl⟩
  · rw [if_neg mode, ← unarmed]
    exact ⟨_, _, 1, run_expiry_late mode code, rfl, rfl⟩

theorem run_completion (code : state.code tid = bufOpReplayDone) :
    run next state (steps tid 5) = some (state.settle tid
      { state.dev with
        state := { state.dev.state with mode := .idle }
        replayFinished := true
        newDataAvail := true }
      { state.thread tid with code := [] }) := by
  simp only [bufOpReplayDone, signalReplayDone, notifyReaders, List.cons_append,
    List.nil_append] at code
  simp [run, steps, List.replicate, next, code, exec]

theorem run_replayMove {move : EchoMove} (mode : state.dev.state.mode = .replay)
    (code : state.code tid = replayMove move ++ rest) :
    ∃ thread, run next state (steps tid 7) = some (state.settle tid
      { state.dev with
        servo := (echoServoSetAngle state.dev.servo move.servoId move.angle Env.good.i2c).1
        newDataAvail := true } thread) ∧ thread.code = rest := by
  simp only [replayMove, notifyReaders, List.cons_append, List.nil_append] at code
  simp only [run, steps, List.replicate, next, code, exec, mode, Option.map_some, Option.bind_some,
    settle_code, settle_dev, settle_thread, settle_settle, ↓reduceIte]
  exact ⟨_, rfl, rfl⟩

/-- The play loop turns the servos one move after the other. -/
theorem run_moves {moves : List EchoMove} (mode : state.dev.state.mode = .replay)
    (code : state.code tid = moves.flatMap replayMove ++ rest) :
    ∃ dev thread count, run next state (steps tid count) = some (state.settle tid dev thread) ∧
      thread.code = rest ∧
      dev.robot.notify =
        { state.dev.robot with pos := played state.dev.servo.pos moves }.notify := by
  induction moves generalizing state with
  | nil =>
    refine ⟨state.dev, state.thread tid, 0, ?_, code, rfl⟩
    simp [steps, run, State.settle]
  | cons move moves ih =>
    rw [List.flatMap_cons, List.append_assoc] at code
    obtain ⟨thread, ran, left⟩ := run_replayMove mode code
    generalize turning : EchoDevice.mk .. = dev at ran
    have robot : dev.robot = (state.dev.robot.turn move.servoId move.angle).notify := by
      subst turning
      simp [EchoDevice.robot, Robot.turn, Robot.notify, pos_setAngle]
    have onward : dev.state.mode = .replay := (congrArg Robot.mode robot).trans mode
    obtain ⟨final, last, count, later, done, played⟩ :=
      @ih (state.settle tid dev thread) onward ((settle_code ..).trans left)
    refine ⟨final, last, 7 + count, ?_, done, ?_⟩
    · rw [run_steps_add ran, later, settle_settle]
    · have pos : dev.servo.pos = turned state.dev.servo.pos move.servoId move.angle :=
        congrArg Robot.pos robot
      rw [played, settle_dev, robot, pos]
      rfl

/-- The snapshot leaves the recording as it is. -/
theorem run_snapshot (fits : state.dev.buffer.moveFifo.length ≤ echoFifoSize)
    (code : state.code tid = replayWorker) :
    ∃ dev thread, run next state (steps tid 2) = some (state.settle tid dev thread) ∧
      thread.code = dev.buffer.moveFifo.flatMap replayMove ++ bufOpReplayDone ∧
      dev.robot = { state.dev.robot with replays := state.dev.robot.replays + 1 } := by
  have all : replaySnapshot state.dev.buffer.moveFifo = state.dev.buffer.moveFifo := by
    simp [replaySnapshot, Nat.min_eq_left fits]
  simp only [replayWorker, List.cons_append, List.nil_append] at code
  refine ⟨{ state.dev with
    buffer := { state.dev.buffer with replayCount := state.dev.buffer.replayCount + 1 } },
    { state.thread tid with
      code := state.dev.buffer.moveFifo.flatMap replayMove ++ bufOpReplayDone }, ?_, rfl, rfl⟩
  simp [run, steps, List.replicate, next, code, exec, Env.good, replayRefill_eq _ fits, all,
    replayLoop]

/-- A replay whose mode has been changed goes to its end at once. -/
theorem run_stopped {moves : List EchoMove} (mode : state.dev.state.mode ≠ .replay)
    (code : state.code tid = moves.flatMap replayMove ++ bufOpReplayDone) :
    ∃ thread count, run next state (steps tid count) = some (state.settle tid state.dev thread) ∧
      thread.code = bufOpReplayDone := by
  cases moves with
  | nil => exact ⟨state.thread tid, 0, by simp [steps, run, State.settle], code⟩
  | cons move moves =>
    simp only [List.flatMap_cons, replayMove, List.cons_append, List.nil_append] at code
    refine ⟨{ state.thread tid with code := bufOpReplayDone }, 1, ?_, rfl⟩
    simp [steps, next, code, exec, mode]

/-- Either way the loop comes to the completion. -/
theorem run_loop (code : state.code tid =
    state.dev.buffer.moveFifo.flatMap replayMove ++ bufOpReplayDone) :
    ∃ dev thread count, run next state (steps tid count) = some (state.settle tid dev thread) ∧
      thread.code = bufOpReplayDone ∧
      dev.robot.notify = { state.dev.robot with pos := state.dev.robot.endPos }.notify := by
  unfold Robot.endPos
  by_cases mode : state.dev.robot.mode = .replay
  · rw [if_pos mode]
    exact run_moves mode code
  · obtain ⟨thread, count, ran, left⟩ := run_stopped mode code
    rw [if_neg mode]
    exact ⟨state.dev, thread, count, ran, left, rfl⟩

/-- The worker performs the whole replay. -/
theorem run_worker (fits : state.dev.buffer.moveFifo.length ≤ echoFifoSize)
    (unqueued : state.dev.robot.queued = false) (code : state.code tid = replayWorker) :
    ∃ dev thread count, run next state (steps tid count) = some (state.settle tid dev thread) ∧
      thread.code = [] ∧ dev.robot = state.dev.robot.perform := by
  obtain ⟨taken, begun, snapshot, ahead, robot⟩ := run_snapshot fits code
  obtain ⟨dev, thread, count, looped, left, played⟩ :=
    @run_loop (state.settle tid taken begun) tid ((settle_code ..).trans ahead)
  have completion := @run_completion (state.settle tid dev thread) tid ((settle_code ..).trans left)
  rw [settle_settle] at looped completion
  refine ⟨{ dev with
    state := { dev.state with mode := .idle }
    replayFinished := true
    newDataAvail := true }, { thread with code := [] }, 2 + (count + 5), ?_, rfl, ?_⟩
  · rw [run_steps_add snapshot, run_steps_add looped, completion, settle_dev, settle_thread]
  · have finished : EchoDevice.robot { dev with
        state := { dev.state with mode := .idle }
        replayFinished := true
        newDataAvail := true } = { dev.robot.notify with mode := .idle, finished := true } := rfl
    rw [finished, played, settle_dev, robot, Robot.perform, ← unqueued]
    rfl

end Kernel

end EchoRobot
