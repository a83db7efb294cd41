import EchoRobot.Calls.Alone
import EchoRobot.Interleaving.Simulation
import EchoRobot.Session.Event

/-! The driver does for its users what the robot does. Whatever one of them does, and whoever
else sleeps in the driver, the event taken to its end has the effect that it has at once on
the robot. -/

namespace EchoRobot

open Interleaving

/-- What a sleeping caller still has to do. -/
def Wait.code : Wait → Code
  | .news count => [.waitNewData, .setNewDataAvail false] ++ buildSnapshot ++
      [.copyToUser (min count sizeofEchoSnapshot), .ret (min count sizeofEchoSnapshot : Nat)]
  | .replay count => [.waitReplayDone, .ret count]

def Caller.code (caller : Caller) : Code := caller.waiting.elim [] Wait.code

structure Caller.Stands (caller : Caller) (thread : Thread) : Prop where
  code : thread.code = caller.code
  answer : thread.result = caller.answer
  seen : thread.delivered = caller.seen

/-- The driver stands as the robot does, with nobody under way in it. -/
structure Stands (state : State) (system : RobotSystem) : Prop where
  robot : system.robot = state.dev.robot
  clock : system.clock = state.clock
  capacity : state.dev.buffer.moveFifo.length ≤ echoFifoSize
  callers : ∀ id, (system.callers id).Stands (state.thread (.proc id))
  others : ∀ tid, (∀ id, tid ≠ .proc id) → state.code tid = []

/-- An event of the code: the thread that it concerns goes on to its end. -/
inductive Happens : State → RobotEvent → State → Prop where
  | request {state entered final : State} {id : Nat} {request : Request}
      (enters : next state (.call (.proc id) request) = some entered)
      (stops : Stops (.proc id) entered final) : Happens state (.request id request) final
  | input {state entered final : State} {id : Nat} {pin : EchoGpio}
      (enters : next state (.call (.irq id) (.input pin)) = some entered)
      (stops : Stops (.irq id) entered final) : Happens state (.input id pin) final
  | expire {state entered final : State} (enters : next state .expire = some entered)
      (stops : Stops .timer entered final) : Happens state .expire final
  | perform {state entered final : State} (enters : next state .startWork = some entered)
      (stops : Stops .worker entered final) : Happens state .perform final
  | resume {state final : State} {id : Nat} (awake : ¬ state.halted (.proc id))
      (stops : Stops (.proc id) state final) : Happens state (.resume id) final
  | interrupt {state final : State} {id : Nat}
      (leaves : next state (.signal (.proc id)) = some final) : Happens state (.interrupt id) final
  | pass {state : State} (ns : Nat) :
      Happens state (.pass ns) { state with clock := state.clock + ns }

section Stands
variable {state : State} {system : RobotSystem} {dev : EchoDevice} {thread : Thread}

/-- A caller and the device change. -/
theorem Stands.settle {id : Nat} {done : Robot × Caller} (stands : Stands state system)
    (robot : dev.robot = done.1) (capacity : dev.buffer.moveFifo.length ≤ echoFifoSize)
    (caller : done.2.Stands thread) :
    Stands (state.settle (.proc id) dev thread) (system.settle id done) where
  robot := robot.symm
  clock := stands.clock
  capacity := capacity
  callers other := by
    by_cases same : other = id
    · subst same
      simpa [RobotSystem.settle] using caller
    · rw [settle_thread_of_ne _ _ _ _ _ (by simpa using same)]
      simpa [RobotSystem.settle, same] using stands.callers other
  others tid other := by
    rw [settle_code_of_ne _ _ _ _ _ (other id)]
    exact stands.others tid other

/-- A thread that is no caller's is back. -/
theorem Stands.settle_other {tid : Tid} {robot : Robot} (stands : Stands state system)
    (other : ∀ id, tid ≠ .proc id) (same : dev.robot = robot)
    (capacity : dev.buffer.moveFifo.length ≤ echoFifoSize) (returned : thread.code = []) :
    Stands (state.settle tid dev thread) { system with robot := robot } where
  robot := same.symm
  clock := stands.clock
  capacity := capacity
  callers id := by
    rw [settle_thread_of_ne _ _ _ _ _ (other id).symm]
    exact stands.callers id
  others tid' other' := by
    by_cases own : tid' = tid
    · rw [own, settle_code, returned]
    · rw [settle_code_of_ne _ _ _ _ _ own]
      exact stands.others tid' other'

end Stands

/-- A caller is in the driver alone. -/
structure Alone (id : Nat) (caller : Caller) (state : State) : Prop where
  seen : (state.thread (.proc id)).delivered = caller.seen
  unanswered : (state.thread (.proc id)).result = none
  capacity : state.dev.buffer.moveFifo.length ≤ echoFifoSize
  undisturbed : Undisturbed (.proc id) state

/-- Its thread comes to its end, and the robot and the caller are as `done` says. -/
def EndsAs (id : Nat) (state : State) (done : Robot × Caller) : Prop :=
  ∃ dev thread count,
    run next state (steps (.proc id) count) = some (state.settle (.proc id) dev thread) ∧
    dev.robot = done.1 ∧ dev.buffer.moveFifo.length ≤ echoFifoSize ∧ done.2.Stands thread ∧
    (state.settle (.proc id) dev thread).halted (.proc id)

section Request
variable {id count : Nat} {state : State} {caller : Caller} {value : Int}

theorem endsAs_back {dev : EchoDevice} {thread : Thread} {done : Robot × Caller} {steps' : Nat}
    (ran : run next state (steps (.proc id) steps') = some (state.settle (.proc id) dev thread))
    (robot : dev.robot = done.1) (capacity : dev.buffer.moveFifo.length ≤ echoFifoSize)
    (waiting : done.2.waiting = none) (stands : done.2.Stands thread) : EndsAs id state done :=
  ⟨dev, thread, steps', ran, robot, capacity, stands, Or.inl (by
    rw [settle_code, stands.code, Caller.code, waiting]
    rfl)⟩

/-- All that is left to do is to return. -/
theorem endsAs_ret {dev : EchoDevice} {thread : Thread} {steps' : Nat}
    (ran : run next state (steps (.proc id) steps') = some (state.settle (.proc id) dev thread))
    (code : thread.code = [.ret value]) (seen : thread.delivered = caller.seen)
    (capacity : dev.buffer.moveFifo.length ≤ echoFifoSize) :
    EndsAs id state (dev.robot, caller.back value) := by
  have last := @run_ret (state.settle (.proc id) dev thread) (.proc id) value
    ((settle_code ..).trans code)
  rw [settle_settle, settle_dev, settle_thread] at last
  exact endsAs_back ((run_steps_add ran).trans last) rfl capacity rfl ⟨rfl, rfl, seen⟩

theorem ends_ret (alone : Alone id caller state) (code : state.code (.proc id) = [.ret value]) :
    EndsAs id state (state.dev.robot, caller.back value) :=
  endsAs_back (run_ret code) rfl alone.capacity rfl ⟨rfl, rfl, alone.seen⟩

theorem ends_teach (alone : Alone id caller state)
    (code : state.code (.proc id) = echoStateSetMode .teach ++ [.ret value]) :
    EndsAs id state (state.dev.robot.teach state.clock, caller.back value) :=
  endsAs_ret (run_teach alone.undisturbed code) rfl alone.seen (Nat.zero_le _)

theorem ends_stop (alone : Alone id caller state)
    (code : state.code (.proc id) = echoStateStop ++ [.ret value]) :
    EndsAs id state (state.dev.robot.stop, caller.back value) :=
  endsAs_ret (run_stop alone.undisturbed code) rfl alone.seen alone.capacity

theorem ends_start (alone : Alone id caller state)
    (code : state.code (.proc id) = echoStateStartReplay ++ [.ret value]) :
    EndsAs id state (if state.dev.robot.mode = .replay then
      (state.dev.robot, caller.back (-EBUSY)) else (state.dev.robot.start, caller.back value)) := by
  by_cases mode : state.dev.robot.mode = .replay
  · rw [if_pos mode]
    exact endsAs_back (run_busy mode code) rfl alone.capacity rfl ⟨rfl, rfl, alone.seen⟩
  · rw [if_neg mode]
    exact endsAs_ret (run_start alone.undisturbed mode code) rfl alone.seen alone.capacity

/-- A step that keeps what a call knows of its caller. -/
theorem Alone.settle {dev : EchoDevice} {thread : Thread} (alone : Alone id caller state)
    (seen : thread.delivered = (state.thread (.proc id)).delivered)
    (unanswered : thread.result = (state.thread (.proc id)).result)
    (capacity : dev.buffer.moveFifo.length ≤ echoFifoSize) :
    Alone id caller (state.settle (.proc id) dev thread) where
  seen := by rw [settle_thread, seen, alone.seen]
  unanswered := by rw [settle_thread, unanswered, alone.unanswered]
  capacity := capacity
  undisturbed := alone.undisturbed.settle

/-- What a call comes to after some steps, it comes to. -/
theorem EndsAs.after {dev : EchoDevice} {thread : Thread} {steps' : Nat} {done : Robot × Caller}
    (ran : run next state (steps (.proc id) steps') = some (state.settle (.proc id) dev thread))
    (ends : EndsAs id (state.settle (.proc id) dev thread) done) : EndsAs id state done := by
  obtain ⟨last, final, more, later, robot, capacity, stands, halted⟩ := ends
  rw [settle_settle] at later halted
  exact ⟨last, final, steps' + more, (run_steps_add ran).trans later, robot, capacity, stands,
    halted⟩

theorem ends_awaited (alone : Alone id caller state)
    (unfinished : state.dev.replayFinished = false)
    (code : state.code (.proc id) = echoStateStartReplay ++ [.waitReplayDone, .ret count]) :
    EndsAs id state (if state.dev.robot.mode = .replay then
      (state.dev.robot, caller.back (-EBUSY))
    else (state.dev.robot.start, caller.wait (.replay count))) := by
  by_cases mode : state.dev.robot.mode = .replay
  · rw [if_pos mode]
    exact endsAs_back (run_busy mode code) rfl alone.capacity rfl ⟨rfl, rfl, alone.seen⟩
  · rw [if_neg mode]
    refine ⟨_, _, 5, run_start alone.undisturbed mode code, rfl, alone.capacity,
      ⟨rfl, alone.unanswered, alone.seen⟩, Or.inr ?_⟩
    simp [State.asleep, unfinished]

theorem ends_replay (alone : Alone id caller state) (code : state.code (.proc id) =
    [.setReplayFinished false] ++ echoStateStartReplay ++ [.waitReplayDone, .ret count]) :
    EndsAs id state (state.dev.robot.replay caller count) :=
  EndsAs.after (run_solo alone.undisturbed code 1)
    (ends_awaited (alone.settle rfl rfl alone.capacity) rfl (settle_code ..))

theorem ends_deliver (alone : Undisturbed (.proc id) state)
    (capacity : state.dev.buffer.moveFifo.length ≤ echoFifoSize)
    (seen : (state.thread (.proc id)).delivered = caller.seen)
    (news : state.dev.newDataAvail = true)
    (code : state.code (.proc id) = (Wait.news count).code) :
    EndsAs id state (state.dev.robot.deliver caller count) := by
  refine endsAs_back (run_gather alone news code) rfl capacity rfl ⟨rfl, rfl, ?_⟩
  rw [Robot.deliver, seen]

/-- A blocking read. -/
theorem ends_await (alone : Alone id caller state)
    (code : state.code (.proc id) = (Wait.news count).code) :
    EndsAs id state (state.dev.robot.read caller false count) := by
  unfold Robot.read
  by_cases news : state.dev.robot.news
  · rw [if_pos news]
    exact ends_deliver alone.undisturbed alone.capacity alone.seen news code
  · rw [if_neg news]
    refine ⟨state.dev, state.thread (.proc id), 0, by simp [steps, run, State.settle], rfl,
      alone.capacity, ⟨code, alone.unanswered, alone.seen⟩, Or.inr ?_⟩
    have unset : state.dev.newDataAvail = false := by simpa [EchoDevice.robot] using news
    have head : (state.settle (.proc id) state.dev (state.thread (.proc id))).code (.proc id) =
        (Wait.news count).code := (settle_code ..).trans code
    simp [State.asleep, head, Wait.code, unset]

theorem ends_read {nonblock : Bool} (alone : Alone id caller state)
    (code : state.code (.proc id) = echoRead nonblock count) :
    EndsAs id state (state.dev.robot.read caller nonblock count) := by
  cases nonblock with
  | false => exact ends_await alone code
  | true =>
    have first : state.code (.proc id) = .testNonblock :: (Wait.news count).code := code
    have tested := run_nonblock first
    cases news : state.dev.newDataAvail with
    | false =>
      rw [news] at tested
      have unset : state.dev.robot.news = false := news
      simp only [Robot.read, unset, Bool.false_eq_true, ↓reduceIte]
      exact endsAs_back tested rfl alone.capacity rfl ⟨rfl, rfl, alone.seen⟩
    | true =>
      rw [news] at tested
      have set : state.dev.robot.news = true := news
      rw [Robot.read, if_pos set]
      refine EndsAs.after tested (ends_deliver alone.undisturbed.settle alone.capacity ?_ news
        (settle_code ..))
      rw [settle_thread, alone.seen]

theorem ends_move {servoId angle : Nat} (alone : Alone id caller state)
    (code : state.code (.proc id) =
      [.setAngleOrReturn servoId angle] ++ notifyReaders ++ [.ret value]) :
    EndsAs id state (if servoId < echoNumServos then
      ((state.dev.robot.turn servoId angle).notify, caller.back value)
    else (state.dev.robot, caller.back (-EINVAL))) := by
  by_cases known : servoId < echoNumServos
  · obtain ⟨dev, ran, buffer, robot⟩ := run_setAngle alone.undisturbed known code
    rw [if_pos known, ← robot]
    exact endsAs_ret ran rfl alone.seen (buffer ▸ alone.capacity)
  · rw [if_neg known]
    exact endsAs_back (run_unknown_servo (Nat.le_of_not_lt known) code) rfl alone.capacity rfl
      ⟨rfl, rfl, alone.seen⟩

/-- The part of a `RESET` that comes after the stop. -/
def centring : Code :=
  [.clearBuffer, .setAngle echoServoPan echoServoCenter, .setAngle echoServoTilt echoServoCenter,
    .setAngle echoServoTilt2 echoServoCenter] ++ notifyReaders ++ [.ret 0]

theorem ends_centring (alone : Alone id caller state) (code : state.code (.proc id) = centring) :
    EndsAs id state ({ state.dev.robot with
      recording := [], pos := fun _ => echoServoCenter, news := true }, caller.back 0) := by
  obtain ⟨dev, ran, empty, robot⟩ := run_centre alone.undisturbed code
  rw [← robot]
  exact endsAs_ret ran rfl alone.seen (by simp [empty])

theorem ends_reset (alone : Alone id caller state) (code : state.code (.proc id) = echoIocReset) :
    EndsAs id state (state.dev.robot.reset, caller.back 0) := by
  have split : echoIocReset = echoStateStop ++ centring := rfl
  exact EndsAs.after (run_stop alone.undisturbed (code.trans split))
    (ends_centring (alone.settle rfl rfl alone.capacity) (settle_code ..))

theorem ends_getState (alone : Alone id caller state)
    (code : state.code (.proc id) = buildSnapshot ++ [.copyToUser sizeofEchoSnapshot, .ret 0]) :
    EndsAs id state
      (state.dev.robot, { (caller.back 0) with seen := some state.dev.robot.snapshot }) :=
  endsAs_back (run_getState alone.undisturbed code) rfl alone.capacity rfl
    ⟨rfl, rfl, congrArg some (EchoSnapshot.copied_whole _ _)⟩

theorem ends_setSpeed {speed : Nat} (alone : Alone id caller state)
    (code : state.code (.proc id) = [.setReplaySpeed speed, .ret 0]) :
    EndsAs id state ({ state.dev.robot with speed := speed }, caller.back 0) :=
  endsAs_back (run_solo alone.undisturbed code 2) rfl alone.capacity rfl ⟨rfl, rfl, alone.seen⟩

theorem ends_write {copied : Option EchoCmd} (alone : Alone id caller state)
    (code : state.code (.proc id) = echoWrite count copied) :
    EndsAs id state (state.dev.robot.write state.clock caller count copied) := by
  unfold echoWrite at code
  unfold Robot.write
  by_cases short : count < sizeofEchoCmd
  · rw [if_pos short] at code ⊢
    exact ends_ret alone code
  rw [if_neg short] at code ⊢
  cases copied with
  | none => exact ends_ret alone code
  | some cmd =>
    dsimp only at code ⊢
    by_cases teach : cmd.command = echoCmdTeach
    · rw [if_pos teach] at code ⊢
      exact ends_teach alone code
    rw [if_neg teach] at code ⊢
    by_cases replay : cmd.command = echoCmdReplay
    · rw [if_pos replay] at code ⊢
      exact ends_replay alone code
    rw [if_neg replay] at code ⊢
    by_cases stop : cmd.command = echoCmdStop
    · rw [if_pos stop] at code ⊢
      exact ends_stop alone code
    rw [if_neg stop] at code ⊢
    by_cases move : cmd.command = echoCmdMove
    · rw [if_pos move] at code ⊢
      exact ends_move alone code
    · rw [if_neg move] at code ⊢
      exact ends_ret alone code

theorem ends_ioctl {ioc : EchoIoc} (alone : Alone id caller state)
    (code : state.code (.proc id) = echoIoctl ioc) :
    EndsAs id state (state.dev.robot.ioctl state.clock caller ioc) := by
  cases ioc with
  | setSpeed copied =>
    cases copied with
    | none => exact ends_ret alone code
    | some speed =>
      simp only [echoIoctl] at code
      simp only [Robot.ioctl]
      by_cases zero : speed = 0
      · rw [if_pos zero] at code ⊢
        exact ends_ret alone code
      · rw [if_neg zero] at code ⊢
        exact ends_setSpeed alone code
  | reset => exact ends_reset alone code
  | getState => exact ends_getState alone code
  | setMode copied =>
    rcases copied with _ | _ | _ | _ | mode
    · exact ends_ret alone code
    · exact ends_stop alone code
    · exact ends_teach alone code
    · exact ends_start alone code
    · exact ends_ret alone code
  | unknown => exact ends_ret alone code

/-- Every system call ends as the robot answers it. -/
theorem ends_request {request : Request} (alone : Alone id caller state)
    (may : (Tid.proc id).mayCall request = true) (code : state.code (.proc id) = request.code) :
    ∃ done, state.dev.robot.request state.clock caller request = some done ∧
      EndsAs id state done := by
  cases request with
  | read nonblock count => exact ⟨_, rfl, ends_read alone code⟩
  | write count copied => exact ⟨_, rfl, ends_write alone code⟩
  | ioctl ioc => exact ⟨_, rfl, ends_ioctl alone code⟩
  | input pin => simp [Tid.mayCall] at may

end Request

section Events
variable {state entered final : State} {system : RobotSystem} {id : Nat}

theorem Wait.code_ne_nil (wait : Wait) : wait.code ≠ [] := by
  cases wait <;> simp [Wait.code]

/-- Who waits for nothing is not in the driver. -/
theorem Stands.free_iff (stands : Stands state system) :
    (system.callers id).waiting = none ↔ state.code (.proc id) = [] := by
  have code : state.code (.proc id) = (system.callers id).code := (stands.callers id).code
  rw [code, Caller.code]
  cases (system.callers id).waiting with
  | none => simp
  | some wait => simp [Wait.code_ne_nil]

theorem Stands.undisturbed (stands : Stands state system) {tid : Tid} (notTimer : tid ≠ .timer)
    (notWorker : tid ≠ .worker) : Undisturbed tid state where
  notTimer := notTimer
  notWorker := notWorker
  timer := stands.others .timer (by simp)
  worker := stands.others .worker (by simp)

theorem request_ends {request : Request} (stands : Stands state system)
    (enters : next state (.call (.proc id) request) = some entered) :
    ∃ final reached, system.next (.request id request) = some reached ∧
      Stops (.proc id) entered final ∧ Stands final reached := by
  obtain ⟨⟨may, idle⟩, rfl⟩ := next_call.mp enters
  rw [show { state.dev with irqCount := state.dev.irqCount + request.interrupts } = state.dev from
    enter_dev state may]
  have alone : Alone id (system.callers id) (state.settle (.proc id) state.dev
      ((state.thread (.proc id)).begin request.code)) := by
    refine ⟨?_, ?_, stands.capacity, (stands.undisturbed (by simp) (by simp)).settle⟩
    · rw [settle_thread]
      exact (stands.callers id).seen
    · rw [settle_thread]
      rfl
  obtain ⟨done, answers, dev, thread, count, ran, robot, capacity, caller, halted⟩ :=
    ends_request alone may (settle_code ..)
  rw [settle_settle] at ran halted
  refine ⟨_, system.settle id done, ?_, ⟨halted, count, ran⟩, stands.settle robot capacity caller⟩
  rw [settle_dev, settle_clock, ← stands.robot, ← stands.clock] at answers
  simp [RobotSystem.next, stands.free_iff.mpr idle, answers]

theorem Robot.length_input {robot : Robot} {clock : Nat} {servo : Fin echoNumServos} {delta : Int}
    (fits : robot.recording.length ≤ echoFifoSize) :
    (robot.input clock servo delta).recording.length ≤ echoFifoSize := by
  unfold Robot.input
  split
  · exact fits
  · exact length_echoBufferRecord_le _ _ fits

/-- An interrupt thread runs through the input, or is muted. -/
theorem ends_input {servo : Fin echoNumServos} {delta : Int} {tid : Tid}
    (alone : Undisturbed tid state) (code : state.code tid = echoStateHandleInput servo delta) :
    ∃ dev thread count, run next state (steps tid count) = some (state.settle tid dev thread) ∧
      thread.code = [] ∧ dev.robot = state.dev.robot.input state.clock servo delta := by
  by_cases mode : state.dev.state.mode = .replay
  · refine ⟨_, _, 1, run_muted mode code, rfl, ?_⟩
    rw [Robot.input, if_pos (show state.dev.robot.mode = .replay from mode)]
  · obtain ⟨dev, thread, ran, returned, robot⟩ := run_inputPin alone mode code
    exact ⟨dev, thread, 10, ran, returned, robot⟩

/-- It makes no difference that the interrupt is counted first. -/
theorem Robot.input_counted {robot : Robot} {clock : Nat} {servo : Fin echoNumServos}
    {delta : Int} :
    robot.counted.input clock servo delta = (robot.input clock servo delta).counted := by
  cases mode : robot.mode <;> simp [Robot.input, Robot.counted, Robot.notify, mode]

theorem input_ends {pin : EchoGpio} (stands : Stands state system)
    (enters : next state (.call (.irq id) (.input pin)) = some entered) :
    ∃ final reached, system.next (.input id pin) = some reached ∧
      Stops (.irq id) entered final ∧ Stands final reached := by
  obtain ⟨-, rfl⟩ := next_call.mp enters
  let dev := { state.dev with irqCount := state.dev.irqCount + 1 }
  have alone : Undisturbed (.irq id) (state.settle (.irq id) dev
      ((state.thread (.irq id)).begin (joyOpDirection pin))) :=
    (stands.undisturbed (by simp) (by simp)).settle
  obtain ⟨servo, delta, code, inputs⟩ : ∃ servo delta, joyOpDirection pin =
      echoStateHandleInput (servo : Fin echoNumServos) delta ∧ ∀ robot : Robot, ∀ clock,
        robot.inputPin clock pin = (robot.input clock servo delta).counted := by
    cases pin <;> exact ⟨_, _, rfl, fun _ _ => rfl⟩
  obtain ⟨last, thread, count, ran, returned, robot⟩ :=
    ends_input alone ((settle_code ..).trans code)
  rw [settle_settle] at ran
  have counted : dev.robot = system.robot.counted := by
    rw [stands.robot]
    rfl
  rw [settle_dev, settle_clock, counted, ← stands.clock, Robot.input_counted, ← inputs] at robot
  refine ⟨_, _, rfl, ⟨Or.inl ((settle_code ..).trans returned), count, ran⟩,
    stands.settle_other (by simp) robot ?_ returned⟩
  change last.robot.recording.length ≤ echoFifoSize
  rw [robot, inputs]
  exact Robot.length_input (by rw [stands.robot]; exact stands.capacity)

theorem expire_ends (stands : Stands state system)
    (enters : next state .expire = some entered) :
    ∃ final reached, system.next .expire = some reached ∧ Stops .timer entered final ∧
      Stands final reached := by
  obtain ⟨⟨pending, -⟩, rfl⟩ := next_expire.mp enters
  have armed : system.robot.armed = true := by
    rw [stands.robot]
    exact pending
  obtain ⟨dev, thread, count, ran, returned, robot⟩ := @run_timer (state.settle .timer
    { state.dev with state := { state.dev.state with timerPending := false } }
    ((state.thread .timer).begin inactivityTimerFn)) .timer rfl (settle_code ..)
  rw [settle_settle] at ran
  have same : dev.robot = system.robot.expire := by
    rw [robot, stands.robot]
    rfl
  refine ⟨_, { system with robot := system.robot.expire }, by simp [RobotSystem.next, armed],
    ⟨Or.inl ((settle_code ..).trans returned), count, ran⟩,
    stands.settle_other (by simp) same ?_ returned⟩
  change dev.robot.recording.length ≤ echoFifoSize
  rw [same, stands.robot, Robot.expire]
  split <;> exact stands.capacity

theorem perform_ends (stands : Stands state system)
    (enters : next state .startWork = some entered) :
    ∃ final reached, system.next .perform = some reached ∧ Stops .worker entered final ∧
      Stands final reached := by
  obtain ⟨⟨pending, -⟩, rfl⟩ := next_startWork.mp enters
  have queued : system.robot.queued = true := by
    rw [stands.robot]
    exact pending
  obtain ⟨dev, thread, count, ran, returned, robot⟩ := @run_worker (state.settle .worker
    { state.dev with buffer := { state.dev.buffer with replayPending := false } }
    ((state.thread .worker).begin replayWorker)) .worker stands.capacity rfl (settle_code ..)
  rw [settle_settle] at ran
  refine ⟨_, { system with robot := system.robot.perform }, by simp [RobotSystem.next, queued],
    ⟨Or.inl ((settle_code ..).trans returned), count, ran⟩,
    stands.settle_other (by simp) ?_ ?_ returned⟩
  · rw [robot, stands.robot]
    rfl
  · change dev.robot.recording.length ≤ echoFifoSize
    rw [robot]
    exact stands.capacity

/-- What a caller in the driver waits for. -/
theorem Stands.waits (stands : Stands state system) (inside : state.code (.proc id) ≠ []) :
    ∃ wait, (system.callers id).waiting = some wait ∧ state.code (.proc id) = wait.code := by
  have code : state.code (.proc id) = (system.callers id).code := (stands.callers id).code
  rw [code, Caller.code] at inside ⊢
  cases waiting : (system.callers id).waiting with
  | none => simp [waiting] at inside
  | some wait => exact ⟨wait, rfl, rfl⟩

/-- It sleeps as long as that has not come. -/
theorem asleep_wait {wait : Wait} (code : state.code (.proc id) = wait.code) :
    state.asleep (.proc id) = true ↔ (match wait with
      | .news _ => state.dev.robot.news
      | .replay _ => state.dev.robot.finished) = false := by
  cases wait <;> simp [State.asleep, code, Wait.code, EchoDevice.robot]

/-- A caller goes on when what it waits for has come. -/
theorem resume_ends (stands : Stands state system) (awake : ¬ state.halted (.proc id)) :
    ∃ final reached, system.next (.resume id) = some reached ∧ Stops (.proc id) state final ∧
      Stands final reached := by
  obtain ⟨inside, stirs⟩ := not_or.mp awake
  obtain ⟨wait, waiting, code⟩ := stands.waits inside
  rw [asleep_wait code] at stirs
  obtain ⟨done, resumes, dev, thread, count, ran, robot, capacity, caller, halted⟩ :
      ∃ done, system.robot.resume (system.callers id) = some done ∧ EndsAs id state done := by
    unfold Robot.resume
    rw [waiting, stands.robot]
    cases wait with
    | news count =>
      have news : state.dev.robot.news = true := by simpa using stirs
      refine ⟨_, if_pos news, ?_⟩
      exact ends_deliver (stands.undisturbed (by simp) (by simp)) stands.capacity
        (stands.callers id).seen news code
    | replay count =>
      have finished : state.dev.robot.finished = true := by simpa using stirs
      refine ⟨_, if_pos finished, ?_⟩
      exact endsAs_back (run_finished finished code) rfl stands.capacity rfl
        ⟨rfl, rfl, (stands.callers id).seen⟩
  exact ⟨_, system.settle id done, by simp [RobotSystem.next, resumes], ⟨halted, count, ran⟩,
    stands.settle robot capacity caller⟩

theorem interrupt_ends (stands : Stands state system)
    (leaves : next state (.signal (.proc id)) = some final) :
    ∃ reached, system.next (.interrupt id) = some reached ∧ Stands final reached := by
  obtain ⟨asleep, rfl⟩ := next_signal.mp leaves
  have inside : state.code (.proc id) ≠ [] := by
    intro returned
    simp [State.asleep, returned] at asleep
  obtain ⟨wait, waiting, code⟩ := stands.waits inside
  rw [asleep_wait code] at asleep
  have interrupted : system.robot.interrupt (system.callers id) =
      some ((system.callers id).back (-ERESTARTSYS)) := by
    unfold Robot.interrupt
    rw [waiting, stands.robot]
    cases wait <;> simp only at asleep <;> simp [asleep]
  refine ⟨system.settle id (system.robot, (system.callers id).back (-ERESTARTSYS)), ?_, ?_⟩
  · simp [RobotSystem.next, interrupted]
  · exact stands.settle stands.robot.symm stands.capacity ⟨rfl, rfl, (stands.callers id).seen⟩

/-- What the robot allows, the driver allows. -/
theorem happens_of_next {event : RobotEvent} {reached : RobotSystem}
    (stands : Stands state system) (moved : system.next event = some reached) :
    ∃ final, Happens state event final := by
  cases event with
  | request id request =>
    obtain ⟨free, done, answers, -⟩ : (system.callers id).waiting = none ∧ ∃ done,
        system.robot.request system.clock (system.callers id) request = some done ∧
          system.settle id done = reached := by simpa [RobotSystem.next] using moved
    have may : (Tid.proc id).mayCall request = true := by
      cases request <;> first | rfl | cases answers
    have enters := next_call.mpr ⟨⟨may, stands.free_iff.mp free⟩, rfl⟩
    obtain ⟨final, -, -, stops, -⟩ := request_ends stands enters
    exact ⟨final, .request enters stops⟩
  | input id pin =>
    have enters := next_call.mpr ⟨⟨show (Tid.irq id).mayCall (.input pin) = true from rfl,
      stands.others (.irq id) (by simp)⟩, rfl⟩
    obtain ⟨final, -, -, stops, -⟩ := input_ends stands enters
    exact ⟨final, .input enters stops⟩
  | expire =>
    have armed : system.robot.armed = true := by
      by_contra unarmed
      simp [RobotSystem.next, unarmed] at moved
    rw [stands.robot] at armed
    have enters := next_expire.mpr ⟨⟨armed, stands.others .timer (by simp)⟩, rfl⟩
    obtain ⟨final, -, -, stops, -⟩ := expire_ends stands enters
    exact ⟨final, .expire enters stops⟩
  | perform =>
    have queued : system.robot.queued = true := by
      by_contra unqueued
      simp [RobotSystem.next, unqueued] at moved
    rw [stands.robot] at queued
    have enters := next_startWork.mpr ⟨⟨queued, stands.others .worker (by simp)⟩, rfl⟩
    obtain ⟨final, -, -, stops, -⟩ := perform_ends stands enters
    exact ⟨final, .perform enters stops⟩
  | resume id =>
    obtain ⟨done, resumes, -⟩ : ∃ done, system.robot.resume (system.callers id) = some done ∧
        system.settle id done = reached := by simpa [RobotSystem.next] using moved
    have awake : ¬ state.halted (.proc id) := by
      unfold Robot.resume at resumes
      rw [stands.robot] at resumes
      rintro (returned | asleep)
      · simp [stands.free_iff.mpr returned] at resumes
      · have inside : state.code (.proc id) ≠ [] := by
          intro returned
          simp [State.asleep, returned] at asleep
        obtain ⟨wait, waiting, code⟩ := stands.waits inside
        rw [asleep_wait code] at asleep
        rw [waiting] at resumes
        cases wait <;> simp only at asleep <;> simp [asleep] at resumes
    obtain ⟨final, -, -, stops, -⟩ := resume_ends stands awake
    exact ⟨final, .resume awake stops⟩
  | interrupt id =>
    obtain ⟨caller, interrupts, -⟩ : ∃ caller, system.robot.interrupt (system.callers id) =
        some caller ∧ system.settle id (system.robot, caller) = reached := by
      simpa [RobotSystem.next] using moved
    have asleep : state.asleep (.proc id) = true := by
      unfold Robot.interrupt at interrupts
      rw [stands.robot] at interrupts
      have inside : state.code (.proc id) ≠ [] := by
        intro returned
        simp [stands.free_iff.mpr returned] at interrupts
      obtain ⟨wait, waiting, code⟩ := stands.waits inside
      rw [asleep_wait code]
      rw [waiting] at interrupts
      by_contra set
      cases wait <;> simp only [Bool.not_eq_false] at set <;> simp [set] at interrupts
    exact ⟨_, .interrupt (next_signal.mpr ⟨asleep, rfl⟩)⟩
  | pass ns => exact ⟨_, .pass ns⟩

theorem next_of_happens {event : RobotEvent} (stands : Stands state system)
    (happened : Happens state event final) :
    ∃ reached, system.next event = some reached ∧ Stands final reached := by
  cases happened with
  | request enters stops =>
    obtain ⟨other, reached, moved, ends, there⟩ := request_ends stands enters
    exact ⟨reached, moved, stops_unique ends stops ▸ there⟩
  | input enters stops =>
    obtain ⟨other, reached, moved, ends, there⟩ := input_ends stands enters
    exact ⟨reached, moved, stops_unique ends stops ▸ there⟩
  | expire enters stops =>
    obtain ⟨other, reached, moved, ends, there⟩ := expire_ends stands enters
    exact ⟨reached, moved, stops_unique ends stops ▸ there⟩
  | perform enters stops =>
    obtain ⟨other, reached, moved, ends, there⟩ := perform_ends stands enters
    exact ⟨reached, moved, stops_unique ends stops ▸ there⟩
  | resume awake stops =>
    obtain ⟨other, reached, moved, ends, there⟩ := resume_ends stands awake
    exact ⟨reached, moved, stops_unique ends stops ▸ there⟩
  | interrupt leaves => exact interrupt_ends stands leaves
  | pass ns =>
    refine ⟨_, rfl, ⟨stands.robot, ?_, stands.capacity, stands.callers, stands.others⟩⟩
    rw [stands.clock]

end Events

theorem driver_agrees : Agrees Happens RobotSystem.next Stands where
  sound _ _ _ _ stands happened := next_of_happens stands happened
  complete _ _ _ _ stands moved := happens_of_next stands moved

theorem stands_initial (servo : EchoServoCtx) (clock : Nat) :
    Stands (State.initial servo clock) (RobotSystem.initial servo.pos clock) where
  robot := rfl
  clock := rfl
  capacity := Nat.zero_le _
  callers _ := ⟨rfl, rfl, rfl⟩
  others _ _ := rfl

/-- In every sequence of events, each taken to its end, the driver and the robot allow the
same, and stand alike after it. -/
theorem driver_is_robot (servo : EchoServoCtx) (clock : Nat) (events : List RobotEvent) :
    (∀ final, Happening Happens (State.initial servo clock) events final →
      ∃ reached, run RobotSystem.next (RobotSystem.initial servo.pos clock) events = some reached ∧
        Stands final reached) ∧
    ∀ reached, run RobotSystem.next (RobotSystem.initial servo.pos clock) events = some reached →
      ∃ final, Happening Happens (State.initial servo clock) events final ∧ Stands final reached :=
  ⟨fun _ happening => driver_agrees.run_sound (stands_initial servo clock) happening,
    fun _ ran => driver_agrees.run_complete (stands_initial servo clock) ran⟩

end EchoRobot
