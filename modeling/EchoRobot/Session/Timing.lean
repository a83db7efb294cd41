import EchoRobot.Session.Refinement

/-! The inactivity timer in real time, each event taken to its end. Armed at `t`, it expires
between `t + timeout` and `t + timeout + late`; what `jiffies` are rounded by is in the two. -/

namespace EchoRobot

open Interleaving

/-- What a timer goes by. -/
def State.view (state : State) : Robot × Nat := (state.dev.robot, state.clock)

def RobotSystem.view (system : RobotSystem) : Robot × Nat := (system.robot, system.clock)

theorem Stands.view {state : State} {system : RobotSystem} (stands : Stands state system) :
    state.view = system.view := by
  rw [State.view, RobotSystem.view, stands.robot, stands.clock]

/-- The event comes to a `mod_timer`: a command that sets the mode to `TEACH`, or an input
that is not muted. -/
def armsTimer (mode : EchoMode) : RobotEvent → Bool
  | .request _ request => request.code.contains .modTimer
  | .input _ _ => mode != .replay
  | _ => false

/-- The timer expires at its deadline or up to `late` after it. -/
def InTime (late : Nat) (seen : Robot × Nat) (deadline : Nat) : RobotEvent → Prop
  | .expire => deadline ≤ seen.2
  | .pass ns => seen.1.armed = true → seen.2 + ns ≤ deadline + late
  | _ => True

instance (late : Nat) (seen : Robot × Nat) (deadline : Nat) (event : RobotEvent) :
    Decidable (InTime late seen deadline event) := by
  cases event <;> unfold InTime <;> infer_instance

def nextDeadline (timeout : Nat) (seen : Robot × Nat) (deadline : Nat) (event : RobotEvent) : Nat :=
  if armsTimer seen.1.mode event then seen.2 + timeout else deadline

/-- The driver in real time, with the deadline of its timer. -/
abbrev TimedHappens (timeout late : Nat) :=
  Beside Happens State.view (InTime late) (nextDeadline timeout)

/-- The robot in real time. -/
abbrev timedNext (timeout late : Nat) :=
  nextBeside RobotSystem.next RobotSystem.view (InTime late) (nextDeadline timeout)

/-- Driver and robot stand alike, beside the same ghost. -/
def StandsBeside {Ghost : Type} (pair : State × Ghost) (robot : RobotSystem × Ghost) : Prop :=
  Stands pair.1 robot.1 ∧ pair.2 = robot.2

theorem timed_agrees (timeout late : Nat) :
    Agrees (TimedHappens timeout late) (timedNext timeout late) StandsBeside :=
  driver_agrees.beside fun _ _ stands => stands.view

theorem toU32_le (value : Nat) : toU32 (value : Int) ≤ value := by
  unfold toU32 u32Size
  omega

section Robot
variable {robot : Robot} {caller : Caller} {clock : Nat} {done : Robot × Caller}

/-- A robot whose session goes on as it was, or is over. -/
structure Robot.GoesOn (robot after : Robot) : Prop where
  mode : after.mode = .teach → robot.mode = .teach ∧ after.armed = robot.armed
  armed : after.armed = true → robot.armed = true
  last : after.lastMove = robot.lastMove
  recording : after.recording = robot.recording

theorem goesOn_self : robot.GoesOn robot := ⟨fun mode => ⟨mode, rfl⟩, id, rfl, rfl⟩

theorem goesOn_stop : robot.GoesOn robot.stop := ⟨by rintro ⟨⟩, by rintro ⟨⟩, rfl, rfl⟩

theorem goesOn_start : robot.GoesOn robot.start := ⟨by rintro ⟨⟩, by rintro ⟨⟩, rfl, rfl⟩

/-- What a call makes of the session. -/
inductive Robot.Handles (robot : Robot) (clock : Nat) (code : Code) : Robot → Prop where
  | teaches (arms : code.contains .modTimer = true) (clears : code.contains .clearBuffer = true) :
      Handles robot clock code (robot.teach clock)
  | resets (arms : code.contains .modTimer = false) (clears : code.contains .clearBuffer = true) :
      Handles robot clock code robot.reset
  | goesOn {after : Robot} (arms : code.contains .modTimer = false)
      (clears : code.contains .clearBuffer = false) (same : robot.GoesOn after) :
      Handles robot clock code after

theorem handles_write {count : Nat} {copied : Option EchoCmd} :
    robot.Handles clock (echoWrite count copied) (robot.write clock caller count copied).1 := by
  simp only [echoWrite, Robot.write]
  by_cases short : count < sizeofEchoCmd
  · rw [if_pos short, if_pos short]
    exact .goesOn rfl rfl goesOn_self
  rw [if_neg short, if_neg short]
  cases copied with
  | none => exact .goesOn rfl rfl goesOn_self
  | some cmd =>
    dsimp only
    split
    · exact .teaches rfl rfl
    split
    · refine .goesOn rfl rfl ?_
      unfold Robot.replay
      dsimp only
      split
      · exact ⟨fun mode => ⟨mode, rfl⟩, id, rfl, rfl⟩
      · exact ⟨by rintro ⟨⟩, by rintro ⟨⟩, rfl, rfl⟩
    split
    · exact .goesOn rfl rfl goesOn_stop
    split
    · refine .goesOn rfl rfl ?_
      split <;> exact ⟨fun mode => ⟨mode, rfl⟩, id, rfl, rfl⟩
    · exact .goesOn rfl rfl goesOn_self

theorem handles_ioctl {ioc : EchoIoc} :
    robot.Handles clock (echoIoctl ioc) (robot.ioctl clock caller ioc).1 := by
  unfold Robot.ioctl
  split
  · exact .goesOn rfl rfl goesOn_self
  · exact .goesOn rfl rfl goesOn_self
  · rename_i speed
    simp only [echoIoctl]
    split
    · exact .goesOn rfl rfl goesOn_self
    · exact .goesOn rfl rfl ⟨fun mode => ⟨mode, rfl⟩, id, rfl, rfl⟩
  · exact .resets rfl rfl
  · exact .goesOn rfl rfl goesOn_self
  · exact .goesOn rfl rfl goesOn_stop
  · exact .teaches rfl rfl
  · refine .goesOn rfl rfl ?_
    split
    · exact goesOn_self
    · exact goesOn_start
  · rename_i mode zero one two
    simp only [echoIoctl]
    exact .goesOn rfl rfl goesOn_self
  · exact .goesOn rfl rfl goesOn_self

theorem handles_request {request : Request}
    (answers : robot.request clock caller request = some done) :
    robot.Handles clock request.code done.1 := by
  cases request with
  | read nonblock count =>
    obtain rfl := Option.some.inj answers
    refine .goesOn (by cases nonblock <;> rfl) (by cases nonblock <;> rfl) ?_
    unfold Robot.read
    split <;> exact ⟨fun mode => ⟨mode, rfl⟩, id, rfl, rfl⟩
  | write count copied =>
    obtain rfl := Option.some.inj answers
    exact handles_write
  | ioctl ioc =>
    obtain rfl := Option.some.inj answers
    exact handles_ioctl
  | input pin => cases answers

end Robot

/-- The event comes to the clearing of the recording. -/
def clearsBuffer : RobotEvent → Bool
  | .request _ request => request.code.contains .clearBuffer
  | _ => false

/-- What an event makes of the session. -/
inductive Ages (system : RobotSystem) : RobotEvent → RobotSystem → Prop where
  | teaches {id : Nat} {request : Request} {reached : RobotSystem}
      (arms : armsTimer system.robot.mode (.request id request) = true)
      (clears : clearsBuffer (.request id request) = true) (clock : reached.clock = system.clock)
      (robot : reached.robot = system.robot.teach system.clock) :
      Ages system (.request id request) reached
  | records {id : Nat} {pin : EchoGpio} {reached : RobotSystem} (servo : Fin echoNumServos)
      (delta : Int) (active : system.robot.mode ≠ .replay) (clock : reached.clock = system.clock)
      (robot : reached.robot = (system.robot.input system.clock servo delta).counted) :
      Ages system (.input id pin) reached
  | resets {id : Nat} {request : Request} {reached : RobotSystem}
      (arms : armsTimer system.robot.mode (.request id request) = false)
      (clears : clearsBuffer (.request id request) = true) (clock : reached.clock = system.clock)
      (robot : reached.robot = system.robot.reset) : Ages system (.request id request) reached
  | passes (ns : Nat) : Ages system (.pass ns) { system with clock := system.clock + ns }
  | goesOn {event : RobotEvent} {reached : RobotSystem}
      (arms : armsTimer system.robot.mode event = false) (clears : clearsBuffer event = false)
      (clock : reached.clock = system.clock) (same : system.robot.GoesOn reached.robot) :
      Ages system event reached

section Step
variable {system reached : RobotSystem} {event : RobotEvent}

theorem ages_input {servo : Fin echoNumServos} {delta : Int} {id : Nat} {pin : EchoGpio} :
    Ages system (.input id pin)
      { system with robot := (system.robot.input system.clock servo delta).counted } := by
  by_cases mode : system.robot.mode = .replay
  · rw [Robot.input, if_pos mode]
    exact .goesOn (by simp [armsTimer, mode]) rfl rfl
      ⟨fun mode => ⟨mode, rfl⟩, fun armed => armed, rfl, rfl⟩
  · exact .records servo delta mode rfl rfl

theorem ages_next (moved : system.next event = some reached) : Ages system event reached := by
  cases event with
  | request id request =>
    simp only [RobotSystem.next] at moved
    split at moved
    · obtain ⟨done, answers, rfl⟩ := Option.map_eq_some_iff.mp moved
      have handles := handles_request answers
      obtain ⟨robot, caller⟩ := done
      cases handles with
      | teaches arms clears => exact .teaches arms clears rfl rfl
      | resets arms clears => exact .resets arms clears rfl rfl
      | goesOn arms clears same => exact .goesOn arms clears rfl same
    · cases moved
  | input id pin =>
    cases moved
    cases pin <;> exact ages_input
  | expire =>
    simp only [RobotSystem.next] at moved
    split at moved <;> cases moved
    refine .goesOn rfl rfl rfl ?_
    unfold Robot.expire
    split
    · exact ⟨by rintro ⟨⟩, by rintro ⟨⟩, rfl, rfl⟩
    · rename_i other
      exact ⟨fun mode => absurd mode other, by rintro ⟨⟩, rfl, rfl⟩
  | perform =>
    simp only [RobotSystem.next] at moved
    split at moved <;> cases moved
    exact .goesOn rfl rfl rfl ⟨by rintro ⟨⟩, id, rfl, rfl⟩
  | resume caller =>
    obtain ⟨done, resumes, rfl⟩ := Option.map_eq_some_iff.mp moved
    refine .goesOn rfl rfl rfl ?_
    unfold Robot.resume at resumes
    repeat' split at resumes
    all_goals first
      | contradiction
      | (cases resumes; exact ⟨fun mode => ⟨mode, rfl⟩, id, rfl, rfl⟩)
  | interrupt caller =>
    obtain ⟨caller, interrupts, rfl⟩ := Option.map_eq_some_iff.mp moved
    exact .goesOn rfl rfl rfl goesOn_self
  | pass ns =>
    cases moved
    exact .passes ns

/-- The timer is armed for the last activity. -/
structure Timely (timeout late : Nat) (timed : RobotSystem × Nat) : Prop where
  armed : timed.1.robot.mode = .teach → timed.1.robot.armed = true
  deadline : timed.1.robot.armed = true → timed.2 = timed.1.robot.lastMove + timeout
  inTime : timed.1.robot.armed = true → timed.1.clock ≤ timed.2 + late
  last : timed.1.robot.lastMove ≤ timed.1.clock
  delays : ∀ move ∈ timed.1.robot.recording, move.delayMs ≤ (timeout + late) / 1000000

/-- A delay on record is a time within one session. -/
theorem delayMs_le {since bound : Nat} (past : since ≤ system.clock)
    (recent : system.clock ≤ since + bound) :
    toU32 (ktimeMsDelta system.clock since) ≤ bound / 1000000 := by
  rw [ktimeMsDelta_of_le past]
  refine (toU32_le ..).trans (Nat.div_le_div_right ?_)
  omega

/-- Armed anew. -/
theorem timely_armed {timeout late : Nat} (clock : reached.clock = system.clock)
    (last : reached.robot.lastMove = system.clock)
    (delays : ∀ move ∈ reached.robot.recording, move.delayMs ≤ (timeout + late) / 1000000)
    (armed : reached.robot.armed = true) :
    Timely timeout late (reached, system.clock + timeout) := by
  refine ⟨fun _ => armed, fun _ => ?_, fun _ => ?_, ?_, delays⟩ <;> dsimp only <;> omega

theorem timely_timedNext {timeout late : Nat} {timed after : RobotSystem × Nat}
    (timely : Timely timeout late timed)
    (moved : timedNext timeout late timed event = some after) : Timely timeout late after := by
  obtain ⟨system, deadline⟩ := timed
  obtain ⟨reached, deadline'⟩ := after
  obtain ⟨inTime, moved, next⟩ := nextBeside_some.mp moved
  dsimp only at inTime moved next
  rw [RobotSystem.view] at inTime next
  have armed := timely.armed
  have on := timely.deadline
  have early := timely.inTime
  have last := timely.last
  dsimp only at armed on early last
  cases ages_next moved with
  | teaches arms clears clock robot =>
    rw [nextDeadline, if_pos arms] at next
    subst next
    refine timely_armed clock ?_ ?_ ?_ <;> rw [robot]
    · rfl
    · rintro move ⟨⟩
    · rfl
  | records servo delta active clock robot =>
    rw [nextDeadline, if_pos (by simpa [armsTimer] using active)] at next
    subst next
    refine timely_armed clock ?_ ?_ ?_ <;> rw [robot, Robot.input, if_neg active]
    · rfl
    · intro move member
      rcases mem_of_mem_echoBufferRecord member with held | rfl
      · exact timely.delays move held
      cases mode : system.robot.mode with
      | idle => exact delayMs_le le_rfl (Nat.le_add_right ..)
      | teach =>
        have soon := early (armed mode)
        rw [on (armed mode), Nat.add_assoc] at soon
        exact delayMs_le last soon
      | replay => exact absurd mode active
    · rfl
  | resets arms clears clock robot =>
    rw [nextDeadline, if_neg (by simpa using arms)] at next
    subst next
    refine ⟨?_, ?_, ?_, ?_, ?_⟩ <;> dsimp only <;> rw [robot]
    · rintro ⟨⟩
    · rintro ⟨⟩
    · rintro ⟨⟩
    · rw [clock]
      exact last
    · rintro move ⟨⟩
  | passes ns =>
    rw [nextDeadline, if_neg (by simp [armsTimer])] at next
    subst next
    exact ⟨armed, on, fun pending => inTime pending, last.trans (Nat.le_add_right ..),
      timely.delays⟩
  | goesOn arms clears clock same =>
    rw [nextDeadline, if_neg (by simpa using arms)] at next
    subst next
    refine ⟨fun mode => ?_, fun pending => ?_, fun pending => ?_, ?_, ?_⟩
    · obtain ⟨mode, pending⟩ := same.mode mode
      exact pending.trans (armed mode)
    · rw [same.last]
      exact on (same.armed pending)
    · rw [clock]
      exact early (same.armed pending)
    · rw [same.last, clock]
      exact last
    · rw [same.recording]
      exact timely.delays

theorem timely_run {timeout late deadline clock : Nat} {pos : Fin echoNumServos → Nat}
    {events : List RobotEvent} {reached : RobotSystem × Nat}
    (ran : run (timedNext timeout late) (RobotSystem.initial pos clock, deadline) events =
      some reached) : Timely timeout late reached := by
  refine run_invariant ran ?_ fun _ _ _ timely moved => timely_timedNext timely moved
  exact ⟨by rintro ⟨⟩, by rintro ⟨⟩, by rintro ⟨⟩, Nat.zero_le _, by rintro _ ⟨⟩⟩

end Step

/-- A session ends by itself once `timeout` has gone by since the last activity, at most
`late` after that; it is replayed whole. -/
structure InSession (timeout late : Nat) (timed : State × Nat) : Prop where
  pending : timed.1.dev.state.mode = .teach → timed.1.dev.state.timerPending = true
  lasts : timed.1.dev.state.mode = .teach →
    timed.1.clock ≤ timed.1.dev.state.lastMoveTime + timeout + late
  waits : ∀ after, TimedHappens timeout late timed .expire after →
    timed.1.dev.state.lastMoveTime + timeout ≤ timed.1.clock
  ends : timed.1.dev.state.mode = .teach →
    timed.1.dev.state.lastMoveTime + timeout ≤ timed.1.clock →
    ∃ after, TimedHappens timeout late timed .expire after ∧
      after.1.dev.state.mode = .replay ∧ after.1.dev.buffer.replayPending = true ∧
      after.1.dev.buffer.moveFifo = timed.1.dev.buffer.moveFifo
  delays : ∀ move ∈ timed.1.dev.buffer.moveFifo, move.delayMs ≤ (timeout + late) / 1000000

section Session
variable {timeout late deadline : Nat} {state : State} {after : State × Nat}
variable {robot : RobotSystem × Nat}

theorem reached_of_expire (stands : StandsBeside (state, deadline) robot)
    (timely : Timely timeout late robot)
    (expires : TimedHappens timeout late (state, deadline) .expire after) :
    state.dev.state.lastMoveTime + timeout ≤ state.clock := by
  obtain ⟨final, moved, -⟩ := (timed_agrees timeout late).sound _ _ _ _ stands expires
  obtain ⟨inTime, moved, -⟩ := nextBeside_some.mp moved
  have same : robot.1.robot = state.dev.robot := stands.1.robot
  have clock : robot.1.clock = state.clock := stands.1.clock
  simp only [RobotSystem.next] at moved
  split at moved
  · rename_i pending
    have on := timely.deadline pending
    rw [same] at on
    rw [← clock]
    exact on.symm.trans_le inTime
  · cases moved

theorem expires_of_reached (stands : StandsBeside (state, deadline) robot)
    (timely : Timely timeout late robot) (mode : state.dev.state.mode = .teach)
    (reached : state.dev.state.lastMoveTime + timeout ≤ state.clock) :
    ∃ after, TimedHappens timeout late (state, deadline) .expire after ∧
      after.1.dev.state.mode = .replay ∧ after.1.dev.buffer.replayPending = true ∧
      after.1.dev.buffer.moveFifo = state.dev.buffer.moveFifo := by
  have same : robot.1.robot = state.dev.robot := stands.1.robot
  have clock : robot.1.clock = state.clock := stands.1.clock
  have teaches : robot.1.robot.mode = .teach := by
    rw [same]
    exact mode
  have pending := timely.armed teaches
  have moved : timedNext timeout late robot .expire =
      some ({ robot.1 with robot := robot.1.robot.expire }, robot.2) := by
    refine nextBeside_some.mpr ⟨?_, if_pos pending, rfl⟩
    have on := timely.deadline pending
    rw [same] at on
    rw [← clock] at reached
    exact on.trans_le reached
  obtain ⟨after, expires⟩ := (timed_agrees timeout late).complete _ _ _ _ stands moved
  obtain ⟨_, moved', stands'⟩ := (timed_agrees timeout late).sound _ _ _ _ stands expires
  obtain rfl := Option.some.inj (moved.symm.trans moved')
  have expired : robot.1.robot.expire = after.1.dev.robot := stands'.1.robot
  rw [Robot.expire, if_pos teaches, same] at expired
  exact ⟨after, expires, (congrArg Robot.mode expired).symm,
    (congrArg Robot.queued expired).symm, (congrArg Robot.recording expired).symm⟩

theorem inSession_of_timely (stands : StandsBeside (state, deadline) robot)
    (timely : Timely timeout late robot) : InSession timeout late (state, deadline) := by
  have same : robot.1.robot = state.dev.robot := stands.1.robot
  have clock : robot.1.clock = state.clock := stands.1.clock
  have armed := timely.armed
  have on := timely.deadline
  have early := timely.inTime
  have delays := timely.delays
  rw [same] at armed on early delays
  rw [clock] at early
  refine ⟨armed, fun mode => ?_, fun after => reached_of_expire stands timely,
    expires_of_reached stands timely, delays⟩
  rw [on (armed mode)] at early
  exact early (armed mode)

end Session

/-- In every sequence of events in real time, each taken to its end. -/
theorem sessions_keep_time {timeout late deadline clock : Nat} {servo : EchoServoCtx}
    {events : List RobotEvent} {final : State × Nat}
    (happening : Happening (TimedHappens timeout late) (State.initial servo clock, deadline)
      events final) : InSession timeout late final := by
  have begins : StandsBeside (State.initial servo clock, deadline)
      (RobotSystem.initial servo.pos clock, deadline) := ⟨stands_initial servo clock, rfl⟩
  obtain ⟨reached, ran, stands⟩ := (timed_agrees timeout late).run_sound begins happening
  exact inSession_of_timely stands (timely_run ran)

/-- Two inputs three seconds apart; the timer is 2 ms late. -/
def silence : List RobotEvent :=
  [.input 0 .up, .pass 3000000000, .input 0 .left, .pass 5002000000]

theorem sessions_keep_time_silence :
    ∃ final, Happening (TimedHappens 5000000000 10000000) (State.initial simServo 0, 0)
        silence final ∧
      (final.1.dev.state.mode = .teach ∧ final.1.dev.buffer.moveFifo ≠ []) ∧
      InSession 5000000000 10000000 final := by
  have facts : (run (timedNext 5000000000 10000000) (RobotSystem.initial simServo.pos 0, 0)
      silence).any (fun timed => timed.1.robot.mode == .teach &&
        !timed.1.robot.recording.isEmpty) = true := by
    decide
  obtain ⟨reached, ran, facts⟩ := (Option.any_eq_true ..).mp facts
  simp only [Bool.and_eq_true, beq_iff_eq, Bool.not_eq_true', List.isEmpty_eq_false_iff] at facts
  have begins : StandsBeside (State.initial simServo 0, 0)
      (RobotSystem.initial simServo.pos 0, 0) := ⟨stands_initial simServo 0, rfl⟩
  obtain ⟨final, happening, stands⟩ := (timed_agrees ..).run_complete begins ran
  have robot := stands.1.robot
  rw [robot] at facts
  exact ⟨final, happening, facts, sessions_keep_time happening⟩

end EchoRobot
