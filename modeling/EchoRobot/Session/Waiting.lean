import EchoRobot.Session.Refinement

/-! Nobody waits in vain while calls do not overlap. A replay that is waited for is over, or
queued and ended by its performance. -/

namespace EchoRobot

open Interleaving

/-- A robot that replays has the replay queued, and a replay that is not queued is over. -/
structure Robot.Attended (robot : Robot) (awaited : Prop) : Prop where
  replays : robot.mode = .replay → robot.queued = true
  ends : awaited → robot.finished = true ∨ robot.queued = true

def RobotSystem.awaited (system : RobotSystem) : Prop :=
  ∃ id count, (system.callers id).waiting = some (.replay count)

section Step
variable {system reached : RobotSystem} {robot : Robot} {caller : Caller} {awaited : Prop}
variable {clock : Nat} {done : Robot × Caller}

/-- A change that leaves alone what a replay is about. -/
theorem Robot.Attended.same {after : Robot} (attended : robot.Attended awaited)
    (mode : after.mode = .replay → robot.mode = .replay) (queued : after.queued = robot.queued)
    (finished : after.finished = robot.finished) : after.Attended awaited where
  replays replay := queued ▸ attended.replays (mode replay)
  ends waits := by
    rw [queued, finished]
    exact attended.ends waits

theorem attended_stop : robot.stop.Attended awaited where
  replays := by rintro ⟨⟩
  ends _ := Or.inl rfl

theorem attended_start : robot.start.Attended awaited where
  replays _ := rfl
  ends _ := Or.inr rfl

/-- A replay that is refused is queued. -/
theorem attended_replay (attended : robot.Attended awaited) (count : Nat) :
    (robot.replay caller count).1.Attended True := by
  unfold Robot.replay
  dsimp only
  by_cases mode : robot.mode = .replay
  · rw [if_pos mode]
    exact ⟨fun _ => attended.replays mode, fun _ => Or.inr (attended.replays mode)⟩
  · rw [if_neg mode]
    exact attended_start

theorem attended_write {count : Nat} {copied : Option EchoCmd}
    (attended : robot.Attended awaited) :
    (robot.write clock caller count copied).1.Attended
      (awaited ∨ (robot.write clock caller count copied).2.waiting ≠ none) := by
  have still : ∀ value : Int, robot.Attended (awaited ∨ (caller.back value).waiting ≠ none) :=
    fun value => ⟨attended.replays, fun waits => attended.ends (waits.resolve_right (· rfl))⟩
  unfold Robot.write
  by_cases short : count < sizeofEchoCmd
  · rw [if_pos short]
    exact still _
  rw [if_neg short]
  cases copied with
  | none => exact still _
  | some cmd =>
    dsimp only
    split
    · exact (still _).same (by rintro ⟨⟩) rfl rfl
    split
    · exact ⟨(attended_replay attended count).replays,
        fun _ => (attended_replay attended count).ends trivial⟩
    split
    · exact attended_stop
    split
    · split
      · exact (still _).same id rfl rfl
      · exact still _
    · exact still _

theorem attended_ioctl {ioc : EchoIoc} (attended : robot.Attended awaited) :
    (robot.ioctl clock caller ioc).1.Attended awaited ∧
      (robot.ioctl clock caller ioc).2.waiting = none := by
  unfold Robot.ioctl
  split
  · exact ⟨attended, rfl⟩
  · exact ⟨attended, rfl⟩
  · split
    · exact ⟨attended, rfl⟩
    · exact ⟨attended.same id rfl rfl, rfl⟩
  · exact ⟨(@attended_stop robot awaited).same id rfl rfl, rfl⟩
  · exact ⟨attended, rfl⟩
  · exact ⟨attended_stop, rfl⟩
  · exact ⟨attended.same (by rintro ⟨⟩) rfl rfl, rfl⟩
  · split
    · exact ⟨attended, rfl⟩
    · exact ⟨attended_start, rfl⟩
  · exact ⟨attended, rfl⟩
  · exact ⟨attended, rfl⟩

theorem attended_read {nonblock : Bool} {count : Nat} (attended : robot.Attended awaited) :
    (robot.read caller nonblock count).1.Attended awaited ∧
      ∀ count', (robot.read caller nonblock count).2.waiting ≠ some (.replay count') := by
  unfold Robot.read
  split
  · exact ⟨attended.same id rfl rfl, by simp [Robot.deliver, Caller.back]⟩
  · refine ⟨attended, fun count' => ?_⟩
    split <;> simp [Caller.back, Caller.wait]

/-- After a call, what was awaited still is, and what the caller has come to wait for. -/
theorem attended_request {request : Request} (attended : robot.Attended awaited)
    (answers : robot.request clock caller request = some done) :
    done.1.Attended (awaited ∨ ∃ count, done.2.waiting = some (.replay count)) := by
  cases request with
  | read nonblock count =>
    cases answers
    obtain ⟨kept, other⟩ := @attended_read robot caller awaited nonblock count attended
    exact ⟨kept.replays, fun waits => kept.ends (waits.resolve_right fun ⟨_, own⟩ => other _ own)⟩
  | write count copied =>
    cases answers
    have kept := @attended_write robot caller awaited clock count copied attended
    refine ⟨kept.replays, fun waits => kept.ends (waits.imp_right fun own none => ?_)⟩
    obtain ⟨count', own⟩ := own
    exact absurd (none.symm.trans own) (by simp)
  | ioctl ioc =>
    cases answers
    obtain ⟨kept, none⟩ := @attended_ioctl robot caller awaited clock ioc attended
    refine ⟨kept.replays, fun waits => kept.ends (waits.resolve_right ?_)⟩
    rintro ⟨count, own⟩
    simp [none] at own
  | input pin => cases answers

theorem attended_input {servo : Fin echoNumServos} {delta : Int}
    (attended : robot.Attended awaited) : (robot.input clock servo delta).Attended awaited := by
  unfold Robot.input
  split
  · exact attended
  · exact attended.same (by rintro ⟨⟩) rfl rfl

theorem attended_expire (attended : robot.Attended awaited) : robot.expire.Attended awaited := by
  unfold Robot.expire
  split
  · exact ⟨fun _ => rfl, fun _ => Or.inr rfl⟩
  · exact attended.same id rfl rfl

theorem attended_perform : robot.perform.Attended awaited :=
  ⟨by rintro ⟨⟩, fun _ => Or.inl rfl⟩

theorem attended_resume (attended : robot.Attended awaited)
    (resumes : robot.resume caller = some done) :
    done.1.Attended awaited ∧ done.2.waiting = none := by
  unfold Robot.resume at resumes
  repeat' split at resumes
  all_goals first
    | contradiction
    | (cases resumes; exact ⟨attended.same id rfl rfl, rfl⟩)

/-- Who is awaited after one caller has changed. -/
theorem awaited_settle {id : Nat} (waits : (system.settle id done).awaited) :
    system.awaited ∨ ∃ count, done.2.waiting = some (.replay count) := by
  obtain ⟨other, count, waiting⟩ := waits
  by_cases own : other = id
  · subst own
    exact Or.inr ⟨count, by simpa [RobotSystem.settle] using waiting⟩
  · exact Or.inl ⟨other, count, by simpa [RobotSystem.settle, own] using waiting⟩

theorem Robot.Attended.imp {other : Prop} (attended : robot.Attended awaited)
    (weaker : other → awaited) : robot.Attended other :=
  ⟨attended.replays, fun waits => attended.ends (weaker waits)⟩

theorem attended_of_next {event : RobotEvent} (attended : system.robot.Attended system.awaited)
    (moved : system.next event = some reached) : reached.robot.Attended reached.awaited := by
  cases event with
  | request id request =>
    simp only [RobotSystem.next] at moved
    split at moved
    · obtain ⟨done, answers, rfl⟩ := Option.map_eq_some_iff.mp moved
      exact (attended_request attended answers).imp awaited_settle
    · cases moved
  | input id pin =>
    cases moved
    cases pin <;> exact (attended_input attended).same (fun mode => mode) rfl rfl
  | expire =>
    simp only [RobotSystem.next] at moved
    split at moved <;> cases moved
    exact attended_expire attended
  | perform =>
    simp only [RobotSystem.next] at moved
    split at moved <;> cases moved
    exact attended_perform
  | resume id =>
    obtain ⟨done, resumes, rfl⟩ := Option.map_eq_some_iff.mp moved
    obtain ⟨kept, none⟩ := attended_resume attended resumes
    refine kept.imp fun waits => (awaited_settle waits).resolve_right ?_
    rintro ⟨_, own⟩
    simp [none] at own
  | interrupt id =>
    obtain ⟨caller, interrupts, rfl⟩ := Option.map_eq_some_iff.mp moved
    have none : caller.waiting = none := by
      unfold Robot.interrupt at interrupts
      repeat' split at interrupts
      all_goals first
        | contradiction
        | (cases interrupts; rfl)
    refine attended.imp fun waits => (awaited_settle waits).resolve_right ?_
    rintro ⟨_, own⟩
    simp [none] at own
  | pass ns =>
    cases moved
    exact attended

theorem attended_run {pos : Fin echoNumServos → Nat} {events : List RobotEvent}
    (ran : run RobotSystem.next (RobotSystem.initial pos clock) events = some system) :
    system.robot.Attended system.awaited := by
  refine Run.invariant (fun system => system.robot.Attended system.awaited)
    (Run.ofExecution ran fun _ _ _ => trivial : Run RobotSystem.next anyStep _ events system) ?_ ?_
  · exact ⟨by rintro ⟨⟩, fun ⟨_, _, own⟩ => by cases own⟩
  · intro before state action after ran attended ok moved
    exact attended_of_next attended moved

end Step

/-- A robot that replays comes to idle, and whoever waits for the end of a replay gets its
count back, at the latest after the replay that is queued. -/
structure Served (state : State) : Prop where
  idles : state.dev.state.mode = .replay → ∃ after, Happens state .perform after ∧
    after.dev.state.mode = .idle
  returns : ∀ id count, state.code (.proc id) = [.waitReplayDone, .ret count] →
    ∃ events last, (events = [.resume id] ∨ events = [.perform, .resume id]) ∧
      Happening Happens state events last ∧ last.code (.proc id) = [] ∧
      (last.thread (.proc id)).result = some count

section Served
variable {state : State} {system : RobotSystem} {id : Nat} {count : Int}

theorem waiting_of_code (stands : Stands state system)
    (code : state.code (.proc id) = [.waitReplayDone, .ret count]) :
    ∃ size : Nat, count = size ∧ (system.callers id).waiting = some (.replay size) := by
  obtain ⟨wait, waiting, same⟩ := stands.waits (show state.code (.proc id) ≠ [] by simp [code])
  rw [code] at same
  cases wait with
  | news => cases same
  | replay size =>
    refine ⟨size, ?_, waiting⟩
    simpa [Wait.code] using same

/-- A caller whose replay is over gets its count. -/
theorem resumes_finished {size : Nat} (waiting : (system.callers id).waiting = some (.replay size))
    (finished : system.robot.finished = true) : system.next (.resume id) =
      some (system.settle id (system.robot, (system.callers id).back size)) := by
  simp [RobotSystem.next, Robot.resume, waiting, finished]

theorem asleep_of_waiting {size : Nat} (stands : Stands state system)
    (waiting : (system.callers id).waiting = some (.replay size))
    (unfinished : system.robot.finished = false) : state.asleep (.proc id) = true := by
  have code : state.code (.proc id) = (Wait.replay size).code := by
    have own : state.code (.proc id) = (system.callers id).code := (stands.callers id).code
    rw [own, Caller.code, waiting]
    rfl
  rw [asleep_wait code, ← stands.robot]
  exact unfinished

theorem returned_of_stands {last : State} {robot : Robot} {size : Nat}
    (stands : Stands last (system.settle id (robot, (system.callers id).back size))) :
    last.code (.proc id) = [] ∧ (last.thread (.proc id)).result = some (size : Int) := by
  have own := stands.callers id
  simp only [RobotSystem.settle, Function.update_self] at own
  exact ⟨own.code, own.answer⟩

theorem served_of_attended (stands : Stands state system)
    (attended : system.robot.Attended system.awaited) : Served state where
  idles replay := by
    have queued : system.robot.queued = true :=
      attended.replays (by rw [stands.robot]; exact replay)
    obtain ⟨after, happened⟩ := driver_agrees.complete _ _ .perform
      { system with robot := system.robot.perform } stands (if_pos queued)
    obtain ⟨reached, moved, there⟩ := driver_agrees.sound _ _ _ _ stands happened
    obtain rfl := Option.some.inj ((if_pos queued).symm.trans moved)
    exact ⟨after, happened, (congrArg Robot.mode there.robot).symm⟩
  returns id count code := by
    obtain ⟨size, rfl, waiting⟩ := waiting_of_code stands code
    rcases attended.ends ⟨id, size, waiting⟩ with finished | queued
    · obtain ⟨last, happening, there⟩ := driver_agrees.run_complete stands
        ((run_singleton ..).trans (resumes_finished waiting finished))
      exact ⟨[.resume id], last, Or.inl rfl, happening, returned_of_stands there⟩
    · have performed : system.next .perform =
          some { system with robot := system.robot.perform } := if_pos queued
      have ran : run RobotSystem.next system [.perform, .resume id] =
          some ({ system with robot := system.robot.perform }.settle id
            (system.robot.perform, (system.callers id).back size)) := by
        rw [run, performed, Option.bind_some, run_singleton]
        exact resumes_finished waiting rfl
      obtain ⟨last, happening, there⟩ := driver_agrees.run_complete stands ran
      exact ⟨[.perform, .resume id], last, Or.inr rfl, happening, returned_of_stands there⟩

end Served

/-- In every sequence of events, each taken to its end, nobody waits in vain. -/
theorem nobody_waits_in_vain {servo : EchoServoCtx} {clock : Nat} {events : List RobotEvent}
    {final : State} (happening : Happening Happens (State.initial servo clock) events final) :
    Served final := by
  obtain ⟨system, ran, stands⟩ :=
    driver_agrees.run_sound (stands_initial servo clock) happening
  exact served_of_attended stands (attended_run ran)

/-- The replay of one writer is over when another's begins, before the first has woken up. -/
def replayAgain : List RobotEvent :=
  [.input 0 .up, .request 0 (writeCmd echoCmdReplay), .perform, .request 1 (writeCmd echoCmdReplay)]

theorem nobody_waits_in_vain_replayAgain :
    ∃ final, Happening Happens (State.initial simServo 0) replayAgain final ∧
      (final.asleep (.proc 0) = true ∧ final.asleep (.proc 1) = true) ∧ Served final := by
  have facts : (run RobotSystem.next (RobotSystem.initial simServo.pos 0) replayAgain).any
      (fun system => (system.callers 0).waiting == some (.replay 16) &&
        (system.callers 1).waiting == some (.replay 16) && !system.robot.finished) = true := by
    decide
  obtain ⟨reached, ran, facts⟩ := (Option.any_eq_true ..).mp facts
  simp only [Bool.and_eq_true, beq_iff_eq, Bool.not_eq_true'] at facts
  obtain ⟨⟨first, second⟩, unfinished⟩ := facts
  obtain ⟨final, happening, stands⟩ := driver_agrees.run_complete (stands_initial simServo 0) ran
  exact ⟨final, happening, ⟨asleep_of_waiting stands first unfinished,
    asleep_of_waiting stands second unfinished⟩, nobody_waits_in_vain happening⟩

end EchoRobot
