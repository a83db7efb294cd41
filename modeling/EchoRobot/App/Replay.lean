import EchoRobot.App.Calls

/-! The replays of the program, one at a time. The flag that keeps it from a second one
comes back with the end of the first. -/

namespace EchoRobot.App

open Interleaving

/-- One thread of the program at most is in a replay, and the flag says which states the
threads are in. -/
structure OneReplay (acts : List Act) (app : EchoApp) (state : State) : Prop where
  guard : Guard acts app
  writers : ∀ id count, state.code (.proc id) = [.waitReplayDone, .ret count] →
    isOther id = true ∨ ∃ worker, id = workerId worker ∧ app.workers worker = some .writing ∧
      ∀ other, app.workers other ≠ none → other = worker

/-- The steps that a replay takes to its end. -/
def Act.ends : Act → Bool
  | .createWorker true | .write _ | .writeReturns _ | .clear _ | .world .perform => true
  | _ => false

/-- The flag comes back within so many such steps. -/
def Freed (count : Nat) (pair : EchoApp × RobotSystem) : Prop :=
  ∃ later last, later.length ≤ count ∧ (∀ act ∈ later, act.ends = true) ∧
    run appNext pair later = some last ∧ last.1.replaying = false

section Freed
variable {app : EchoApp} {system : RobotSystem} {worker count : Nat} {act : Act}
variable {pair middle : EchoApp × RobotSystem}

theorem Freed.step (freed : Freed count middle) (ends : act.ends = true)
    (moved : appNext pair act = some middle) : Freed (count + 1) pair := by
  obtain ⟨later, last, short, all, ran, unset⟩ := freed
  refine ⟨act :: later, last, Nat.succ_le_succ short, ?_, ?_, unset⟩
  · intro other member
    rcases List.mem_cons.mp member with rfl | inside
    · exact ends
    · exact all other inside
  · rw [run, moved, Option.bind_some, ran]

theorem Freed.le {more : Nat} (freed : Freed count pair) (within : count ≤ more) :
    Freed more pair := by
  obtain ⟨later, last, short, rest⟩ := freed
  exact ⟨later, last, Nat.le_trans short within, rest⟩

theorem freed_clearing (clearing : app.workers worker = some .clearing) :
    Freed 1 (app, system) := by
  have does : echoApp app (.clear worker) =
      some (silently { move app worker none with replaying := false }) := if_pos clearing
  refine ⟨[.clear worker], ({ move app worker none with replaying := false }, system),
    Nat.le_refl _, by simp [Act.ends], ?_, rfl⟩
  rw [run_singleton]
  exact clientNext_own does

/-- A thread whose write is back, at once or after a while. -/
theorem freed_back {outcomes : Nat → Outcome} (back : (outcomes (workerId worker)).back = true) :
    Freed 1 (afterWrite app worker outcomes, system) := by
  apply @freed_clearing _ _ worker
  simp [afterWrite, back, move]

theorem back_settle (robot : Robot) (caller : Caller) (value : Int) :
    (observeRobot (system.settle (workerId worker) (robot, caller.back value))
      (workerId worker)).back = true := by
  simp [observeRobot, RobotSystem.settle, Caller.back]

theorem freed_finished (writing : app.workers worker = some .writing)
    (waiting : (system.callers (workerId worker)).waiting = some (.replay sizeofEchoCmd))
    (finished : system.robot.finished = true) : Freed 2 (app, system) := by
  have does : echoApp app (.writeReturns worker) =
      some ⟨some (.resume (workerId worker)), afterWrite app worker⟩ := if_pos writing
  have moved : appNext (app, system) (.writeReturns worker) = _ :=
    clientNext_event does (resumes_finished waiting finished)
  exact (freed_back (back_settle ..)).step rfl moved

theorem freed_queued (writing : app.workers worker = some .writing)
    (waiting : (system.callers (workerId worker)).waiting = some (.replay sizeofEchoCmd))
    (queued : system.robot.queued = true) : Freed 3 (app, system) := by
  have does : echoApp app (.world .perform) = some ⟨some .perform, fun _ => app⟩ := rfl
  have performed : system.next .perform =
      some { system with robot := system.robot.perform } := if_pos queued
  have finished := @freed_finished app { system with robot := system.robot.perform } worker writing
    waiting rfl
  exact finished.step rfl (clientNext_event does performed)

/-- A replay that is not refused is queued. -/
theorem freed_starting (starting : app.workers worker = some .starting)
    (free : (system.callers (workerId worker)).waiting = none) : Freed 4 (app, system) := by
  have does : echoApp app (.write worker) = some ⟨some (.request (workerId worker)
      (writeCmd echoCmdReplay)), afterWrite app worker⟩ := if_pos starting
  have moved : system.next (.request (workerId worker) (writeCmd echoCmdReplay)) =
      some (system.settle (workerId worker)
        (system.robot.replay (system.callers (workerId worker)) sizeofEchoCmd)) := by
    rw [RobotSystem.next, if_pos free]
    rfl
  have stepped : appNext (app, system) (.write worker) = _ := clientNext_event does moved
  unfold Robot.replay at stepped
  by_cases mode : system.robot.mode = .replay
  · rw [if_pos mode] at stepped
    exact ((freed_back (back_settle ..)).le (by decide)).step rfl stepped
  · rw [if_neg mode] at stepped
    refine (@freed_queued _ _ worker ?_ ?_ rfl).step rfl stepped
    · rw [afterWrite_writing]
      simp [observeRobot, RobotSystem.settle, Caller.wait]
    · simp [RobotSystem.settle, Caller.wait]

theorem freed_spawning (spawning : app.main = .spawning)
    (free : (system.callers (workerId app.spawned)).waiting = none) : Freed 5 (app, system) := by
  have does : echoApp app (.createWorker true) = some (silently
      { move app app.spawned (some .starting) with
        main := .looping, spawned := app.spawned + 1 }) := if_pos spawning
  have starting := @freed_starting { move app app.spawned (some .starting) with
    main := .looping, spawned := app.spawned + 1 } system app.spawned (by simp [move]) free
  exact starting.step rfl (clientNext_own does)

/-- Unless it is lost, the flag comes back. -/
theorem freed_of_guard {acts : List Act} (guard : Guard acts app) (calls : Calls app system)
    (attended : system.robot.Attended system.awaited) (created : .createWorker false ∉ acts) :
    Freed 5 (app, system) := by
  have free : ∀ worker, app.workers worker ≠ some .writing →
      (system.callers (workerId worker)).waiting = none := fun worker other => by
    rw [calls.worker, if_neg other]
  cases guard with
  | free unset => exact ⟨[], _, Nat.zero_le _, by simp, rfl, unset⟩
  | taken _ spawning nobody => exact freed_spawning spawning (free _ (by simp [nobody]))
  | held worker _ _ owner =>
    obtain ⟨thread, owner⟩ := Option.ne_none_iff_exists'.mp owner
    cases thread with
    | starting => exact (freed_starting owner (free _ (by simp [owner]))).le (by decide)
    | clearing => exact (freed_clearing owner).le (by decide)
    | writing =>
      have waiting := (calls.worker worker).trans (if_pos owner)
      rcases attended.ends ⟨_, _, waiting⟩ with finished | queued
      · exact (freed_finished owner waiting finished).le (by decide)
      · exact (freed_queued owner waiting queued).le (by decide)
  | lost _ _ _ failed => exact absurd failed created

end Freed

section Run
variable {servo : EchoServoCtx} {clock : Nat} {acts : List Act} {final : EchoApp × State}

/-- Whatever the user types and however the threads go on, there is one replay at a time. -/
theorem one_replay
    (happening : Happening AppHappens (EchoApp.initial, State.initial servo clock) acts final) :
    OneReplay acts final.1 final.2 := by
  obtain ⟨app, state⟩ := final
  obtain ⟨⟨app', system⟩, ran, same, stands⟩ :=
    app_agrees.run_sound (app_begins servo clock) happening
  obtain rfl : app = app' := same
  have onward := Run.ofExecution ran fun _ _ _ => (trivial : anyStep _ _)
  have guard : Guard acts app := guard_of_run onward
  have calls : Calls app system := calls_of_run onward
  refine ⟨guard, fun id count code => ?_⟩
  obtain ⟨size, -, waiting⟩ := waiting_of_code stands code
  obtain rfl | rfl | ⟨worker, rfl⟩ | other := app_or_other id
  · simp [calls.main] at waiting
  · rw [calls.reader] at waiting
    split at waiting <;> cases waiting
  · rw [calls.worker] at waiting
    split at waiting <;> cases waiting
    rename_i writing
    refine Or.inr ⟨worker, rfl, writing, fun other present => ?_⟩
    cases guard with
    | held holder _ _ _ alone => rw [alone other present, alone worker (by simp [writing])]
    | free _ _ nobody => simp [nobody] at writing
    | taken _ _ nobody => simp [nobody] at writing
    | lost _ _ nobody => simp [nobody] at writing
  · exact Or.inl other

/-- As long as every thread could be created, the flag comes back: the replay in progress can
be brought to its end, and then the user can ask for the next. -/
theorem replay_comes_back
    (happening : Happening AppHappens (EchoApp.initial, State.initial servo clock) acts final)
    (created : .createWorker false ∉ acts) :
    ∃ later last, later.length ≤ 5 ∧ (∀ act ∈ later, act.ends = true) ∧
      Happening AppHappens final later last ∧ last.1.replaying = false := by
  obtain ⟨app, state⟩ := final
  obtain ⟨⟨app', system⟩, ran, same, stands⟩ :=
    app_agrees.run_sound (app_begins servo clock) happening
  obtain rfl : app = app' := same
  have onward := Run.ofExecution ran fun _ _ _ => (trivial : anyStep _ _)
  obtain ⟨later, ⟨after, reached⟩, short, ends, went, unset⟩ := freed_of_guard
    (guard_of_run onward) (calls_of_run onward) (attended_of_app onward) created
  obtain ⟨⟨after', last⟩, happened, there, -⟩ := app_agrees.run_complete
    (⟨rfl, stands⟩ : ClientRelated Stands (app, state) (app, system)) went
  obtain rfl : after' = after := there
  exact ⟨later, (after', last), short, ends, happened, unset⟩

end Run

/-- Two requests for a replay, and a stop before the first has been played. -/
def replayTwice : List Act :=
  [.getState, .createReader true, .key 't', .world (.input 0 .up), .key 's', .key 'r',
    .createWorker true, .write 0, .key 'r', .key 's']

theorem replay_comes_back_replayTwice : ∃ final : EchoApp × State,
    Happening AppHappens (EchoApp.initial, State.initial simServo 0) replayTwice final ∧
      final.1.replaying = true ∧ final.1.statusBuf = .stopped ∧
      ∃ later last, later.length ≤ 5 ∧ (∀ act ∈ later, act.ends = true) ∧
        Happening AppHappens final later last ∧ last.1.replaying = false := by
  have facts : (run appNext (EchoApp.initial, RobotSystem.initial simServo.pos 0) replayTwice).any
      (fun pair => pair.1.replaying && pair.1.statusBuf == .stopped) = true := by decide
  obtain ⟨⟨app, system⟩, ran, facts⟩ := (Option.any_eq_true ..).mp facts
  simp only [Bool.and_eq_true, beq_iff_eq] at facts
  obtain ⟨⟨app', state⟩, happening, same, -⟩ :=
    app_agrees.run_complete (app_begins simServo 0) ran
  obtain rfl : app' = app := same
  exact ⟨(app', state), happening, facts.1, facts.2,
    replay_comes_back happening (by simp [replayTwice])⟩

theorem one_replay_replayTwice : ∃ final : EchoApp × State,
    Happening AppHappens (EchoApp.initial, State.initial simServo 0) replayTwice final ∧
      OneReplay replayTwice final.1 final.2 := by
  have facts : (run appNext (EchoApp.initial, RobotSystem.initial simServo.pos 0)
      replayTwice).isSome = true := by decide
  obtain ⟨pair, ran⟩ := Option.isSome_iff_exists.mp facts
  obtain ⟨final, happening, -⟩ := app_agrees.run_complete (app_begins simServo 0) ran
  exact ⟨final, happening, one_replay happening⟩

end EchoRobot.App
