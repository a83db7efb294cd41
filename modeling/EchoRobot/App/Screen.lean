import EchoRobot.App.Calls
import EchoRobot.Read.Reader

/-! What the program shows. The robot announces every change but that of the interrupt
counter, and the reader, as long as it is the only one, fetches what is announced. -/

namespace EchoRobot.App

open Interleaving

/-- The snapshot that was fetched last. -/
def latest (app : EchoApp) : EchoSnapshot :=
  match app.reader with
  | .storing snap => snap
  | _ => app.sharedSnap

/-- What is announced of a snapshot: an interrupt that is ignored is counted silently. -/
def uncounted (snap : EchoSnapshot) : EchoSnapshot := { snap with irqCount := 0 }

/-- From the first snapshot on until the reader ends, the last snapshot is the robot's, or
something new is announced. -/
def Fresh (app : EchoApp) (system : RobotSystem) : Prop :=
  app.main ≠ .seeding → app.reader ≠ .ended →
    system.robot.news = true ∨ uncounted (latest app) = uncounted system.robot.snapshot

/-- A change is announced. -/
def Announces (before after : Robot) : Prop :=
  after.news = true ∨
    uncounted after.snapshot = uncounted before.snapshot ∧ after.news = before.news

/-- Another process reads. -/
def Act.othersRead : Act → Bool
  | .world (.request _ (.read ..)) => true
  | _ => false

/-- No other process waits for news. -/
def SoleReader (system : RobotSystem) : Prop :=
  ∀ id count, isOther id = true → (system.callers id).waiting ≠ some (.news count)

section Announces
variable {system reached : RobotSystem} {robot : Robot} {event : RobotEvent} {id : Nat}
variable {caller : Caller} {clock : Nat}

theorem unchanged : Announces robot robot := Or.inr ⟨rfl, rfl⟩

theorem announces_write {count : Nat} {copied : Option EchoCmd} :
    Announces robot (robot.write clock caller count copied).1 := by
  unfold Robot.write
  split
  · exact unchanged
  cases copied with
  | none => exact unchanged
  | some cmd =>
    dsimp only
    split
    · exact Or.inl rfl
    split
    · unfold Robot.replay
      dsimp only
      split
      · exact Or.inr ⟨rfl, rfl⟩
      · exact Or.inl rfl
    split
    · exact Or.inl rfl
    split
    · split
      · exact Or.inl rfl
      · exact unchanged
    · exact unchanged

theorem announces_ioctl {ioc : EchoIoc} : Announces robot (robot.ioctl clock caller ioc).1 := by
  unfold Robot.ioctl
  repeat' split
  all_goals first
    | exact unchanged
    | exact Or.inl rfl

/-- Whatever is asked for but a read. -/
theorem announces_request {request : Request} (other : request.isRead = false)
    (moved : system.next (.request id request) = some reached) :
    Announces system.robot reached.robot := by
  obtain ⟨done, answers, rfl⟩ := waiting_request moved
  cases request with
  | read nonblock count => cases other
  | write count copied =>
    cases answers
    exact announces_write
  | ioctl ioc =>
    cases answers
    exact announces_ioctl
  | input pin => cases answers

/-- A caller that goes on without having waited for news. -/
theorem announces_returns (silent : ∀ count, (system.callers id).waiting ≠ some (.news count))
    (onward : event = .resume id ∨ event = .interrupt id)
    (moved : system.next event = some reached) : Announces system.robot reached.robot := by
  rcases onward with rfl | rfl
  · obtain ⟨done, resumes, rfl⟩ := Option.map_eq_some_iff.mp moved
    unfold Robot.resume at resumes
    split at resumes
    · rename_i count waiting
      exact absurd waiting (silent count)
    · split at resumes <;> cases resumes
      exact unchanged
    · cases resumes
  · obtain ⟨caller, -, rfl⟩ := Option.map_eq_some_iff.mp moved
    exact unchanged

theorem announces_input {servo : Fin echoNumServos} {delta : Int} :
    Announces robot (robot.input clock servo delta).counted := by
  unfold Robot.input
  split
  · exact Or.inr ⟨rfl, rfl⟩
  · exact Or.inl rfl

theorem announces_world (outside : ofWorld event = true)
    (silent : Act.othersRead (.world event) = false) (sole : SoleReader system)
    (moved : system.next event = some reached) : Announces system.robot reached.robot := by
  cases event with
  | request id request =>
    refine announces_request ?_ moved
    cases request <;> first | rfl | cases silent
  | resume id =>
    exact announces_returns (fun count => sole id count outside) (Or.inl rfl) moved
  | interrupt id =>
    exact announces_returns (fun count => sole id count outside) (Or.inr rfl) moved
  | input caller pin =>
    cases moved
    cases pin <;> exact announces_input
  | expire =>
    simp only [RobotSystem.next] at moved
    split at moved <;> cases moved
    unfold Robot.expire
    dsimp only
    split
    · exact Or.inl rfl
    · exact Or.inr ⟨rfl, rfl⟩
  | perform =>
    simp only [RobotSystem.next] at moved
    split at moved <;> cases moved
    exact Or.inl rfl
  | pass ns =>
    cases moved
    exact unchanged

/-- Whoever does not read does not wait for news. -/
theorem waiting_quiet {request : Request} (other : request.isRead = false)
    (moved : system.next (.request id request) = some reached) (count : Nat) :
    (reached.callers id).waiting ≠ some (.news count) := by
  obtain ⟨done, answers, rfl⟩ := waiting_request moved
  suffices quiet : done.2.waiting ≠ some (.news count) by simpa [RobotSystem.settle] using quiet
  cases request with
  | read nonblock count => cases other
  | write size copied =>
    cases answers
    unfold Robot.write Robot.replay
    dsimp only
    repeat' split
    all_goals simp [Caller.back, Caller.wait]
  | ioctl ioc =>
    cases answers
    unfold Robot.ioctl
    repeat' split
    all_goals simp [Caller.back]
  | input pin => cases answers

theorem sole_next (sole : SoleReader system)
    (silent : ∀ id, isOther id = true → callerOf event = some id →
      Act.othersRead (.world event) = false)
    (moved : system.next event = some reached) : SoleReader reached := by
  intro id count other
  by_cases own : callerOf event = some id
  · have quiet := silent id other own
    cases event with
    | request caller request =>
      obtain rfl : caller = id := Option.some.inj own
      refine waiting_quiet ?_ moved count
      cases request <;> first | rfl | cases quiet
    | resume caller =>
      obtain rfl : caller = id := Option.some.inj own
      simp [waiting_onward (Or.inl rfl) moved]
    | interrupt caller =>
      obtain rfl : caller = id := Option.some.inj own
      simp [waiting_onward (Or.inr rfl) moved]
    | _ => cases own
  · rw [callers_other own moved]
    exact sole id count other

end Announces

section Reader
variable {app after : EchoApp} {system reached : RobotSystem} {event : RobotEvent}

theorem afterRead_delivered :
    afterRead app (observeRobot (system.settle readerId
        (system.robot.deliver (system.callers readerId) sizeofEchoSnapshot))) =
      { app with reader := .storing system.robot.snapshot } := by
  simp [afterRead, observeRobot, RobotSystem.settle, Robot.deliver, Caller.back]

/-- A `read` fetches what is announced, or waits. -/
theorem read_cases (moved : system.next (.request readerId (.read false sizeofEchoSnapshot)) =
    some reached) :
    latest (afterRead app (observeRobot reached)) = reached.robot.snapshot ∨
      reached.robot = system.robot ∧ (afterRead app (observeRobot reached)).reader = .reading := by
  obtain ⟨done, answers, rfl⟩ := waiting_request moved
  cases answers
  unfold Robot.read
  by_cases news : system.robot.news = true
  · left
    rw [if_pos news, afterRead_delivered]
    rfl
  · right
    rw [if_neg news, afterRead_reading]
    simp [RobotSystem.settle, observeRobot, Caller.wait]

/-- So does one that has waited, or it is interrupted. -/
theorem wake_cases
    (waiting : (system.callers readerId).waiting = some (.news sizeofEchoSnapshot))
    (onward : event = .resume readerId ∨ event = .interrupt readerId)
    (moved : system.next event = some reached) :
    latest (afterRead app (observeRobot reached)) = reached.robot.snapshot ∨
      reached.robot = system.robot ∧ (afterRead app (observeRobot reached)).reader = .ended := by
  rcases onward with rfl | rfl
  · obtain ⟨done, resumes, rfl⟩ := Option.map_eq_some_iff.mp moved
    simp only [Robot.resume, waiting] at resumes
    split at resumes <;> cases resumes
    left
    rw [afterRead_delivered]
    rfl
  · obtain ⟨caller, interrupts, rfl⟩ := Option.map_eq_some_iff.mp moved
    simp only [Robot.interrupt, waiting] at interrupts
    split at interrupts <;> cases interrupts
    refine Or.inr ⟨rfl, ?_⟩
    cases seen : (system.callers readerId).seen <;>
      simp [afterRead, observeRobot, RobotSystem.settle, Caller.back, seen, ERESTARTSYS]

theorem afterRead_sharedSnap {outcomes : Nat → Outcome} :
    (afterRead app outcomes).sharedSnap = app.sharedSnap := by
  unfold afterRead
  dsimp only
  repeat' split
  all_goals rfl

end Reader

section Step
variable {acts : List Act} {app after : EchoApp} {act : Act}
variable {system reached : RobotSystem} {worker : Nat}

/-- A step of another thread. -/
theorem Fresh.same (fresh : Fresh app system) (announces : Announces system.robot reached.robot)
    (main : after.main ≠ .seeding → app.main ≠ .seeding) (reader : after.reader = app.reader)
    (shared : after.sharedSnap = app.sharedSnap) : Fresh after reached := by
  intro seeded reads
  have last : latest after = latest app := by rw [latest, latest, reader, shared]
  rcases announces with news | ⟨snapshot, news⟩
  · exact Or.inl news
  · rw [last, snapshot, news]
    exact fresh (main seeded) (reader ▸ reads)

theorem latest_of_outside (outside : ∀ snap, app.reader ≠ .storing snap) :
    latest app = app.sharedSnap := by
  unfold latest
  split
  · exact absurd ‹_› (outside _)
  · rfl

/-- A step of the reader in the driver. -/
theorem Fresh.of_read (fresh : Fresh app system) {reader : ReaderThread}
    (before : app.reader = .testing ∨ app.reader = .reading)
    (later : reader = .reading ∨ reader = .ended)
    (read : latest (afterRead app (observeRobot reached)) = reached.robot.snapshot ∨
      reached.robot = system.robot ∧ (afterRead app (observeRobot reached)).reader = reader) :
    Fresh (afterRead app (observeRobot reached)) reached := by
  intro seeded reads
  rcases read with fetched | ⟨robot, place⟩
  · exact Or.inr (congrArg uncounted fetched)
  · rw [afterRead_main] at seeded
    have outside : latest (afterRead app (observeRobot reached)) = app.sharedSnap := by
      rw [latest_of_outside, afterRead_sharedSnap]
      rcases later with rfl | rfl <;> simp [place]
    have same : latest app = app.sharedSnap := by
      apply latest_of_outside
      rcases before with testing | reading <;> simp [*]
    rw [robot, outside, ← same]
    exact fresh seeded (by rcases before with testing | reading <;> simp [*])

theorem afterWrite_sharedSnap {outcomes : Nat → Outcome} :
    (afterWrite app worker outcomes).sharedSnap = app.sharedSnap := by
  unfold afterWrite
  dsimp only
  split <;> rfl

theorem isRead_of_short {request : Request} (short : ShortCall request) :
    request.isRead = false := by
  rcases short with rfl | rfl | rfl | rfl <;> rfl

/-- Every step keeps the program up to date. -/
theorem fresh_next (calls : Calls app system) (sole : SoleReader system)
    (fresh : Fresh app system) (silent : act.othersRead = false)
    (moved : appNext (app, system) act = some (after, reached)) : Fresh after reached := by
  cases appStep_of_next moved with
  | seeds seeding stepped =>
    intro _ _
    have unborn := calls.unborn (Or.inl seeding)
    obtain ⟨done, answers, rfl⟩ := waiting_request stepped
    cases answers
    right
    simp only [latest, unborn, RobotSystem.settle, Function.update_self]
    rfl
  | creates created creating =>
    intro _ _
    have unborn := calls.unborn (Or.inr creating)
    have last : latest app = app.sharedSnap := latest_of_outside (by simp [unborn])
    rw [latest_of_outside (by cases created <;> simp), ← last]
    exact fresh (by simp [creating]) (by simp [unborn])
  | commands ch status looping short stepped =>
    exact fresh.same (announces_request (isRead_of_short short) stepped) id rfl rfl
  | presses ch looping same onward =>
    exact fresh.same unchanged (fun _ => by simp [looping]) same.1 same.2.1
  | spawns spawning => exact fresh.same unchanged (fun _ => by simp [spawning]) rfl rfl
  | loses spawning => exact fresh.same unchanged (fun _ => by simp [spawning]) rfl rfl
  | leaves looping stopped => exact fresh.same unchanged (fun _ => by simp [looping]) rfl rfl
  | cancels leaving cut => exact fun _ reads => absurd rfl reads
  | reads testing stepped =>
    exact fresh.of_read (Or.inl testing) (Or.inl rfl) (read_cases stepped)
  | ends testing stopped => exact fun _ reads => absurd rfl reads
  | wakes reading onward stepped =>
    have waiting : (system.callers readerId).waiting = some (.news sizeofEchoSnapshot) := by
      rw [calls.reader, if_pos reading]
    exact fresh.of_read (Or.inr reading) (Or.inr rfl) (wake_cases waiting onward stepped)
  | stores storing =>
    intro seeded _
    refine (fresh seeded (by simp [storing])).imp_right fun last => ?_
    simpa [latest, storing] using last
  | writes starting stepped =>
    exact fresh.same (announces_request rfl stepped) (by simp) afterWrite_reader
      afterWrite_sharedSnap
  | returns writing onward stepped =>
    have waiting := (calls.worker _).trans (if_pos writing)
    exact fresh.same (announces_returns (by simp [waiting]) onward stepped) (by simp)
      afterWrite_reader afterWrite_sharedSnap
  | clears clearing => exact fresh.same unchanged id rfl rfl
  | stops => exact fresh.same unchanged id rfl rfl
  | world outside stepped =>
    exact fresh.same (announces_world outside silent sole stepped) id rfl rfl

end Step

section Run
variable {servo : EchoServoCtx} {clock : Nat} {acts : List Act}

theorem sole_of_next (sole : SoleReader system) (silent : act.othersRead = false)
    (moved : appNext (app, system) act = some (after, reached)) : SoleReader reached := by
  have apart : ∀ {event}, (∀ id, callerOf event = some id → isOther id = false) →
      system.next event = some reached → SoleReader reached := by
    intro event own stepped
    refine sole_next sole (fun id other same => ?_) stepped
    simp [own id same] at other
  have worker : ∀ number, isOther (workerId number) = false := by
    intro number
    simp only [isOther, workerId, decide_eq_false_iff_not]
    omega
  cases appStep_of_next moved with
  | seeds _ stepped => exact apart (by rintro _ ⟨⟩; rfl) stepped
  | commands _ _ _ _ stepped => exact apart (by rintro _ ⟨⟩; rfl) stepped
  | cancels _ cut =>
    rcases cut with ⟨-, stepped⟩ | ⟨-, rfl⟩
    · exact apart (by rintro _ ⟨⟩; rfl) stepped
    · exact sole
  | reads _ stepped => exact apart (by rintro _ ⟨⟩; rfl) stepped
  | wakes _ onward stepped =>
    refine apart (fun id own => ?_) stepped
    obtain rfl : readerId = id := Option.some.inj ((callerOf_onward onward).symm.trans own)
    rfl
  | @writes _ number _ stepped => exact apart (by rintro _ ⟨⟩; exact worker number) stepped
  | @returns _ _ _ number _ onward stepped =>
    refine apart (fun id own => ?_) stepped
    obtain rfl : workerId number = id := Option.some.inj ((callerOf_onward onward).symm.trans own)
    exact worker number
  | world _ stepped => exact sole_next sole (fun _ _ _ => silent) stepped
  | _ => exact sole

theorem fresh_of_run {pos : Fin echoNumServos → Nat} {pair : EchoApp × RobotSystem}
    (run : Run appNext (fun _ act => act.othersRead = false)
      (EchoApp.initial, RobotSystem.initial pos clock) acts pair) :
    SoleReader pair.2 ∧ Fresh pair.1 pair.2 := by
  refine run.invariant (fun pair => SoleReader pair.2 ∧ Fresh pair.1 pair.2)
    ⟨fun _ _ _ => by rintro ⟨⟩, fun seeded => absurd rfl seeded⟩ ?_
  rintro acts ⟨app, system⟩ act ⟨after, reached⟩ ran ⟨sole, fresh⟩ silent moved
  exact ⟨sole_of_next sole silent moved, fresh_next (calls_of_run ran.any) sole fresh silent moved⟩

theorem current_of_snapshot {snap : EchoSnapshot} {dev : EchoDevice}
    (same : uncounted snap = uncounted dev.robot.snapshot) : Current snap dev :=
  ⟨congrArg EchoSnapshot.mode same, congrArg EchoSnapshot.panAngle same,
    congrArg EchoSnapshot.tiltAngle same, congrArg EchoSnapshot.tilt2Angle same,
    congrArg EchoSnapshot.bufferCount same, congrArg EchoSnapshot.totalMoves same,
    congrArg EchoSnapshot.totalReplays same⟩

/-- While the reader sleeps there is nothing that it has not fetched. -/
theorem sharedSnap_of_asleep {final : EchoApp × State}
    (happening : Happening AppHappens (EchoApp.initial, State.initial servo clock) acts final)
    (silent : ∀ act ∈ acts, act.othersRead = false)
    (asleep : final.2.asleep (.proc readerId) = true) :
    uncounted final.1.sharedSnap = uncounted final.2.dev.robot.snapshot := by
  obtain ⟨app, state⟩ := final
  obtain ⟨⟨app', system⟩, ran, same, stands⟩ :=
    app_agrees.run_sound (app_begins servo clock) happening
  obtain rfl : app = app' := same
  have onward : Run appNext (fun _ act => act.othersRead = false) _ acts (app, system) :=
    Run.ofExecution ran fun act member _ => silent act member
  have calls : Calls app system := calls_of_run onward.any
  have fresh : Fresh app system := (fresh_of_run onward).2
  have inside : state.code (.proc readerId) ≠ [] := by
    rcases asleep_cases asleep with ⟨rest, code, -⟩ | ⟨rest, code, -⟩ <;> simp [code]
  obtain ⟨wait, waiting, code⟩ := stands.waits inside
  obtain ⟨reading, rfl⟩ : app.reader = .reading ∧ wait = .news sizeofEchoSnapshot := by
    have own := calls.reader.symm.trans waiting
    split at own <;> cases own
    exact ⟨‹_›, rfl⟩
  have unread : system.robot.news = false := by
    rw [stands.robot]
    exact (asleep_wait code).mp asleep
  have seeded : app.main ≠ .seeding := by
    intro seeding
    have unborn : app.reader = .unborn := calls.unborn (Or.inl seeding)
    simp [unborn] at reading
  have last := (fresh seeded (by simp [reading])).resolve_left (by simp [unread])
  rw [latest_of_outside (by simp [reading]), stands.robot] at last
  exact last

/-- Whenever the reader sleeps, whatever the threads and other processes that do not read
have done and whatever has happened to the robot, the snapshot that the program shows is the
state of the device. -/
theorem screen_is_current {final : EchoApp × State}
    (happening : Happening AppHappens (EchoApp.initial, State.initial servo clock) acts final)
    (silent : ∀ act ∈ acts, act.othersRead = false)
    (asleep : final.2.asleep (.proc readerId) = true) :
    Current final.1.sharedSnap final.2.dev :=
  current_of_snapshot (sharedSnap_of_asleep happening silent asleep)

end Run

/-- The joystick and another process wake the reader up, which stores what it gets and
sleeps again. -/
def upShown : List Act :=
  [.getState, .createReader true, .read, .world (.input 0 .up), .readReturns, .store,
    .world (.request 3 (writeCmd echoCmdMove)), .read, .store, .read]

theorem upShown_asleep : ∃ final : EchoApp × State,
    Happening AppHappens (EchoApp.initial, State.initial simServo 0) upShown final ∧
      (∀ act ∈ upShown, act.othersRead = false) ∧ final.1.sharedSnap.tiltAngle = 95 ∧
      final.1.sharedSnap.panAngle = 0 ∧ final.2.asleep (.proc readerId) = true := by
  have facts : (run appNext (EchoApp.initial, RobotSystem.initial simServo.pos 0) upShown).any
      (fun pair => pair.1.sharedSnap.tiltAngle == 95 && pair.1.sharedSnap.panAngle == 0 &&
        !pair.2.robot.news &&
        (pair.2.callers readerId).waiting == some (.news sizeofEchoSnapshot)) = true := by decide
  obtain ⟨⟨app, system⟩, ran, facts⟩ := (Option.any_eq_true ..).mp facts
  simp only [Bool.and_eq_true, beq_iff_eq, Bool.not_eq_true'] at facts
  obtain ⟨⟨⟨tilt, pan⟩, unread⟩, waiting⟩ := facts
  obtain ⟨⟨app', state⟩, happening, same, stands⟩ :=
    app_agrees.run_complete (app_begins simServo 0) ran
  obtain rfl : app' = app := same
  have code : state.code (.proc readerId) = (Wait.news sizeofEchoSnapshot).code := by
    have own : state.code (.proc readerId) = (system.callers readerId).code :=
      (stands.callers readerId).code
    rw [own, Caller.code, waiting]
    rfl
  have asleep : state.asleep (.proc readerId) = true := by
    rw [asleep_wait code, ← stands.robot]
    exact unread
  exact ⟨(app', state), happening, by decide, tilt, pan, asleep⟩

theorem screen_is_current_upShown : ∃ final : EchoApp × State,
    Happening AppHappens (EchoApp.initial, State.initial simServo 0) upShown final ∧
      (final.1.sharedSnap.tiltAngle = 95 ∧ final.1.sharedSnap.panAngle = 0) ∧
      Current final.1.sharedSnap final.2.dev := by
  obtain ⟨final, happening, silent, tilt, pan, asleep⟩ := upShown_asleep
  exact ⟨final, happening, ⟨tilt, pan⟩, screen_is_current happening silent asleep⟩

end EchoRobot.App
