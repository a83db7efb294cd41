import EchoRobot.App.Guard
import EchoRobot.Session.Waiting

/-! Which threads of the program are in the driver. Each of them waits there for what its
call waits for, and nobody else does. -/

namespace EchoRobot.App

open Interleaving

/-- The caller of an event. -/
def callerOf : RobotEvent → Option Nat
  | .request id _ | .resume id | .interrupt id => some id
  | _ => none

section Robot
variable {system reached : RobotSystem} {event : RobotEvent} {id : Nat}

theorem callers_other (other : callerOf event ≠ some id)
    (moved : system.next event = some reached) :
    reached.callers id = system.callers id := by
  have apart : ∀ {caller : Nat} (done : Robot × Caller), id ≠ caller →
      (system.settle caller done).callers id = system.callers id := by
    intro caller done different
    simp [RobotSystem.settle, different]
  cases event with
  | request caller request =>
    simp only [RobotSystem.next] at moved
    split at moved
    · obtain ⟨done, -, rfl⟩ := Option.map_eq_some_iff.mp moved
      exact apart done fun same => other (congrArg some same.symm)
    · cases moved
  | resume caller =>
    obtain ⟨done, -, rfl⟩ := Option.map_eq_some_iff.mp moved
    exact apart done fun same => other (congrArg some same.symm)
  | interrupt caller =>
    obtain ⟨done, -, rfl⟩ := Option.map_eq_some_iff.mp moved
    exact apart _ fun same => other (congrArg some same.symm)
  | expire =>
    simp only [RobotSystem.next] at moved
    split at moved <;> cases moved
    rfl
  | perform =>
    simp only [RobotSystem.next] at moved
    split at moved <;> cases moved
    rfl
  | input caller pin => cases moved; rfl
  | pass ns => cases moved; rfl

/-- What a request makes its caller wait for. -/
theorem waiting_request {request : Request}
    (moved : system.next (.request id request) = some reached) :
    ∃ done, system.robot.request system.clock (system.callers id) request = some done ∧
      reached = system.settle id done := by
  simp only [RobotSystem.next] at moved
  split at moved
  · obtain ⟨done, answers, rfl⟩ := Option.map_eq_some_iff.mp moved
    exact ⟨done, answers, rfl⟩
  · cases moved

theorem callerOf_onward (onward : event = .resume id ∨ event = .interrupt id) :
    callerOf event = some id := by
  rcases onward with rfl | rfl <;> rfl

/-- A caller that goes on or is interrupted waits no more. -/
theorem waiting_onward (onward : event = .resume id ∨ event = .interrupt id)
    (moved : system.next event = some reached) : (reached.callers id).waiting = none := by
  rcases onward with rfl | rfl
  · obtain ⟨done, resumes, rfl⟩ := Option.map_eq_some_iff.mp moved
    have gone : done.2.waiting = none := by
      unfold Robot.resume at resumes
      repeat' split at resumes
      all_goals first
        | contradiction
        | (cases resumes; rfl)
    simp [RobotSystem.settle, gone]
  · obtain ⟨caller, interrupts, rfl⟩ := Option.map_eq_some_iff.mp moved
    have gone : caller.waiting = none := by
      unfold Robot.interrupt at interrupts
      repeat' split at interrupts
      all_goals first
        | contradiction
        | (cases interrupts; rfl)
    simp [RobotSystem.settle, gone]

theorem waiting_read (moved : system.next (.request id (.read false sizeofEchoSnapshot)) =
    some reached) : (reached.callers id).waiting = none ∨
      (reached.callers id).waiting = some (.news sizeofEchoSnapshot) := by
  obtain ⟨done, answers, rfl⟩ := waiting_request moved
  cases answers
  simp only [RobotSystem.settle, Function.update_self, Robot.read]
  split
  · exact Or.inl rfl
  · exact Or.inr rfl

theorem waiting_replay (moved : system.next (.request id (writeCmd echoCmdReplay)) =
    some reached) : (reached.callers id).waiting = none ∨
      (reached.callers id).waiting = some (.replay sizeofEchoCmd) := by
  obtain ⟨done, answers, rfl⟩ := waiting_request moved
  have replay : done = system.robot.replay (system.callers id) sizeofEchoCmd :=
    (Option.some.inj answers).symm
  rw [replay]
  simp only [RobotSystem.settle, Function.update_self, Robot.replay]
  split
  · exact Or.inl rfl
  · exact Or.inr rfl

/-- The calls of the main thread. -/
def ShortCall (request : Request) : Prop :=
  request = writeCmd echoCmdTeach ∨ request = writeCmd echoCmdStop ∨ request = .ioctl .reset ∨
    request = .ioctl .getState

/-- They return at once. -/
theorem waiting_main {request : Request} (moved : system.next (.request id request) = some reached)
    (short : ShortCall request) : (reached.callers id).waiting = none := by
  obtain ⟨done, answers, rfl⟩ := waiting_request moved
  rcases short with rfl | rfl | rfl | rfl <;> cases answers <;> simp [RobotSystem.settle] <;> rfl

end Robot

/-- What the program and the robot do in one step. -/
inductive AppStep (app : EchoApp) (system : RobotSystem) :
    Act → EchoApp → RobotSystem → Prop where
  | seeds {reached : RobotSystem} (seeding : app.main = .seeding)
      (moved : system.next (.request mainId (.ioctl .getState)) = some reached) :
      AppStep app system .getState { app with
        main := .creating
        sharedSnap := (reached.callers mainId).seen.getD app.sharedSnap } reached
  | creates (created : Bool) (creating : app.main = .creating) :
      AppStep app system (.createReader created) { app with
        main := .looping, reader := if created then .testing else .unborn } system
  | commands {reached : RobotSystem} {request : Request} (ch : Char) (status : Status)
      (looping : app.main = .looping) (short : ShortCall request)
      (moved : system.next (.request mainId request) = some reached) :
      AppStep app system (.key ch) { app with statusBuf := status } reached
  | presses {after : EchoApp} (ch : Char) (looping : app.main = .looping)
      (same : after.reader = app.reader ∧ after.sharedSnap = app.sharedSnap ∧
        after.workers = app.workers)
      (onward : after.main ≠ .seeding ∧ after.main ≠ .creating) :
      AppStep app system (.key ch) after system
  | spawns (spawning : app.main = .spawning) :
      AppStep app system (.createWorker true) { move app app.spawned (some .starting) with
        main := .looping, spawned := app.spawned + 1 } system
  | loses (spawning : app.main = .spawning) :
      AppStep app system (.createWorker false) { app with main := .looping } system
  | leaves (looping : app.main = .looping) (stopped : app.running = false) :
      AppStep app system .leave { app with main := .leaving } system
  | cancels {reached : RobotSystem} (leaving : app.main = .leaving)
      (cut : app.reader = .reading ∧ system.next (.interrupt readerId) = some reached ∨
        app.reader ≠ .reading ∧ reached = system) :
      AppStep app system .cancelReader { app with main := .left, reader := .ended } reached
  | reads {reached : RobotSystem} (testing : app.reader = .testing)
      (moved : system.next (.request readerId (.read false sizeofEchoSnapshot)) = some reached) :
      AppStep app system .read (afterRead app (observeRobot reached)) reached
  | ends (testing : app.reader = .testing) (stopped : app.running = false) :
      AppStep app system .read { app with reader := .ended } system
  | wakes {reached : RobotSystem} {act : Act} {event : RobotEvent} (reading : app.reader = .reading)
      (onward : event = .resume readerId ∨ event = .interrupt readerId)
      (moved : system.next event = some reached) :
      AppStep app system act (afterRead app (observeRobot reached)) reached
  | stores {snap : EchoSnapshot} (storing : app.reader = .storing snap) :
      AppStep app system .store { app with sharedSnap := snap, reader := .testing } system
  | writes {reached : RobotSystem} {worker : Nat} (starting : app.workers worker = some .starting)
      (moved : system.next (.request (workerId worker) (writeCmd echoCmdReplay)) = some reached) :
      AppStep app system (.write worker) (afterWrite app worker (observeRobot reached)) reached
  | returns {reached : RobotSystem} {act : Act} {event : RobotEvent} {worker : Nat}
      (writing : app.workers worker = some .writing)
      (onward : event = .resume (workerId worker) ∨ event = .interrupt (workerId worker))
      (moved : system.next event = some reached) :
      AppStep app system act (afterWrite app worker (observeRobot reached)) reached
  | clears {worker : Nat} (clearing : app.workers worker = some .clearing) :
      AppStep app system (.clear worker) { move app worker none with replaying := false } system
  | stops : AppStep app system .sigint { app with running := false } system
  | world {reached : RobotSystem} {event : RobotEvent} (outside : ofWorld event = true)
      (moved : system.next event = some reached) :
      AppStep app system (.world event) app reached

section Steps
variable {app after : EchoApp} {act : Act} {system reached : RobotSystem}

theorem appStep_of_next (moved : appNext (app, system) act = some (after, reached)) :
    AppStep app system act after reached := by
  rcases clientNext_cases moved with ⟨step, does, rfl, rfl⟩ | ⟨event, step, does, rfl, stepped⟩
  · clear moved
    cases act with
    | createReader created =>
      simp only [echoApp] at does
      split at does <;> cases does
      exact .creates created ‹_›
    | key ch =>
      simp only [echoApp, handleKey] at does
      split at does
      swap
      · cases does
      rename_i looping
      repeat' split at does
      all_goals first
        | (cases does; done)
        | (cases does; exact .presses ch looping ⟨rfl, rfl, rfl⟩ (by simp [looping]))
    | createWorker created =>
      simp only [echoApp] at does
      split at does <;> cases does
      cases created with
      | true => exact .spawns ‹_›
      | false => exact .loses ‹_›
    | leave =>
      simp only [echoApp] at does
      split at does <;> cases does
      rename_i stopped
      exact .leaves stopped.1 stopped.2
    | cancelReader =>
      simp only [echoApp] at does
      split at does
      swap
      · cases does
      rename_i leaving
      split at does <;> cases does
      exact .cancels leaving (Or.inr ⟨‹_›, rfl⟩)
    | read =>
      simp only [echoApp] at does
      split at does
      swap
      · cases does
      rename_i testing
      split at does <;> cases does
      exact .ends testing (by simpa using ‹¬ app.running = true›)
    | store =>
      simp only [echoApp] at does
      split at does <;> cases does
      exact .stores ‹_›
    | clear worker =>
      simp only [echoApp] at does
      split at does <;> cases does
      exact .clears ‹_›
    | sigint =>
      cases does
      exact .stops
    | _ =>
      simp only [echoApp] at does
      split at does <;> cases does
  · clear moved
    cases act with
    | getState =>
      simp only [echoApp] at does
      split at does <;> cases does
      exact .seeds ‹_› stepped
    | key ch =>
      simp only [echoApp, handleKey] at does
      split at does
      swap
      · cases does
      rename_i looping
      repeat' split at does
      all_goals first
        | (cases does; done)
        | (cases does; exact .commands ch _ looping (by simp [ShortCall]) stepped)
    | cancelReader =>
      simp only [echoApp] at does
      split at does
      swap
      · cases does
      rename_i leaving
      split at does <;> cases does
      exact .cancels leaving (Or.inl ⟨‹_›, stepped⟩)
    | read =>
      simp only [echoApp] at does
      split at does
      swap
      · cases does
      rename_i testing
      split at does <;> cases does
      exact .reads testing stepped
    | readReturns =>
      simp only [echoApp] at does
      split at does <;> cases does
      exact .wakes ‹_› (Or.inl rfl) stepped
    | readInterrupted =>
      simp only [echoApp] at does
      split at does <;> cases does
      exact .wakes ‹_› (Or.inr rfl) stepped
    | write worker =>
      simp only [echoApp] at does
      split at does <;> cases does
      exact .writes ‹_› stepped
    | writeReturns worker =>
      simp only [echoApp] at does
      split at does <;> cases does
      exact .returns ‹_› (Or.inl rfl) stepped
    | writeInterrupted worker =>
      simp only [echoApp] at does
      split at does <;> cases does
      exact .returns ‹_› (Or.inr rfl) stepped
    | world event =>
      simp only [echoApp] at does
      split at does <;> cases does
      exact .world ‹_› stepped
    | sigint => cases does
    | _ =>
      simp only [echoApp] at does
      split at does <;> cases does

end Steps

/-- The reader waits for news, a replay thread for the end of its replay. -/
structure Calls (app : EchoApp) (system : RobotSystem) : Prop where
  unborn : app.main = .seeding ∨ app.main = .creating → app.reader = .unborn
  main : (system.callers mainId).waiting = none
  reader : (system.callers readerId).waiting =
    if app.reader = .reading then some (.news sizeofEchoSnapshot) else none
  worker : ∀ worker, (system.callers (workerId worker)).waiting =
    if app.workers worker = some .writing then some (.replay sizeofEchoCmd) else none

section Step
variable {acts : List Act} {app after : EchoApp} {act : Act} {doing : Doing}
variable {system reached : RobotSystem} {event : RobotEvent} {worker : Nat}

/-- A step that brings no thread in or out of the driver. -/
theorem Calls.same (calls : Calls app system)
    (unborn : after.main = .seeding ∨ after.main = .creating → after.reader = .unborn)
    (reader : after.reader = .reading ↔ app.reader = .reading)
    (workers : ∀ worker, after.workers worker = some .writing ↔
      app.workers worker = some .writing)
    (callers : ∀ id, (reached.callers id).waiting = (system.callers id).waiting) :
    Calls after reached where
  unborn := unborn
  main := (callers _).trans calls.main
  reader := by rw [callers, calls.reader, if_congr reader rfl rfl]
  worker worker := by rw [callers, calls.worker, if_congr (workers worker) rfl rfl]

/-- A call of the main thread. -/
theorem Calls.of_main (calls : Calls app system) {request : Request}
    (moved : system.next (.request mainId request) = some reached)
    (short : ShortCall request)
    (unborn : after.main = .seeding ∨ after.main = .creating → after.reader = .unborn)
    (reader : after.reader = app.reader) (workers : after.workers = app.workers) :
    Calls after reached := by
  refine calls.same unborn (by rw [reader]) (fun worker => by rw [workers]) fun id => ?_
  by_cases own : id = mainId
  · subst own
    rw [waiting_main moved short, calls.main]
  · rw [callers_other (by simpa [callerOf] using Ne.symm own) moved]

section After
variable {outcomes : Nat → Outcome}

@[simp] theorem afterRead_main : (afterRead app outcomes).main = app.main := by
  unfold afterRead
  dsimp only
  repeat' split
  all_goals rfl

@[simp] theorem afterRead_workers : (afterRead app outcomes).workers = app.workers := by
  unfold afterRead
  dsimp only
  repeat' split
  all_goals rfl

@[simp] theorem afterWrite_main : (afterWrite app worker outcomes).main = app.main := by
  unfold afterWrite
  dsimp only
  split <;> rfl

@[simp] theorem afterWrite_reader : (afterWrite app worker outcomes).reader = app.reader := by
  unfold afterWrite
  dsimp only
  split <;> rfl

theorem afterRead_reading :
    (afterRead app outcomes).reader = .reading ↔ (outcomes readerId).back = false := by
  unfold afterRead
  dsimp only
  repeat' split
  all_goals simp_all

theorem afterWrite_writing :
    (afterWrite app worker outcomes).workers worker = some .writing ↔
      (outcomes (workerId worker)).back = false := by
  unfold afterWrite
  dsimp only
  split <;> simp_all [move]

theorem afterWrite_other {other : Nat} (different : other ≠ worker) :
    (afterWrite app worker outcomes).workers other = app.workers other := by
  unfold afterWrite
  dsimp only
  split <;> simp [move, different]

end After

theorem reader_ne_worker (worker : Nat) : readerId ≠ workerId worker := by
  unfold readerId workerId
  omega

/-- A call of the reader. -/
theorem Calls.of_reader (calls : Calls app system) (own : callerOf event = some readerId)
    (moved : system.next event = some reached)
    (waits : (reached.callers readerId).waiting = none ∨
      (reached.callers readerId).waiting = some (.news sizeofEchoSnapshot))
    (born : app.reader ≠ .unborn) : Calls (afterRead app (observeRobot reached)) reached where
  unborn early := by
    rw [afterRead_main] at early
    exact absurd (calls.unborn early) born
  main := by rw [callers_other (by simp [own]) moved, calls.main]
  reader := by
    rw [if_congr afterRead_reading rfl rfl]
    rcases waits with none | some <;> simp [observeRobot, *]
  worker worker := by
    have other : callerOf event ≠ some (workerId worker) := by
      simpa [own] using reader_ne_worker worker
    rw [callers_other other moved, calls.worker, afterRead_workers]

/-- A call of a replay thread. -/
theorem Calls.of_worker (calls : Calls app system) (own : callerOf event = some (workerId worker))
    (moved : system.next event = some reached)
    (waits : (reached.callers (workerId worker)).waiting = none ∨
      (reached.callers (workerId worker)).waiting = some (.replay sizeofEchoCmd)) :
    Calls (afterWrite app worker (observeRobot reached)) reached where
  unborn := by
    rw [afterWrite_main, afterWrite_reader]
    exact calls.unborn
  main := by rw [callers_other (by simp [own]) moved, calls.main]
  reader := by
    have other : callerOf event ≠ some readerId := by
      simpa [own] using (reader_ne_worker worker).symm
    rw [callers_other other moved, calls.reader, afterWrite_reader]
  worker other := by
    by_cases same : other = worker
    · subst same
      rw [if_congr afterWrite_writing rfl rfl]
      rcases waits with none | some <;> simp [observeRobot, *]
    · have apart : callerOf event ≠ some (workerId other) := by
        rw [own, ne_eq, Option.some.injEq, workerId, workerId]
        omega
      rw [callers_other apart moved, calls.worker, afterWrite_other same]

/-- What the world does is not done by a thread of the program. -/
theorem callerOf_world (outside : ofWorld event = true) {id : Nat}
    (own : callerOf event = some id) : isOther id = true := by
  cases event <;> simp only [callerOf, Option.some.injEq, reduceCtorEq] at own
  all_goals exact own ▸ outside

theorem Calls.of_world (calls : Calls app system) (outside : ofWorld event = true)
    (moved : system.next event = some reached) : Calls app reached := by
  have apart : ∀ id, isOther id = false → reached.callers id = system.callers id := by
    intro id app
    refine callers_other (fun own => ?_) moved
    simp [callerOf_world outside own] at app
  have worker : ∀ worker, isOther (workerId worker) = false := by
    intro worker
    simp only [isOther, workerId, decide_eq_false_iff_not]
    omega
  refine ⟨calls.unborn, ?_, ?_, fun number => ?_⟩
  · rw [apart mainId (by decide), calls.main]
  · rw [apart readerId (by decide), calls.reader]
  · rw [apart _ (worker number), calls.worker]

/-- Every step keeps the threads and their calls together. -/
theorem calls_next (guard : Guard acts app) (calls : Calls app system)
    (moved : appNext (app, system) act = some (after, reached)) : Calls after reached := by
  cases appStep_of_next moved with
  | seeds seeding stepped =>
    exact calls.of_main stepped (by simp [ShortCall]) (fun _ => calls.unborn (Or.inl seeding)) rfl
      rfl
  | creates created creating =>
    have unborn := calls.unborn (Or.inr creating)
    refine calls.same (by simp) ?_ (fun _ => Iff.rfl) fun _ => rfl
    cases created <;> simp [unborn]
  | commands ch status looping short stepped =>
    exact calls.of_main stepped short calls.unborn rfl rfl
  | presses ch looping same onward =>
    obtain ⟨reader, -, workers⟩ := same
    refine calls.same (fun early => ?_) (by rw [reader]) (fun _ => by rw [workers]) fun _ => rfl
    rcases early with seeding | creating
    · exact absurd seeding onward.1
    · exact absurd creating onward.2
  | spawns spawning =>
    have nobody : app.workers app.spawned = none := by
      cases guard with
      | taken _ _ nobody => exact nobody _
      | free _ away => exact absurd spawning away
      | held _ _ away => exact absurd spawning away
      | lost _ away => exact absurd spawning away
    refine calls.same (by simp) Iff.rfl (fun worker => ?_) fun _ => rfl
    by_cases same : worker = app.spawned
    · simp [same, move, nobody]
    · simp [move, same]
  | loses spawning => exact calls.same (by simp) Iff.rfl (fun _ => Iff.rfl) fun _ => rfl
  | leaves looping stopped => exact calls.same (by simp) Iff.rfl (fun _ => Iff.rfl) fun _ => rfl
  | cancels leaving cut =>
    rcases cut with ⟨reading, stepped⟩ | ⟨outside, rfl⟩
    · refine ⟨by simp, ?_, ?_, fun worker => ?_⟩
      · rw [callers_other (by simp [callerOf]) stepped, calls.main]
      · rw [waiting_onward (Or.inr rfl) stepped]
        rfl
      · rw [callers_other (by simpa [callerOf] using reader_ne_worker worker) stepped,
          calls.worker]
    · exact calls.same (by simp) (by simp [outside]) (fun _ => Iff.rfl) fun _ => rfl
  | reads testing stepped =>
    exact calls.of_reader rfl stepped (waiting_read stepped) (by simp [testing])
  | ends testing stopped =>
    refine calls.same (fun early => ?_) (by simp [testing]) (fun _ => Iff.rfl) fun _ => rfl
    simp [calls.unborn early] at testing
  | wakes reading onward stepped =>
    exact calls.of_reader (callerOf_onward onward) stepped
      (Or.inl (waiting_onward onward stepped)) (by simp [reading])
  | stores storing =>
    refine calls.same (fun early => ?_) (by simp [storing]) (fun _ => Iff.rfl) fun _ => rfl
    simp [calls.unborn early] at storing
  | writes starting stepped => exact calls.of_worker rfl stepped (waiting_replay stepped)
  | returns writing onward stepped =>
    exact calls.of_worker (callerOf_onward onward) stepped (Or.inl (waiting_onward onward stepped))
  | @clears worker clearing =>
    refine calls.same calls.unborn Iff.rfl (fun other => ?_) fun _ => rfl
    by_cases same : other = worker
    · simp [same, move, clearing]
    · simp [move, same]
  | stops => exact calls.same calls.unborn Iff.rfl (fun _ => Iff.rfl) fun _ => rfl
  | @world _ event outside stepped =>
    exact calls.of_world outside stepped

end Step

section Run
variable {pos : Fin echoNumServos → Nat} {clock : Nat} {acts : List Act}
variable {pair : EchoApp × RobotSystem}

theorem calls_initial : Calls EchoApp.initial (RobotSystem.initial pos clock) :=
  ⟨fun _ => rfl, rfl, rfl, fun _ => rfl⟩

theorem calls_of_run
    (run : Run appNext anyStep (EchoApp.initial, RobotSystem.initial pos clock) acts pair) :
    Calls pair.1 pair.2 := by
  refine run.invariant (fun pair => Calls pair.1 pair.2) calls_initial ?_
  intro acts before act after ran calls _ moved
  exact calls_next (guard_of_run ran) calls moved

/-- The program keeps what `Waiting` says of any callers. -/
theorem attended_of_app
    (run : Run appNext anyStep (EchoApp.initial, RobotSystem.initial pos clock) acts pair) :
    pair.2.robot.Attended pair.2.awaited := by
  refine run.invariant (fun pair => pair.2.robot.Attended pair.2.awaited)
    (@attended_run _ _ pos [] rfl) ?_
  rintro acts ⟨app, system⟩ act ⟨after, reached⟩ - attended - moved
  rcases clientNext_cases moved with ⟨step, -, -, rfl⟩ | ⟨event, step, -, -, stepped⟩
  · exact attended
  · exact attended_of_next attended stepped

end Run

end EchoRobot.App
