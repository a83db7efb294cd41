import EchoRobot.Interleaving.Client
import EchoRobot.Session.Refinement

/-! The user's program: a main thread that handles keys, a thread that reads, and a thread
for every replay, which would block the main thread. All of them use one open file. -/

namespace EchoRobot.App

open Interleaving

/-- What the status line tells; the errors come with the value of the call. -/
inductive Status where
  | ready
  | teachFailed (value : Int)
  | enteredTeach
  | replayInProgress
  | replaying
  | replayFailed (value : Int)
  | replayComplete
  | stopFailed (value : Int)
  | stopped
  | resetFailed (value : Int)
  | deviceReset
  deriving DecidableEq, Repr

/-- Where `main` stands: at the first `ioctl`, at the creation of the reader, in the loop, at
the creation of a replay thread, behind the loop, and behind its reader. -/
inductive MainThread where
  | seeding | creating | looping | spawning | leaving | left
  deriving DecidableEq, Repr

/-- Where `reader_thread` stands: at the test of its loop, in `read`, or with what it read. -/
inductive ReaderThread where
  | unborn | testing | reading | storing (snap : EchoSnapshot) | ended
  deriving DecidableEq, Repr

/-- Where a `replay_worker` stands: before its `write`, in it, or behind it. -/
inductive ReplayThread where
  | starting | writing | clearing
  deriving DecidableEq, Repr

structure EchoApp where
  running : Bool
  main : MainThread
  reader : ReaderThread
  sharedSnap : EchoSnapshot
  replaying : Bool
  workers : Nat → Option ReplayThread
  spawned : Nat
  statusBuf : Status

/-- What a thread sees of its system call. -/
structure Outcome where
  back : Bool
  value : Option Int
  seen : Option EchoSnapshot

/-- The threads as callers of the driver. -/
abbrev mainId : Nat := 0
abbrev readerId : Nat := 1
abbrev workerId (worker : Nat) : Nat := 2 * worker + 2

/-- The other numbers are for other processes that use the device. -/
def isOther (id : Nat) : Bool := decide (id % 2 = 1 ∧ id ≠ readerId)

theorem app_or_other (id : Nat) :
    id = mainId ∨ id = readerId ∨ (∃ worker, id = workerId worker) ∨ isOther id = true := by
  by_cases odd : id % 2 = 1
  · by_cases reader : id = readerId
    · exact Or.inr (Or.inl reader)
    · exact Or.inr (Or.inr (Or.inr (decide_eq_true ⟨odd, reader⟩)))
  · by_cases main : id = mainId
    · exact Or.inl main
    · refine Or.inr (Or.inr (Or.inl ⟨id / 2 - 1, ?_⟩))
      unfold mainId at main
      unfold workerId
      omega

def observeDriver (state : State) (id : Nat) : Outcome :=
  ⟨state.idle (.proc id), (state.thread (.proc id)).result, (state.thread (.proc id)).delivered⟩

def observeRobot (system : RobotSystem) (id : Nat) : Outcome :=
  ⟨(system.callers id).waiting.isNone, (system.callers id).answer, (system.callers id).seen⟩

/-- A step of one of the threads, or something that happens to the robot. -/
inductive Act where
  | getState
  | createReader (created : Bool)
  | key (ch : Char)
  | createWorker (created : Bool)
  | leave
  | cancelReader
  | read
  | readReturns
  | readInterrupted
  | store
  | write (worker : Nat)
  | writeReturns (worker : Nat)
  | writeInterrupted (worker : Nat)
  | clear (worker : Nat)
  | sigint
  | world (event : RobotEvent)

/-- The events that the program has no part in. -/
def ofWorld : RobotEvent → Bool
  | .input .. | .expire | .perform | .pass _ => true
  | .request id _ | .resume id | .interrupt id => isOther id

abbrev Doing := Does EchoApp RobotEvent (Nat → Outcome)

def silently (app : EchoApp) : Doing := ⟨none, fun _ => app⟩

@[simp] theorem silently_next (app : EchoApp) (outcomes : Nat → Outcome) :
    (silently app).next outcomes = app := rfl

@[simp] theorem silently_event (app : EchoApp) : (silently app).event = none := rfl

/-- What is shown of a call: an error if it returned one. -/
def report (outcome : Outcome) (failed : Int → Status) (done : Status) : Status :=
  match outcome.value with
  | some value => if value < 0 then failed value else done
  | none => done

section Threads
variable (app : EchoApp)

/-- `echo_controller_handle_key`. The guard is tested and set before a thread is created. -/
def handleKey (ch : Char) : Doing :=
  if ch ∈ ['1', 't', 'T'] then
    ⟨some (.request mainId (writeCmd echoCmdTeach)), fun outcomes =>
      { app with statusBuf := report (outcomes mainId) .teachFailed .enteredTeach }⟩
  else if ch ∈ ['2', 'r', 'R'] then
    if app.replaying then silently { app with statusBuf := .replayInProgress }
    else silently { app with replaying := true, statusBuf := .replaying, main := .spawning }
  else if ch ∈ ['3', 's', 'S'] then
    ⟨some (.request mainId (writeCmd echoCmdStop)), fun outcomes =>
      { app with statusBuf := report (outcomes mainId) .stopFailed .stopped }⟩
  else if ch = '6' then
    ⟨some (.request mainId (.ioctl .reset)), fun outcomes =>
      { app with statusBuf := report (outcomes mainId) .resetFailed .deviceReset }⟩
  else if ch ∈ ['q', 'Q'] then silently { app with running := false, main := .leaving }
  else silently app

/-- The reader goes on when its `read` is back, and gives up on an error. -/
def afterRead (outcomes : Nat → Outcome) : EchoApp :=
  let outcome := outcomes readerId
  if outcome.back then
    match outcome.value, outcome.seen with
    | some value, some snap =>
      if value < 0 then { app with reader := .ended } else { app with reader := .storing snap }
    | _, _ => { app with reader := .ended }
  else { app with reader := .reading }

def move (worker : Nat) (thread : Option ReplayThread) : EchoApp :=
  { app with workers := Function.update app.workers worker thread }

def afterWrite (worker : Nat) (outcomes : Nat → Outcome) : EchoApp :=
  let outcome := outcomes (workerId worker)
  if outcome.back then
    { move app worker (some .clearing) with
      statusBuf := report outcome .replayFailed .replayComplete }
  else move app worker (some .writing)

/-- The program, thread by thread. -/
def echoApp : Act → Option Doing
  | .getState =>
    if app.main = .seeding then some ⟨some (.request mainId (.ioctl .getState)), fun outcomes =>
      { app with
        main := .creating, sharedSnap := ((outcomes mainId).seen).getD app.sharedSnap }⟩
    else none
  | .createReader created =>
    if app.main = .creating then some (silently { app with
      main := .looping, reader := if created then .testing else .unborn })
    else none
  | .key ch => if app.main = .looping then some (handleKey app ch) else none
  | .createWorker created =>
    if app.main = .spawning then
      some (silently (if created then
        { move app app.spawned (some .starting) with main := .looping, spawned := app.spawned + 1 }
      else { app with main := .looping }))
    else none
  | .leave =>
    if app.main = .looping ∧ app.running = false then some (silently { app with main := .leaving })
    else none
  | .cancelReader =>
    if app.main = .leaving then
      some ⟨if app.reader = .reading then some (.interrupt readerId) else none, fun _ =>
        { app with main := .left, reader := .ended }⟩
    else none
  | .read =>
    if app.reader = .testing then
      some (if app.running then
        ⟨some (.request readerId (.read false sizeofEchoSnapshot)), afterRead app⟩
      else silently { app with reader := .ended })
    else none
  | .readReturns =>
    if app.reader = .reading then some ⟨some (.resume readerId), afterRead app⟩ else none
  | .readInterrupted =>
    if app.reader = .reading then some ⟨some (.interrupt readerId), afterRead app⟩ else none
  | .store =>
    match app.reader with
    | .storing snap => some (silently { app with sharedSnap := snap, reader := .testing })
    | _ => none
  | .write worker =>
    if app.workers worker = some .starting then
      some ⟨some (.request (workerId worker) (writeCmd echoCmdReplay)), afterWrite app worker⟩
    else none
  | .writeReturns worker =>
    if app.workers worker = some .writing then
      some ⟨some (.resume (workerId worker)), afterWrite app worker⟩
    else none
  | .writeInterrupted worker =>
    if app.workers worker = some .writing then
      some ⟨some (.interrupt (workerId worker)), afterWrite app worker⟩
    else none
  | .clear worker =>
    if app.workers worker = some .clearing then
      some (silently { move app worker none with replaying := false })
    else none
  | .sigint => some (silently { app with running := false })
  | .world event => if ofWorld event then some ⟨some event, fun _ => app⟩ else none

end Threads

/-- The memory of the program before `main`, with the snapshot cleared. -/
def EchoApp.initial : EchoApp :=
  ⟨true, .seeding, .unborn, .zero, false, fun _ => none, 0, .ready⟩

/-- The program on the driver, each call taken to its end or to its sleep. -/
abbrev AppHappens : EchoApp × State → Act → EchoApp × State → Prop :=
  ClientHappens echoApp observeDriver Happens

/-- The program on the robot. -/
abbrev appNext : EchoApp × RobotSystem → Act → Option (EchoApp × RobotSystem) :=
  clientNext echoApp observeRobot RobotSystem.next

theorem observe_stands {state : State} {system : RobotSystem} (stands : Stands state system) :
    observeDriver state = observeRobot system := by
  funext id
  obtain ⟨code, answer, seen⟩ := stands.callers id
  have back : state.idle (.proc id) = (system.callers id).waiting.isNone := by
    rw [State.idle, State.code, code, Caller.code]
    cases (system.callers id).waiting with
    | none => rfl
    | some wait => cases wait <;> rfl
  rw [observeDriver, observeRobot, back, answer, seen]

/-- The program does the same on both. -/
theorem app_agrees : Agrees AppHappens appNext (ClientRelated Stands) :=
  driver_agrees.of_client fun _ _ stands => observe_stands stands

theorem app_begins (servo : EchoServoCtx) (clock : Nat) :
    ClientRelated Stands (EchoApp.initial, State.initial servo clock)
      (EchoApp.initial, RobotSystem.initial servo.pos clock) :=
  ⟨rfl, stands_initial servo clock⟩

end EchoRobot.App
