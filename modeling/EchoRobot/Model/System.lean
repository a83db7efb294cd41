import EchoRobot.Model.Program
import EchoRobot.Interleaving.Run
import EchoRobot.Interleaving.Code

/-! The running driver: any number of processes and interrupt threads, the
inactivity timer and the replay worker, interleaved one atomic step at a time. -/

namespace EchoRobot

open Interleaving

inductive Tid where
  | proc (id : Nat)
  | irq (id : Nat)
  | timer
  | worker
  deriving DecidableEq, Repr

/-- What is left of the current call, its local variables, and what its
caller holds of the snapshots that were copied to it. -/
structure Thread where
  code : Code
  newAngle : Nat
  now : Nat
  delayMs : Nat
  delay : Nat
  divides : Bool
  snap : EchoSnapshot
  result : Option Int
  delivered : Option EchoSnapshot

structure State where
  dev : EchoDevice
  clock : Nat
  thread : Tid → Thread

def State.code (state : State) (tid : Tid) : Code := (state.thread tid).code

def State.idle (state : State) (tid : Tid) : Bool := (state.code tid).isEmpty

/-- The replay work item is pending or running. -/
def State.workBusy (state : State) : Prop :=
  state.dev.buffer.replayPending = true ∨ state.idle .worker = false

/-- What the kernel and the bus answer in one step. -/
structure Env where
  i2c : I2cResults
  allocated : Bool
  copied : Bool

/-- Every byte write, allocation and user copy succeeds. -/
def Env.good : Env := ⟨fun _ => 0, true, true⟩

def Thread.leave (thread : Thread) (result : Option Int) : Thread :=
  { thread with code := [], result := result }

/-- Return to the caller, `result` being the value of a failed call. -/
def leave (dev : EchoDevice) (thread : Thread) (result : Option Int) :
    Option (EchoDevice × Thread) :=
  some (dev, thread.leave result)

/-- Execute `instr`, with `rest` after it. A step that has to wait for another
thread or for a flag has no result. -/
def exec (state : State) (tid : Tid) (env : Env) (instr : Instr) (rest : Code) :
    Option (EchoDevice × Thread) :=
  let dev := state.dev
  let thread := { state.thread tid with code := rest }
  match instr with
  | .lockHandleInput =>
    match dev.state.mode with
    | .replay => leave dev thread none
    | .idle => some ({ dev with
        state := { dev.state with mode := .teach, lastMoveTime := state.clock } }, thread)
    | .teach => some (dev, thread)
  | .lockStartReplay =>
    if dev.state.mode = .replay then leave dev thread (some (-EBUSY)) else
    some ({ dev with state := { dev.state with mode := .replay } }, thread)
  | .lockInactivity =>
    if dev.state.mode = .teach then
      some ({ dev with state := { dev.state with mode := .replay } }, thread)
    else leave dev thread none
  | .lockSetMode mode => some ({ dev with state := { dev.state with mode := mode } }, thread)
  | .lockReplayComplete => some ({ dev with state := { dev.state with mode := .idle } }, thread)
  | .getServo servoId delta =>
    some (dev, { thread with newAngle := clampAngle (echoServoGetAngle dev.servo servoId) delta })
  | .moveServo servoId =>
    some ({ dev with
      servo := (echoServoSetAngle dev.servo servoId thread.newAngle env.i2c).1 }, thread)
  | .ktimeGet => some (dev, { thread with now := state.clock })
  | .seqlockDelay =>
    some ({ dev with state := { dev.state with lastMoveTime := thread.now } },
      { thread with delayMs := toU32 (ktimeMsDelta thread.now dev.state.lastMoveTime) })
  | .setLastMoveTime =>
    some ({ dev with state := { dev.state with lastMoveTime := thread.now } }, thread)
  | .recordMove servoId =>
    some ({ dev with buffer := { dev.buffer with
      moveFifo := echoBufferRecord dev.buffer.moveFifo
        ⟨servoId, thread.newAngle, thread.delayMs⟩ } }, thread)
  | .clearBuffer => some ({ dev with buffer := { dev.buffer with moveFifo := [] } }, thread)
  | .incTotalMoves =>
    some ({ dev with state := { dev.state with totalMoves := dev.state.totalMoves + 1 } }, thread)
  | .resetTotalMoves =>
    some ({ dev with state := { dev.state with totalMoves := 0 } }, thread)
  | .modTimer => some ({ dev with state := { dev.state with timerPending := true } }, thread)
  | .timerDeleteSync =>
    if state.idle .timer then
      some ({ dev with state := { dev.state with timerPending := false } }, thread)
    else none
  | .queueWork => some ({ dev with buffer := { dev.buffer with replayPending := true } }, thread)
  | .cancelWorkSync =>
    if state.idle .worker then
      some ({ dev with buffer := { dev.buffer with replayPending := false } }, thread)
    else none
  | .snapshot =>
    if env.allocated then
      some ({ dev with buffer := { dev.buffer with
        moveFifo := replayRefill dev.buffer.moveFifo } },
        { thread with code := replayLoop (replaySnapshot dev.buffer.moveFifo) ++ rest })
    else some (dev, thread)
  | .incReplayCount =>
    some ({ dev with buffer := { dev.buffer with
      replayCount := dev.buffer.replayCount + 1 } }, thread)
  | .shouldStop =>
    if dev.state.mode = .replay then some (dev, thread)
    else some (dev, { thread with code := bufOpReplayDone })
  | .testSpeed delayMs =>
    some (dev, { thread with delay := delayMs, divides := decide (0 < dev.buffer.replaySpeed) })
  | .divideDelay =>
    let delay := if thread.divides then thread.delay / dev.buffer.replaySpeed else thread.delay
    some (dev, { thread with delay := if delay < 10 then 10 else delay })
  | .msleep => some (dev, thread)
  | .setAngle servoId angle =>
    some ({ dev with servo := (echoServoSetAngle dev.servo servoId angle env.i2c).1 }, thread)
  | .setAngleOrReturn servoId angle =>
    let moved := echoServoSetAngle dev.servo servoId angle env.i2c
    if moved.2 = 0 then some ({ dev with servo := moved.1 }, thread)
    else leave { dev with servo := moved.1 } thread (some moved.2)
  | .setReplaySpeed speed =>
    some ({ dev with buffer := { dev.buffer with replaySpeed := speed } }, thread)
  | .setNewDataAvail value => some ({ dev with newDataAvail := value }, thread)
  | .setReplayFinished value => some ({ dev with replayFinished := value }, thread)
  | .wakeUp _ => some (dev, thread)
  | .testNonblock =>
    if dev.newDataAvail then some (dev, thread) else leave dev thread (some (-EAGAIN))
  | .waitNewData => if dev.newDataAvail then some (dev, thread) else none
  | .waitReplayDone => if dev.replayFinished then some (dev, thread) else none
  | .readMode =>
    some (dev, { thread with snap := { thread.snap with mode := dev.state.mode.value } })
  | .readAngle servo =>
    let angle := echoServoGetAngle dev.servo servo
    some (dev, { thread with snap :=
      if servo = echoServoPan then { thread.snap with panAngle := angle }
      else if servo = echoServoTilt then { thread.snap with tiltAngle := angle }
      else { thread.snap with tilt2Angle := angle } })
  | .readCount =>
    some (dev, { thread with snap :=
      { thread.snap with bufferCount := dev.buffer.moveFifo.length } })
  | .readTotalMoves =>
    some (dev, { thread with snap :=
      { thread.snap with totalMoves := dev.state.totalMoves % u32Size } })
  | .readTotalReplays =>
    some (dev, { thread with snap :=
      { thread.snap with totalReplays := dev.buffer.replayCount % u32Size } })
  | .readIrqCount =>
    some (dev, { thread with snap := { thread.snap with irqCount := dev.irqCount % u32Size } })
  | .copyToUser size =>
    if env.copied then some (dev, { thread with
      delivered := some (.copied thread.delivered size thread.snap) })
    else leave dev thread (some (-EFAULT))
  | .ret value => leave dev thread (some value)

/-- Processes make system calls, interrupt threads report directions. -/
def Tid.mayCall : Tid → Request → Bool
  | .proc _, .input _ => false
  | .proc _, _ => true
  | .irq _, .input _ => true
  | _, _ => false

def Thread.begin (thread : Thread) (code : Code) : Thread :=
  { thread with code := code, result := none }

@[simp] theorem Thread.code_begin (thread : Thread) (code : Code) :
    (thread.begin code).code = code := rfl

@[simp] theorem Thread.code_leave (thread : Thread) (result : Option Int) :
    (thread.leave result).code = [] := rfl

/-- The device and one thread change together; the other threads stand still. -/
def State.settle (state : State) (tid : Tid) (dev : EchoDevice) (thread : Thread) : State :=
  ⟨dev, state.clock, Function.update state.thread tid thread⟩

section Settle
variable (state : State) (tid other : Tid) (dev : EchoDevice) (thread : Thread)

@[simp] theorem settle_dev : (state.settle tid dev thread).dev = dev := rfl

@[simp] theorem settle_clock : (state.settle tid dev thread).clock = state.clock := rfl

@[simp] theorem settle_thread : (state.settle tid dev thread).thread tid = thread := by
  simp [State.settle]

theorem settle_thread_of_ne (ne : other ≠ tid) :
    (state.settle tid dev thread).thread other = state.thread other := by
  simp [State.settle, ne]

@[simp] theorem settle_code : (state.settle tid dev thread).code tid = thread.code := by
  simp [State.code]

theorem settle_code_of_ne (ne : other ≠ tid) :
    (state.settle tid dev thread).code other = state.code other := by
  simp [State.code, settle_thread_of_ne _ _ _ _ _ ne]

end Settle

/-- The state in which the call has been entered, its interrupt counted. -/
def State.enter (state : State) (tid : Tid) (request : Request) : State :=
  state.settle tid { state.dev with irqCount := state.dev.irqCount + request.interrupts }
    ((state.thread tid).begin request.code)

@[simp] theorem enter_code (state : State) (tid : Tid) (request : Request) :
    (state.enter tid request).code tid = request.code := settle_code ..

/-- System calls count no interrupt. -/
theorem enter_dev {id : Nat} {request : Request} (state : State)
    (may : (Tid.proc id).mayCall request = true) :
    (state.enter (.proc id) request).dev = state.dev := by
  cases request with
  | input pin => cases may
  | _ => rfl

/-- The thread sleeps in `wait_event_interruptible`, its condition false. -/
def State.asleep (state : State) (tid : Tid) : Bool :=
  match state.code tid with
  | .waitReplayDone :: _ => !state.dev.replayFinished
  | .waitNewData :: _ => !state.dev.newDataAvail
  | _ => false

/-- Every thread is at its caller or asleep. -/
def State.resting (state : State) : Prop :=
  ∀ tid, state.code tid = [] ∨ state.asleep tid = true

inductive Action where
  | call (tid : Tid) (request : Request)
  | step (tid : Tid) (env : Env)
  | expire
  | startWork
  | tick (ns : Nat)
  | signal (tid : Tid)

/-- One action: a call enters, a thread takes a step, the timer expires, the
work queue picks up the item, time passes, or a signal ends a wait. -/
def next (state : State) : Action → Option State
  | .call tid request =>
    if tid.mayCall request && state.idle tid then
      some (state.enter tid request)
    else none
  | .step tid env =>
    match state.code tid with
    | [] => none
    | instr :: rest =>
      (exec state tid env instr rest).map fun done => state.settle tid done.1 done.2
  | .expire =>
    if state.dev.state.timerPending && state.idle .timer then
      some (state.settle .timer
        { state.dev with state := { state.dev.state with timerPending := false } }
        ((state.thread .timer).begin inactivityTimerFn))
    else none
  | .startWork =>
    if state.dev.buffer.replayPending && state.idle .worker then
      some (state.settle .worker
        { state.dev with buffer := { state.dev.buffer with replayPending := false } }
        ((state.thread .worker).begin replayWorker))
    else none
  | .tick ns => some { state with clock := state.clock + ns }
  | .signal tid =>
    if state.asleep tid then
      some (state.settle tid state.dev ((state.thread tid).leave (some (-ERESTARTSYS))))
    else none

def Thread.initial : Thread :=
  ⟨[], 0, 0, 0, 0, false, .zero, none, none⟩

/-- The device as `echo_init` leaves it, over a created servo context. -/
def EchoDevice.initial (servo : EchoServoCtx) : EchoDevice :=
  ⟨servo, ⟨[], false, 1, 0⟩, ⟨.idle, false, 0, 0⟩, 0, false, false⟩

def State.initial (servo : EchoServoCtx) (clock : Nat) : State :=
  ⟨EchoDevice.initial servo, clock, fun _ => Thread.initial⟩

/-- A simulated device with centred servos. -/
def simServo : EchoServoCtx := ⟨true, fun _ => echoServoCenter, fun _ => 0⟩

def steps (tid : Tid) (count : Nat) : List Action :=
  List.replicate count (.step tid Env.good)

/-- A full-size `write` of a command without further fields. -/
def writeCmd (command : Nat) : Request :=
  .write sizeofEchoCmd (some ⟨command, 0, 0, 0⟩)

end EchoRobot
