import EchoRobot.Model.Threads

/-! Loading and unloading. A module thread runs `echo_init` and `echo_exit` beside
the driver's own threads; every subsystem has a liveness flag that its `create`
sets and its `destroy` clears. -/

namespace EchoRobot

open Interleaving

inductive Subsystem where
  | servo | buffer | state | joystick | chardev | proc
  deriving DecidableEq, Repr

/-- The order in which `echo_joystick.c` numbers the pins. -/
def EchoGpio.index : EchoGpio → Nat
  | .up => 0
  | .down => 1
  | .left => 2
  | .right => 3

inductive ModuleInstr where
  | create (subsystem : Subsystem)
  | requestIrq (pin : EchoGpio)
  | freeIrq (pin : EchoGpio)
  | timerDeleteSync
  | cancelWorkSync
  | destroyWorkqueue
  | kfree (subsystem : Subsystem)
  deriving DecidableEq, Repr

abbrev ModuleCode := List ModuleInstr

def echoServoDestroy : ModuleCode := [.kfree .servo]

def echoBufferDestroy : ModuleCode := [.cancelWorkSync, .destroyWorkqueue, .kfree .buffer]

def echoStateDestroy : ModuleCode := [.timerDeleteSync, .kfree .state]

/-- Interrupts are requested only outside simulation. -/
def echoJoystickDestroy (simMode : Bool) : ModuleCode :=
  (if simMode then [] else [.freeIrq .right, .freeIrq .left, .freeIrq .down, .freeIrq .up]) ++
    [.kfree .joystick]

def echoChardevDestroy : ModuleCode := [.kfree .chardev]

def echoProcDestroy : ModuleCode := [.kfree .proc]

def errServo : ModuleCode := echoServoDestroy
def errBuffer : ModuleCode := echoBufferDestroy ++ errServo
def errState : ModuleCode := echoStateDestroy ++ errBuffer
def errJoystick (simMode : Bool) : ModuleCode := echoJoystickDestroy simMode ++ errState
def errChardev (simMode : Bool) : ModuleCode := echoChardevDestroy ++ errJoystick simMode

def echoExit (simMode : Bool) : ModuleCode :=
  echoProcDestroy ++ echoChardevDestroy ++ echoJoystickDestroy simMode ++ echoStateDestroy ++
    echoBufferDestroy ++ echoServoDestroy

/-- `echo_joystick_create` allocates before it requests the interrupts. -/
def echoInit (simMode : Bool) : ModuleCode :=
  [.create .servo, .create .buffer, .create .state, .create .joystick] ++
    (if simMode then [] else [.requestIrq .up, .requestIrq .down, .requestIrq .left,
      .requestIrq .right]) ++
    [.create .chardev, .create .proc]

/-- Where `echo_init` goes on when a step fails; a failed interrupt request first
releases the pins before it and the joystick. -/
def ModuleInstr.failed (simMode : Bool) : ModuleInstr → ModuleCode
  | .create .buffer => errServo
  | .create .state => errBuffer
  | .create .joystick => errState
  | .requestIrq .up => [.kfree .joystick] ++ errState
  | .requestIrq .down => [.freeIrq .up, .kfree .joystick] ++ errState
  | .requestIrq .left => [.freeIrq .down, .freeIrq .up, .kfree .joystick] ++ errState
  | .requestIrq .right =>
    [.freeIrq .left, .freeIrq .down, .freeIrq .up, .kfree .joystick] ++ errState
  | .create .chardev => errJoystick simMode
  | .create .proc => errChardev simMode
  | _ => []

/-- The driver in its module: the subsystems alive, the pins whose interrupt is
requested, the processes that hold the device file open, and what is left of
`echo_init` or `echo_exit`. -/
structure Driver where
  state : State
  simMode : Bool
  alive : List Subsystem
  irqs : List EchoGpio
  users : List Nat
  code : ModuleCode

/-- The module is loaded and not on its way out. -/
def Driver.loaded (driver : Driver) : Bool :=
  driver.code.isEmpty && decide (.proc ∈ driver.alive)

inductive DriverAction where
  | base (action : Action)
  | step (granted : Bool)
  | echoExit
  | echoOpen (id : Nat)
  | echoRelease (id : Nat)

/-- Calls come from processes that hold the file open and from requested
interrupts, whose handler thread is one for each pin. -/
def Driver.admits (driver : Driver) : Action → Bool
  | .call (.proc id) _ => decide (id ∈ driver.users)
  | .call (.irq id) (.input pin) => decide (pin ∈ driver.irqs ∧ pin.index = id)
  | _ => true

/-- `granted` says whether the kernel provides what a step of `echo_init` asks for.
`free_irq`, `timer_delete_sync` and `cancel_work_sync` wait for running handlers. -/
def Driver.exec (driver : Driver) (granted : Bool) (instr : ModuleInstr) (rest : ModuleCode) :
    Option Driver :=
  let dev := driver.state.dev
  match instr with
  | .create subsystem =>
    if granted then some { driver with alive := subsystem :: driver.alive, code := rest }
    else if driver.users = [] then some { driver with code := instr.failed driver.simMode }
    else none
  | .requestIrq pin =>
    if granted then some { driver with irqs := pin :: driver.irqs, code := rest }
    else some { driver with code := instr.failed driver.simMode }
  | .freeIrq pin =>
    if driver.state.idle (.irq pin.index) then
      some { driver with irqs := driver.irqs.filter (· ≠ pin), code := rest }
    else none
  | .timerDeleteSync =>
    if driver.state.idle .timer then
      some { driver with
        state := { driver.state with
          dev := { dev with state := { dev.state with timerPending := false } } }
        code := rest }
    else none
  | .cancelWorkSync =>
    if driver.state.idle .worker then
      some { driver with
        state := { driver.state with
          dev := { dev with buffer := { dev.buffer with replayPending := false } } }
        code := rest }
    else none
  | .destroyWorkqueue =>
    if driver.state.idle .worker && !dev.buffer.replayPending then
      some { driver with code := rest }
    else none
  | .kfree subsystem =>
    some { driver with alive := driver.alive.filter (· ≠ subsystem), code := rest }

/-- A process may open the device file from its creation until the teardown
begins. The kernel keeps a module whose file is open; a failing `echo_init` is
looked at, like an unload, with no process inside the driver. -/
def nextDriver (driver : Driver) : DriverAction → Option Driver
  | .base action =>
    if driver.admits action then
      (next driver.state action).map fun after => { driver with state := after }
    else none
  | .step granted =>
    match driver.code with
    | [] => none
    | instr :: rest => driver.exec granted instr rest
  | .echoExit =>
    if driver.loaded && driver.users.isEmpty then
      some { driver with code := echoExit driver.simMode }
    else none
  | .echoOpen id =>
    if decide (.chardev ∈ driver.alive) &&
        (driver.code == [] || driver.code == [.create .proc]) then
      some { driver with users := id :: driver.users }
    else none
  | .echoRelease id =>
    if driver.state.idle (.proc id) then
      some { driver with users := driver.users.filter (· ≠ id) }
    else none

def Driver.initial (servo : EchoServoCtx) (clock : Nat) : Driver :=
  ⟨State.initial servo clock, servo.simMode, [], [], [], echoInit servo.simMode⟩

def moduleSteps (count : Nat) : List DriverAction :=
  List.replicate count (.step true)

def baseSteps (tid : Tid) (count : Nat) : List DriverAction :=
  (steps tid count).map .base

/-- The subsystem whose context a step works on. -/
def Instr.uses : Instr → Option Subsystem
  | .lockHandleInput | .lockStartReplay | .lockInactivity | .lockSetMode _ => some .state
  | .lockReplayComplete | .seqlockDelay | .setLastMoveTime | .incTotalMoves => some .state
  | .resetTotalMoves | .modTimer | .timerDeleteSync | .shouldStop => some .state
  | .readMode | .readTotalMoves => some .state
  | .getServo .. | .moveServo _ | .setAngle .. | .setAngleOrReturn .. => some .servo
  | .readAngle _ => some .servo
  | .recordMove _ | .clearBuffer | .queueWork | .cancelWorkSync | .snapshot => some .buffer
  | .incReplayCount | .testSpeed _ | .divideDelay | .setReplaySpeed _ => some .buffer
  | .readCount => some .buffer
  | .readTotalReplays => some .buffer
  | .readIrqCount => some .joystick
  | _ => none

variable {driver after : Driver}

theorem nextDriver_base {action : Action} :
    nextDriver driver (.base action) = some after ↔ driver.admits action = true ∧
      ∃ state, next driver.state action = some state ∧ { driver with state := state } = after := by
  simp [nextDriver]

theorem nextDriver_step {granted : Bool} :
    nextDriver driver (.step granted) = some after ↔
      ∃ instr rest, driver.code = instr :: rest ∧ driver.exec granted instr rest = some after := by
  cases code : driver.code with
  | nil => simp [nextDriver, code]
  | cons instr rest => simp [nextDriver, code]

theorem nextDriver_echoExit :
    nextDriver driver .echoExit = some after ↔ (driver.loaded = true ∧ driver.users = []) ∧
      { driver with code := echoExit driver.simMode } = after := by
  simp [nextDriver]

theorem nextDriver_echoOpen {id : Nat} :
    nextDriver driver (.echoOpen id) = some after ↔
      (.chardev ∈ driver.alive ∧ (driver.code = [] ∨ driver.code = [.create .proc])) ∧
        { driver with users := id :: driver.users } = after := by
  simp [nextDriver]

theorem nextDriver_echoRelease {id : Nat} :
    nextDriver driver (.echoRelease id) = some after ↔ driver.state.code (.proc id) = [] ∧
      { driver with users := driver.users.filter (· ≠ id) } = after := by
  simp [nextDriver, State.idle]

/-- Loading and unloading change nothing of the running driver but the marks of the
timer and of the work item. -/
theorem nextDriver_state {action : DriverAction} (moved : nextDriver driver action = some after) :
    (∃ base, action = .base base ∧ next driver.state base = some after.state) ∨
      (after.state.thread = driver.state.thread ∧
        Frame driver.state.dev after.state.dev [.timer, .pending]) := by
  cases action with
  | base base =>
    obtain ⟨-, state, stepped, rfl⟩ := nextDriver_base.mp moved
    exact Or.inl ⟨base, rfl, stepped⟩
  | step granted =>
    obtain ⟨instr, rest, -, taken⟩ := nextDriver_step.mp moved
    right
    cases instr <;> simp only [Driver.exec] at taken
    all_goals repeat' split at taken
    all_goals first
      | contradiction
      | (cases taken; refine ⟨rfl, ?_⟩; constructor <;> simp)
  | echoExit =>
    obtain ⟨-, rfl⟩ := nextDriver_echoExit.mp moved
    right; refine ⟨rfl, ?_⟩; constructor <;> simp
  | echoOpen id =>
    obtain ⟨-, rfl⟩ := nextDriver_echoOpen.mp moved
    right; refine ⟨rfl, ?_⟩; constructor <;> simp
  | echoRelease id =>
    obtain ⟨-, rfl⟩ := nextDriver_echoRelease.mp moved
    right; refine ⟨rfl, ?_⟩; constructor <;> simp

end EchoRobot
