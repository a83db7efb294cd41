import EchoRobot.Model.System

/-! What the robot is to its users, each of whose calls takes effect at once: how the servos
stand, what is recorded, and who waits for what. -/

namespace EchoRobot

/-- `armed` is the inactivity timer, `queued` a replay that has not begun, and `news` and
`finished` are what a reader and the writer of a replay wait for. -/
structure Robot where
  pos : Fin echoNumServos → Nat
  mode : EchoMode
  recording : List EchoMove
  speed : Nat
  armed : Bool
  queued : Bool
  lastMove : Nat
  moves : Nat
  replays : Nat
  irqs : Nat
  news : Bool
  finished : Bool

/-- What a caller sleeps for, with the count that it is to return. -/
inductive Wait where
  | news (count : Nat)
  | replay (count : Nat)
  deriving DecidableEq

structure Caller where
  waiting : Option Wait
  answer : Option Int
  seen : Option EchoSnapshot

def Caller.back (caller : Caller) (answer : Int) : Caller :=
  { caller with waiting := none, answer := some answer }

def Caller.wait (caller : Caller) (wait : Wait) : Caller :=
  { caller with waiting := some wait, answer := none }

/-- A servo that is not there does not move. -/
def turned (pos : Fin echoNumServos → Nat) (servoId angle : Nat) : Fin echoNumServos → Nat :=
  if known : servoId < echoNumServos then movePos pos ⟨servoId, known⟩ (min angle echoServoMax)
  else pos

/-- The moves of a recording, one after the other. -/
def played (pos : Fin echoNumServos → Nat) (moves : List EchoMove) : Fin echoNumServos → Nat :=
  moves.foldl (fun pos move => turned pos move.servoId move.angle) pos

namespace Robot

def notify (robot : Robot) : Robot := { robot with news := true }

def snapshot (robot : Robot) : EchoSnapshot :=
  ⟨robot.mode.value, robot.pos echoServoPan, robot.pos echoServoTilt, robot.pos echoServoTilt2,
    robot.recording.length, robot.moves % u32Size, robot.replays % u32Size, robot.irqs % u32Size⟩

def turn (robot : Robot) (servoId angle : Nat) : Robot :=
  { robot with pos := turned robot.pos servoId angle }

/-- A new recording begins, but a replay that is queued stays queued. -/
def teach (robot : Robot) (clock : Nat) : Robot :=
  { robot with
    mode := .teach, lastMove := clock, recording := [], moves := 0, armed := true }.notify

def stop (robot : Robot) : Robot :=
  { robot with mode := .idle, armed := false, queued := false, finished := true }.notify

def start (robot : Robot) : Robot :=
  { robot with mode := .replay, armed := false, queued := true }.notify

def reset (robot : Robot) : Robot :=
  { robot.stop with recording := [], pos := fun _ => echoServoCenter }

/-- The first input after idling is timed from itself. -/
def input (robot : Robot) (clock : Nat) (servo : Fin echoNumServos) (delta : Int) : Robot :=
  if robot.mode = .replay then robot else
  let since := if robot.mode = .idle then clock else robot.lastMove
  let angle := clampAngle (robot.pos servo) delta
  { robot with
    mode := .teach
    pos := movePos robot.pos servo angle
    lastMove := clock
    recording := echoBufferRecord robot.recording
      ⟨servo, angle, toU32 (ktimeMsDelta clock since)⟩
    moves := robot.moves + 1
    armed := true }.notify

def counted (robot : Robot) : Robot := { robot with irqs := robot.irqs + 1 }

/-- The interrupt counts in any mode. -/
def inputPin (robot : Robot) (clock : Nat) : EchoGpio → Robot
  | .up => (robot.input clock echoServoTilt echoAngleStep).counted
  | .down => (robot.input clock echoServoTilt (-echoAngleStep)).counted
  | .left => (robot.input clock echoServoPan (-echoAngleStep)).counted
  | .right => (robot.input clock echoServoPan echoAngleStep).counted

/-- Silence starts a replay of what is being taught. -/
def expire (robot : Robot) : Robot :=
  if robot.mode = .teach then
    { robot with armed := false, mode := .replay, queued := true }.notify
  else { robot with armed := false }

/-- Where a replay leaves the servos. One whose mode has been changed plays nothing. -/
def endPos (robot : Robot) : Fin echoNumServos → Nat :=
  if robot.mode = .replay then played robot.pos robot.recording else robot.pos

/-- The whole replay idles the robot in any mode. -/
def perform (robot : Robot) : Robot :=
  { robot with
    pos := robot.endPos
    queued := false
    replays := robot.replays + 1
    mode := .idle
    finished := true }.notify

/-- The news are gone with the first reader that wakes up, however little it asked for. -/
def deliver (robot : Robot) (caller : Caller) (count : Nat) : Robot × Caller :=
  ({ robot with news := false },
    { (caller.back (min count sizeofEchoSnapshot : Nat)) with
      seen := some (.copied caller.seen (min count sizeofEchoSnapshot) robot.snapshot) })

def read (robot : Robot) (caller : Caller) (nonblock : Bool) (count : Nat) : Robot × Caller :=
  if robot.news then robot.deliver caller count
  else (robot, if nonblock then caller.back (-EAGAIN) else caller.wait (.news count))

/-- A replay that is refused has already taken back the end of the one before. -/
def replay (robot : Robot) (caller : Caller) (count : Nat) : Robot × Caller :=
  let robot := { robot with finished := false }
  if robot.mode = .replay then (robot, caller.back (-EBUSY))
  else (robot.start, caller.wait (.replay count))

def write (robot : Robot) (clock : Nat) (caller : Caller) (count : Nat) (copied : Option EchoCmd) :
    Robot × Caller :=
  if count < sizeofEchoCmd then (robot, caller.back (-EINVAL)) else
  match copied with
  | none => (robot, caller.back (-EFAULT))
  | some cmd =>
    if cmd.command = echoCmdTeach then (robot.teach clock, caller.back count)
    else if cmd.command = echoCmdReplay then robot.replay caller count
    else if cmd.command = echoCmdStop then (robot.stop, caller.back count)
    else if cmd.command = echoCmdMove then
      if cmd.servoId % 256 < echoNumServos then
        ((robot.turn (cmd.servoId % 256) (cmd.angle % 65536)).notify, caller.back count)
      else (robot, caller.back (-EINVAL))
    else (robot, caller.back (-EINVAL))

def ioctl (robot : Robot) (clock : Nat) (caller : Caller) : EchoIoc → Robot × Caller
  | .setSpeed none | .setMode none => (robot, caller.back (-EFAULT))
  | .setSpeed (some speed) =>
    if speed = 0 then (robot, caller.back (-EINVAL))
    else ({ robot with speed := speed }, caller.back 0)
  | .reset => (robot.reset, caller.back 0)
  | .getState => (robot, { (caller.back 0) with seen := some robot.snapshot })
  | .setMode (some 0) => (robot.stop, caller.back 0)
  | .setMode (some 1) => (robot.teach clock, caller.back 0)
  | .setMode (some 2) =>
    if robot.mode = .replay then (robot, caller.back (-EBUSY)) else (robot.start, caller.back 0)
  | .setMode (some _) => (robot, caller.back (-EINVAL))
  | .unknown => (robot, caller.back (-ENOTTY))

/-- No system call reports a direction. -/
def request (robot : Robot) (clock : Nat) (caller : Caller) : Request → Option (Robot × Caller)
  | .read nonblock count => some (robot.read caller nonblock count)
  | .write count copied => some (robot.write clock caller count copied)
  | .ioctl ioc => some (robot.ioctl clock caller ioc)
  | .input _ => none

/-- A caller whose time has come goes on. -/
def resume (robot : Robot) (caller : Caller) : Option (Robot × Caller) :=
  match caller.waiting with
  | some (.news count) => if robot.news then some (robot.deliver caller count) else none
  | some (.replay count) => if robot.finished then some (robot, caller.back count) else none
  | none => none

/-- One that still has to wait can be interrupted. -/
def interrupt (robot : Robot) (caller : Caller) : Option Caller :=
  match caller.waiting with
  | some (.news _) => if robot.news then none else some (caller.back (-ERESTARTSYS))
  | some (.replay _) => if robot.finished then none else some (caller.back (-ERESTARTSYS))
  | none => none

end Robot

/-- What happens to the robot, in the eyes of its users. -/
inductive RobotEvent where
  | request (id : Nat) (request : Request)
  | input (id : Nat) (pin : EchoGpio)
  | expire
  | perform
  | resume (id : Nat)
  | interrupt (id : Nat)
  | pass (ns : Nat)

/-- The robot with its callers. -/
structure RobotSystem where
  robot : Robot
  clock : Nat
  callers : Nat → Caller

namespace RobotSystem

/-- One caller and the robot change together. -/
def settle (system : RobotSystem) (id : Nat) (done : Robot × Caller) : RobotSystem :=
  { system with robot := done.1, callers := Function.update system.callers id done.2 }

def next (system : RobotSystem) : RobotEvent → Option RobotSystem
  | .request id request =>
    if (system.callers id).waiting = none then
      (system.robot.request system.clock (system.callers id) request).map (system.settle id)
    else none
  | .input _ pin => some { system with robot := system.robot.inputPin system.clock pin }
  | .expire =>
    if system.robot.armed then some { system with robot := system.robot.expire } else none
  | .perform =>
    if system.robot.queued then some { system with robot := system.robot.perform } else none
  | .resume id => (system.robot.resume (system.callers id)).map (system.settle id)
  | .interrupt id =>
    (system.robot.interrupt (system.callers id)).map fun caller =>
      system.settle id (system.robot, caller)
  | .pass ns => some { system with clock := system.clock + ns }

def initial (pos : Fin echoNumServos → Nat) (clock : Nat) : RobotSystem :=
  ⟨⟨pos, .idle, [], 1, false, false, 0, 0, 0, 0, false, false⟩, clock, fun _ => ⟨none, none, none⟩⟩

end RobotSystem

end EchoRobot
