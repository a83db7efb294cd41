import EchoRobot.Model.Device

/-! The driver's functions as straight-line code of atomic steps. A step is one
section under a lock, one access to a shared flag, or one kernel primitive; the
callbacks of the `ops` tables are inlined as `echo_main.c` wires them. -/

namespace EchoRobot

inductive EchoQueue where
  | read | replayDone
  deriving DecidableEq, Repr

/-- One atomic step. A step named `lock` is a section under `mode_lock`. -/
inductive Instr where
  | lockHandleInput
  | lockStartReplay
  | lockInactivity
  | lockSetMode (mode : EchoMode)
  | lockReplayComplete
  | getServo (servoId : Nat) (delta : Int)
  | moveServo (servoId : Nat)
  | ktimeGet
  | seqlockDelay
  | setLastMoveTime
  | recordMove (servoId : Nat)
  | clearBuffer
  | incTotalMoves
  | resetTotalMoves
  | modTimer
  | timerDeleteSync
  | queueWork
  | cancelWorkSync
  | snapshot
  | incReplayCount
  | shouldStop
  | testSpeed (delayMs : Nat)
  | divideDelay
  | msleep
  | setAngle (servoId angle : Nat)
  | setAngleOrReturn (servoId angle : Nat)
  | setReplaySpeed (speed : Nat)
  | setNewDataAvail (value : Bool)
  | setReplayFinished (value : Bool)
  | wakeUp (queue : EchoQueue)
  | testNonblock
  | waitNewData
  | waitReplayDone
  | readMode
  | readAngle (servo : Fin echoNumServos)
  | readCount
  | readTotalMoves
  | readTotalReplays
  | readIrqCount
  | copyToUser (size : Nat)
  | ret (value : Int)
  deriving DecidableEq, Repr

abbrev Code := List Instr

def notifyReaders : Code :=
  [.setNewDataAvail true, .wakeUp .read]

def signalReplayDone : Code :=
  [.setReplayFinished true, .wakeUp .replayDone] ++ notifyReaders

def bufOpReplayDone : Code :=
  [.lockReplayComplete] ++ signalReplayDone

def stateOpStartReplay : Code := [.queueWork]

def stateOpCancelReplay : Code :=
  [.cancelWorkSync] ++ signalReplayDone

def inactivityTimerFn : Code :=
  [.lockInactivity] ++ stateOpStartReplay ++ notifyReaders

def echoStateHandleInput (servoId : Nat) (delta : Int) : Code :=
  [.lockHandleInput, .getServo servoId delta, .moveServo servoId, .ktimeGet, .seqlockDelay,
    .recordMove servoId, .incTotalMoves, .modTimer] ++ notifyReaders

def echoStateStartReplay : Code :=
  [.lockStartReplay, .timerDeleteSync] ++ stateOpStartReplay ++ notifyReaders

def echoStateStop : Code :=
  [.lockSetMode .idle, .timerDeleteSync] ++ stateOpCancelReplay ++ notifyReaders

/-- The `atomic_set` written inside the `mod_timer` call resets the counter
before the timer is armed. -/
def echoStateSetMode : EchoMode → Code
  | .replay => echoStateStartReplay
  | .idle => echoStateStop
  | .teach => [.lockSetMode .teach, .ktimeGet, .setLastMoveTime, .clearBuffer,
      .resetTotalMoves, .modTimer] ++ notifyReaders

/-- One iteration of the play loop. The speed is read twice: by the test that
guards the division, and as the divisor. -/
def replayMove (move : EchoMove) : Code :=
  [.shouldStop, .testSpeed move.delayMs, .divideDelay, .msleep,
    .setAngle move.servoId move.angle] ++ notifyReaders

/-- What the worker runs once its snapshot is taken, up to the completion. -/
def replayLoop (moves : List EchoMove) : Code :=
  .incReplayCount :: moves.flatMap replayMove

/-- The snapshot puts the play loop in front of the completion. -/
def replayWorker : Code :=
  [.snapshot] ++ bufOpReplayDone

def buildSnapshot : Code :=
  [.readMode, .readAngle echoServoPan, .readAngle echoServoTilt, .readAngle echoServoTilt2,
    .readCount, .readTotalMoves, .readTotalReplays, .readIrqCount]

def echoRead (nonblock : Bool) (count : Nat) : Code :=
  (if nonblock then [.testNonblock] else []) ++
    [.waitNewData, .setNewDataAvail false] ++ buildSnapshot ++
    [.copyToUser (min count sizeofEchoSnapshot), .ret (min count sizeofEchoSnapshot : Nat)]

/-- `copied` is what `copy_from_user` delivers. -/
def echoWrite (count : Nat) (copied : Option EchoCmd) : Code :=
  if count < sizeofEchoCmd then [.ret (-EINVAL)] else
  match copied with
  | none => [.ret (-EFAULT)]
  | some cmd =>
    if cmd.command = echoCmdTeach then echoStateSetMode .teach ++ [.ret count]
    else if cmd.command = echoCmdReplay then
      [.setReplayFinished false] ++ echoStateStartReplay ++ [.waitReplayDone, .ret count]
    else if cmd.command = echoCmdStop then echoStateStop ++ [.ret count]
    else if cmd.command = echoCmdMove then
      [.setAngleOrReturn (cmd.servoId % 256) (cmd.angle % 65536)] ++ notifyReaders ++ [.ret count]
    else [.ret (-EINVAL)]

/-- An ioctl with the argument that `copy_from_user` delivers. -/
inductive EchoIoc where
  | setSpeed (copied : Option Nat)
  | reset
  | getState
  | setMode (copied : Option Nat)
  | unknown
  deriving DecidableEq, Repr

def echoIocReset : Code :=
  echoStateStop ++ [.clearBuffer, .setAngle echoServoPan echoServoCenter,
    .setAngle echoServoTilt echoServoCenter, .setAngle echoServoTilt2 echoServoCenter] ++
    notifyReaders ++ [.ret 0]

def echoIoctl : EchoIoc → Code
  | .setSpeed none => [.ret (-EFAULT)]
  | .setSpeed (some speed) =>
    if speed = 0 then [.ret (-EINVAL)] else [.setReplaySpeed speed, .ret 0]
  | .reset => echoIocReset
  | .getState => buildSnapshot ++ [.copyToUser sizeofEchoSnapshot, .ret 0]
  | .setMode none => [.ret (-EFAULT)]
  | .setMode (some 0) => echoStateSetMode .idle ++ [.ret 0]
  | .setMode (some 1) => echoStateSetMode .teach ++ [.ret 0]
  | .setMode (some 2) => echoStateSetMode .replay ++ [.ret 0]
  | .setMode (some _) => [.ret (-EINVAL)]
  | .unknown => [.ret (-ENOTTY)]

/-- The call a pin makes through `joy_op_direction`. -/
def joyOpDirection : EchoGpio → Code
  | .up => echoStateHandleInput echoServoTilt echoAngleStep
  | .down => echoStateHandleInput echoServoTilt (-echoAngleStep)
  | .left => echoStateHandleInput echoServoPan (-echoAngleStep)
  | .right => echoStateHandleInput echoServoPan echoAngleStep

/-- What enters the driver from outside. -/
inductive Request where
  | read (nonblock : Bool) (count : Nat)
  | write (count : Nat) (copied : Option EchoCmd)
  | ioctl (ioc : EchoIoc)
  | input (pin : EchoGpio)
  deriving DecidableEq, Repr

def Request.code : Request → Code
  | .read nonblock count => echoRead nonblock count
  | .write count copied => echoWrite count copied
  | .ioctl ioc => echoIoctl ioc
  | .input pin => joyOpDirection pin

/-- The handler counts its interrupt before it reports the direction. -/
def Request.interrupts : Request → Nat
  | .input _ => 1
  | _ => 0

end EchoRobot
