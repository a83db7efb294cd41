import EchoRobot.Texts.Template
import EchoRobot.Interleaving.Sampling
import EchoRobot.Lifecycle.WellFormed

/-! `/proc/echo_stats`: the report is gathered value by value while the driver goes on,
and printed as text. -/

namespace EchoRobot

open Interleaving Texts

/-- The driver with the files that have its device open; `openCount` is kept under
`open_lock`. -/
structure DeviceFile where
  state : State
  files : List Nat
  openCount : Int

def DeviceFile.initial (servo : EchoServoCtx) (clock : Nat) : DeviceFile :=
  ⟨State.initial servo clock, [], 0⟩

/-- A counter as the C code has it, in 32 bits with a sign. -/
def toInt (value : Int) : Int := value.bmod u32Size

/-- What a report says. -/
structure EchoStats where
  mode : EchoMode
  panAngle : Nat
  tiltAngle : Nat
  tilt2Angle : Nat
  bufCount : Nat
  totalMoves : Int
  totalReplays : Int
  irqCount : Int
  openCnt : Int
  simMode : Bool
  timeoutMs : Nat
  deriving DecidableEq, Repr

/-- The report whose values are those of the nine moments. -/
def EchoStats.gathered (simMode : Bool) (timeoutMs : Nat) : List DeviceFile → Option EchoStats
  | [mode, pan, tilt, tilt2, count, moves, replays, irqs, opened] =>
    some ⟨mode.state.dev.state.mode, echoServoGetAngle pan.state.dev.servo echoServoPan,
      echoServoGetAngle tilt.state.dev.servo echoServoTilt,
      echoServoGetAngle tilt2.state.dev.servo echoServoTilt2,
      count.state.dev.buffer.moveFifo.length, toInt moves.state.dev.state.totalMoves,
      toInt replays.state.dev.buffer.replayCount, toInt irqs.state.dev.irqCount,
      toInt opened.openCount, simMode, timeoutMs⟩
  | _ => none

section Template
variable {pieces : List (Piece Value)}

end Template

section Device
variable {device after : DeviceFile} {action : FileAction}

end Device

section Run
variable {servo : EchoServoCtx} {clock timeoutMs : Nat} {history : List FileAction}
  {before after device : DeviceFile} {actions : List (Option FileAction)} {seen : List Value}

end Run

end EchoRobot
