import Mathlib.Algebra.Order.Ring.Nat
import Mathlib.Data.Fin.Basic
import Mathlib.Logic.Function.Basic

/-! Constants, modes, moves and the user-visible structures of the driver. -/

namespace EchoRobot

def echoFifoSize : Nat := 256

abbrev echoNumServos : Nat := 3
def echoServoPan : Fin echoNumServos := 0
def echoServoTilt : Fin echoNumServos := 1
def echoServoTilt2 : Fin echoNumServos := 2

theorem pan_tilt_or_tilt2 (servo : Fin echoNumServos) :
    servo = echoServoPan ∨ servo = echoServoTilt ∨ servo = echoServoTilt2 := by
  decide +revert

def echoServoCenter : Nat := 90
def echoServoMin : Nat := 0
def echoServoMax : Nat := 180

def echoAngleStep : Nat := 5

/-- The number of values of a `u32`. -/
def u32Size : Nat := 4294967296

def EAGAIN : Int := 11
def ENOMEM : Int := 12
def EFAULT : Int := 14
def EBUSY : Int := 16
def ENODEV : Int := 19
def EINVAL : Int := 22
def ENOTTY : Int := 25
def ERESTARTSYS : Int := 512

inductive EchoMode where
  | idle | teach | replay
  deriving DecidableEq, Repr

def EchoMode.value : EchoMode → Nat
  | .idle => 0
  | .teach => 1
  | .replay => 2

/-- A recorded movement: `u8` servo, `u16` angle, `u32` milliseconds. -/
structure EchoMove where
  servoId : Nat
  angle : Nat
  delayMs : Nat
  deriving DecidableEq, Repr

/-- The four directions of the joystick, in the order of the GPIO indices. -/
inductive EchoGpio where
  | up | down | left | right
  deriving DecidableEq, Repr

/-- The command of a `write`, all fields `u32`. -/
structure EchoCmd where
  command : Nat
  servoId : Nat
  angle : Nat
  speed : Nat
  deriving DecidableEq, Repr

def echoCmdTeach : Nat := 1
def echoCmdReplay : Nat := 2
def echoCmdStop : Nat := 3
def echoCmdMove : Nat := 4

def sizeofEchoCmd : Nat := 16

structure EchoSnapshot where
  mode : Nat
  panAngle : Nat
  tiltAngle : Nat
  tilt2Angle : Nat
  bufferCount : Nat
  totalMoves : Nat
  totalReplays : Nat
  irqCount : Nat
  deriving DecidableEq, Repr

/-- Two bytes of alignment padding follow the three `u16` angles. -/
def sizeofEchoSnapshot : Nat := 28

/-- A number of `width` bytes at `offset`, when the first `size` bytes of a structure have
been copied over it: `held` before, `new` in the copy, lowest byte first. -/
def overlay (size offset width held new : Nat) : Nat :=
  if offset + width ≤ size then new
  else if size ≤ offset then held
  else new % 256 ^ (size - offset) + 256 ^ (size - offset) * (held / 256 ^ (size - offset))

/-- What a buffer that holds `held` holds when the first `size` bytes of `snap` have been
copied to it. -/
def EchoSnapshot.over (held : EchoSnapshot) (size : Nat) (snap : EchoSnapshot) : EchoSnapshot where
  mode := overlay size 0 4 held.mode snap.mode
  panAngle := overlay size 4 2 held.panAngle snap.panAngle
  tiltAngle := overlay size 6 2 held.tiltAngle snap.tiltAngle
  tilt2Angle := overlay size 8 2 held.tilt2Angle snap.tilt2Angle
  bufferCount := overlay size 12 4 held.bufferCount snap.bufferCount
  totalMoves := overlay size 16 4 held.totalMoves snap.totalMoves
  totalReplays := overlay size 20 4 held.totalReplays snap.totalReplays
  irqCount := overlay size 24 4 held.irqCount snap.irqCount

theorem EchoSnapshot.over_whole (held snap : EchoSnapshot) {size : Nat}
    (whole : sizeofEchoSnapshot ≤ size) : held.over size snap = snap := by
  unfold sizeofEchoSnapshot at whole
  have all : ∀ offset width old new, offset + width ≤ 28 →
      overlay size offset width old new = new := by
    intro offset width old new inside
    exact if_pos (Nat.le_trans inside whole)
  simp [EchoSnapshot.over, all]

def EchoSnapshot.zero : EchoSnapshot := ⟨0, 0, 0, 0, 0, 0, 0, 0⟩

/-- What a caller's buffer holds after a copy; a fresh one counts as zero. -/
def EchoSnapshot.copied (held : Option EchoSnapshot) (size : Nat) (snap : EchoSnapshot) :
    EchoSnapshot :=
  (held.getD .zero).over size snap

@[simp] theorem EchoSnapshot.copied_whole (held : Option EchoSnapshot) (snap : EchoSnapshot) :
    EchoSnapshot.copied held sizeofEchoSnapshot snap = snap :=
  EchoSnapshot.over_whole _ _ (Nat.le_refl _)

end EchoRobot
