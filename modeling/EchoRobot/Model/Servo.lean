import EchoRobot.Model.Types

/-! The servo subsystem: software positions and the PCA9685 register file. -/

namespace EchoRobot

def pca9685RegMode1 : Nat := 0x00
def pca9685RegPrescale : Nat := 0xFE
def pca9685RegLed0OnL : Nat := 0x06

def mode1Sleep : Nat := 0x10
def mode1Ai : Nat := 0x20
def mode1Restart : Nat := 0x80
def pca9685Prescale50Hz : Nat := 0x79

def servoTicksMin : Nat := 205
def servoTicksMax : Nat := 410
def servoTicksRange : Nat := servoTicksMax - servoTicksMin

def pca9685ChanOff (channel : Nat) : Nat := 4 * channel

/-- `regs` is the register file of the chip, addressed by a `u8`. -/
structure EchoServoCtx where
  simMode : Bool
  pos : Fin echoNumServos → Nat
  regs : Nat → Nat

/-- Return values of the byte writes of one call, in order: zero or a negative
error. -/
abbrev I2cResults := Nat → Int

/-- The address is passed as a `u8`; a failed write leaves the register. -/
def pca9685WriteByte (regs : Nat → Nat) (reg val : Nat) (result : Int) : (Nat → Nat) × Int :=
  if result < 0 then (regs, result) else (Function.update regs (reg % 256) val, result)

/-- The result is a `u16`. -/
def angleToPwm (angle : Nat) : Nat :=
  (servoTicksMin + angle * servoTicksRange / 180) % 65536

def pca9685SetPwm (regs : Nat → Nat) (channel on off : Nat) (i2c : I2cResults) :
    (Nat → Nat) × Int :=
  let base := (pca9685RegLed0OnL + pca9685ChanOff channel) % 256
  let first := pca9685WriteByte regs base (on % 256) (i2c 0)
  if first.2 < 0 then first else
  let second := pca9685WriteByte first.1 (base + 1) (on / 256 % 16) (i2c 1)
  if second.2 < 0 then second else
  let third := pca9685WriteByte second.1 (base + 2) (off % 256) (i2c 2)
  if third.2 < 0 then third else
  pca9685WriteByte third.1 (base + 3) (off / 256 % 16) (i2c 3)

def pca9685InitHw (regs : Nat → Nat) (i2c : I2cResults) : (Nat → Nat) × Int :=
  let sleep := pca9685WriteByte regs pca9685RegMode1 mode1Sleep (i2c 0)
  if sleep.2 < 0 then sleep else
  let prescale := pca9685WriteByte sleep.1 pca9685RegPrescale pca9685Prescale50Hz (i2c 1)
  if prescale.2 < 0 then prescale else
  let increment := pca9685WriteByte prescale.1 pca9685RegMode1 mode1Ai (i2c 2)
  if increment.2 < 0 then increment else
  pca9685WriteByte increment.1 pca9685RegMode1 (mode1Restart + mode1Ai) (i2c 3)

/-- What the kernel and the bus answer while the servo subsystem is created;
`client` is the error of a failed registration, else not negative. -/
structure CreateEnv where
  allocated : Bool
  adapter : Bool
  client : Int
  init : I2cResults
  pan : I2cResults
  tilt : I2cResults
  tilt2 : I2cResults

/-- The centring moves of a created servo are not checked. -/
def echoServoCreate (simMode : Bool) (regs : Nat → Nat) (env : CreateEnv) :
    Except Int EchoServoCtx :=
  if !env.allocated then .error (-ENOMEM) else
  let ctx : EchoServoCtx := ⟨simMode, fun _ => echoServoCenter, regs⟩
  if simMode then .ok ctx else
  if !env.adapter then .error (-ENODEV) else
  if env.client < 0 then .error env.client else
  let init := pca9685InitHw regs env.init
  if init.2 < 0 then .error init.2 else
  let pan := pca9685SetPwm init.1 echoServoPan.val 0 (angleToPwm echoServoCenter) env.pan
  let tilt := pca9685SetPwm pan.1 echoServoTilt.val 0 (angleToPwm echoServoCenter) env.tilt
  let tilt2 := pca9685SetPwm tilt.1 echoServoTilt2.val 0 (angleToPwm echoServoCenter) env.tilt2
  .ok { ctx with regs := tilt2.1 }

/-- Positions after a move: the servo itself, and the mirror of the base. -/
def movePos (pos : Fin echoNumServos → Nat) (servo : Fin echoNumServos) (angle : Nat) :
    Fin echoNumServos → Nat :=
  let moved := Function.update pos servo angle
  if servo = echoServoPan then Function.update moved echoServoTilt2 angle else moved

def echoServoSetAngle (ctx : EchoServoCtx) (servoId angle : Nat) (i2c : I2cResults) :
    EchoServoCtx × Int :=
  if known : servoId < echoNumServos then
    let angle := if echoServoMax < angle then echoServoMax else angle
    let ctx := { ctx with pos := movePos ctx.pos ⟨servoId, known⟩ angle }
    if ctx.simMode then (ctx, 0) else
    let pwmTicks := angleToPwm angle
    let own := pca9685SetPwm ctx.regs servoId 0 pwmTicks i2c
    if servoId = echoServoPan.val ∧ own.2 = 0 then
      let mirror := pca9685SetPwm own.1 echoServoTilt2.val 0 pwmTicks fun write => i2c (4 + write)
      ({ ctx with regs := mirror.1 }, mirror.2)
    else ({ ctx with regs := own.1 }, own.2)
  else (ctx, -EINVAL)

/-- The positions follow the call whatever the bus answers. -/
theorem pos_echoServoSetAngle (ctx : EchoServoCtx) (servo : Fin echoNumServos) {angle : Nat}
    (i2c : I2cResults) (bounded : angle ≤ echoServoMax) :
    (echoServoSetAngle ctx servo angle i2c).1.pos = movePos ctx.pos servo angle := by
  have clamp : (if echoServoMax < angle then echoServoMax else angle) = angle :=
    if_neg (by omega)
  simp only [echoServoSetAngle, servo.isLt, ↓reduceDIte, clamp, Fin.eta]
  split
  · rfl
  · split <;> rfl

theorem pca9685SetPwm_good (regs : Nat → Nat) (channel on off : Nat) :
    (pca9685SetPwm regs channel on off fun _ => 0).2 = 0 := by
  simp [pca9685SetPwm, pca9685WriteByte]

/-- On a working bus a call fails only for an unknown servo, which it leaves. -/
theorem echoServoSetAngle_good (ctx : EchoServoCtx) (servoId angle : Nat) :
    (echoServoSetAngle ctx servoId angle fun _ => 0).2 = 0 ∨
      (echoServoSetAngle ctx servoId angle fun _ => 0).1 = ctx := by
  by_cases known : servoId < echoNumServos
  · left
    simp only [echoServoSetAngle, known, ↓reduceDIte]
    generalize (if echoServoMax < angle then echoServoMax else angle) = bounded
    split
    · rfl
    · split <;> simp only [pca9685SetPwm_good]
  · right
    simp only [echoServoSetAngle, known, ↓reduceDIte]

def echoServoGetAngle (ctx : EchoServoCtx) (servoId : Nat) : Nat :=
  if known : servoId < echoNumServos then ctx.pos ⟨servoId, known⟩ else echoServoCenter

end EchoRobot
