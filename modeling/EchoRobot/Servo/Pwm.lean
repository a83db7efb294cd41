import EchoRobot.Model.Servo
import EchoRobot.Logs.Store

/-! A servo move as the bus sees it: the calls of `pca9685_set_pwm` that
`echo_servo_set_angle` makes, and the byte writes each of them completes. -/

namespace EchoRobot

open Logs

structure ByteWrite where
  reg : Nat
  val : Nat
  deriving DecidableEq, Repr

/-- A byte write puts its value into its register. -/
def ByteWrite.writes (write : ByteWrite) (reg : Nat) : Option Nat :=
  if reg = write.reg then some write.val else none

abbrev registers (regs : Nat → Nat) (log : List ByteWrite) : Nat → Nat :=
  replay ByteWrite.writes regs log

section WriteByte
variable {regs : Nat → Nat} {reg val : Nat} {result : Int}

@[simp] theorem snd_pca9685WriteByte : (pca9685WriteByte regs reg val result).2 = result := by
  unfold pca9685WriteByte
  split <;> rfl

theorem pca9685WriteByte_failed (failed : result < 0) :
    (pca9685WriteByte regs reg val result).1 = regs := by
  rw [pca9685WriteByte, if_pos failed]

theorem pca9685WriteByte_done (done : ¬ result < 0) :
    (pca9685WriteByte regs reg val result).1 =
      apply ByteWrite.writes regs ⟨reg % 256, val⟩ := by
  rw [pca9685WriteByte, if_neg done]
  funext other
  by_cases same : other = reg % 256
  · simp [apply, ByteWrite.writes, same]
  · simp [apply, ByteWrite.writes, same]

end WriteByte

theorem registers_append (regs : Nat → Nat) (first second : List ByteWrite) :
    registers regs (first ++ second) = registers (registers regs first) second :=
  replay_append first second

/-- The first register of a channel. -/
def channelBase (channel : Nat) : Nat := (pca9685RegLed0OnL + pca9685ChanOff channel) % 256

/-- A call of `pca9685_set_pwm` and the answers to its byte writes. -/
structure PwmCall where
  channel : Nat
  on : Nat
  off : Nat
  i2c : I2cResults

/-- The byte writes of a call, in order. -/
def PwmCall.bytes (call : PwmCall) : List ByteWrite :=
  [⟨channelBase call.channel % 256, call.on % 256⟩,
    ⟨(channelBase call.channel + 1) % 256, call.on / 256 % 16⟩,
    ⟨(channelBase call.channel + 2) % 256, call.off % 256⟩,
    ⟨(channelBase call.channel + 3) % 256, call.off / 256 % 16⟩]

def PwmCall.completed (call : PwmCall) : List ByteWrite := Logs.completed call.i2c call.bytes

def PwmCall.result (call : PwmCall) : Int := answer call.i2c call.bytes

/-- The chip ends up with the completed writes, and the caller with the last answer. -/
theorem pca9685SetPwm_eq (regs : Nat → Nat) (call : PwmCall) :
    pca9685SetPwm regs call.channel call.on call.off call.i2c =
      (registers regs call.completed, call.result) := by
  unfold pca9685SetPwm PwmCall.completed PwmCall.result PwmCall.bytes
  simp only [snd_pca9685WriteByte, completed, answer]
  by_cases first : call.i2c 0 < 0
  · ext <;> simp [first, pca9685WriteByte_failed]
  by_cases second : call.i2c 1 < 0
  · ext <;> simp [first, second, pca9685WriteByte_failed, pca9685WriteByte_done, channelBase]
  by_cases third : call.i2c 2 < 0
  · ext <;> simp [first, second, third, pca9685WriteByte_failed, pca9685WriteByte_done, channelBase]
  by_cases fourth : call.i2c 3 < 0 <;>
    ext <;> simp [first, second, third, fourth, pca9685WriteByte_failed, pca9685WriteByte_done,
      channelBase]

/-- A call of `echo_servo_set_angle` and the answers to its byte writes. -/
structure ServoCall where
  servoId : Nat
  angle : Nat
  i2c : I2cResults

def ServoCall.run (call : ServoCall) (ctx : EchoServoCtx) : EchoServoCtx × Int :=
  echoServoSetAngle ctx call.servoId call.angle call.i2c

/-- The angle that a call asks for, within the range of the servos. -/
def ServoCall.target (call : ServoCall) : Nat := min call.angle echoServoMax

def ServoCall.ownPwm (call : ServoCall) : PwmCall :=
  ⟨call.servoId, 0, angleToPwm call.target, call.i2c⟩

def ServoCall.mirrorPwm (call : ServoCall) : PwmCall :=
  ⟨echoServoTilt2.val, 0, angleToPwm call.target, fun write => call.i2c (4 + write)⟩

/-- The calls of `pca9685_set_pwm`: the servo's own channel, and that of the mirror
once the base is programmed. -/
def ServoCall.pwm (call : ServoCall) (simMode : Bool) : List PwmCall :=
  if call.servoId < echoNumServos ∧ simMode = false then
    if call.servoId = echoServoPan.val ∧ call.ownPwm.result = 0 then
      [call.ownPwm, call.mirrorPwm]
    else [call.ownPwm]
  else []

def ServoCall.bytes (call : ServoCall) (simMode : Bool) : List ByteWrite :=
  (call.pwm simMode).flatMap PwmCall.completed

section Run
variable {call : ServoCall} {ctx : EchoServoCtx}

theorem clamp_eq_target :
    (if echoServoMax < call.angle then echoServoMax else call.angle) = call.target := by
  unfold ServoCall.target
  split <;> omega

theorem run_unknown (unknown : echoNumServos ≤ call.servoId) : call.run ctx = (ctx, -EINVAL) := by
  unfold ServoCall.run echoServoSetAngle
  rw [dif_neg (by omega)]

/-- What a call does to a known servo, by way of its `pca9685_set_pwm` calls. -/
theorem run_known (known : call.servoId < echoNumServos) :
    call.run ctx =
      ({ ctx with
          pos := movePos ctx.pos ⟨call.servoId, known⟩ call.target
          regs := registers ctx.regs (call.bytes ctx.simMode) },
        ((call.pwm ctx.simMode).getLast?.map PwmCall.result).getD 0) := by
  have own : pca9685SetPwm ctx.regs call.servoId 0 (angleToPwm call.target) call.i2c =
      (registers ctx.regs call.ownPwm.completed, call.ownPwm.result) :=
    pca9685SetPwm_eq ctx.regs call.ownPwm
  have mirror := pca9685SetPwm_eq (registers ctx.regs call.ownPwm.completed) call.mirrorPwm
  simp only [ServoCall.mirrorPwm] at mirror
  unfold ServoCall.run echoServoSetAngle ServoCall.bytes ServoCall.pwm
  rw [dif_pos known]
  simp only [clamp_eq_target]
  cases simulated : ctx.simMode with
  | true => simp
  | false =>
    simp only [Bool.false_eq_true, ↓reduceIte, known, and_self, own]
    by_cases base : call.servoId = echoServoPan.val ∧ call.ownPwm.result = 0
    · simp [base, mirror, ServoCall.mirrorPwm, replay_append]
    · simp only [base, ↓reduceIte]
      simp

theorem simMode_run : (call.run ctx).1.simMode = ctx.simMode := by
  by_cases known : call.servoId < echoNumServos
  · rw [run_known known]
  · rw [run_unknown (by omega)]

theorem pos_run (known : call.servoId < echoNumServos) :
    (call.run ctx).1.pos = movePos ctx.pos ⟨call.servoId, known⟩ call.target := by
  rw [run_known known]

theorem regs_run : (call.run ctx).1.regs = registers ctx.regs (call.bytes ctx.simMode) := by
  by_cases known : call.servoId < echoNumServos
  · rw [run_known known]
  · rw [run_unknown (by omega), ServoCall.bytes, ServoCall.pwm, if_neg (fun both => known both.1)]
    rfl

end Run

/-- The context after the calls in order. -/
def setAngles (ctx : EchoServoCtx) (calls : List ServoCall) : EchoServoCtx :=
  calls.foldl (fun ctx call => (call.run ctx).1) ctx

/-- The pulse of every angle that a call can ask for. -/
theorem angleToPwm_target {angle : Nat} (bounded : angle ≤ echoServoMax) :
    angleToPwm angle = servoTicksMin + angle * servoTicksRange / 180 := by
  unfold angleToPwm servoTicksRange servoTicksMax servoTicksMin echoServoMax at *
  omega

theorem angleToPwm_bounds {angle : Nat} (bounded : angle ≤ echoServoMax) :
    servoTicksMin ≤ angleToPwm angle ∧ angleToPwm angle ≤ servoTicksMax := by
  rw [angleToPwm_target bounded]
  unfold servoTicksRange servoTicksMax servoTicksMin echoServoMax at *
  omega

/-- Every call of `pca9685_set_pwm` is for a servo, with its pulse in range. -/
theorem mem_pwm {call : ServoCall} {simMode : Bool} {pwm : PwmCall}
    (member : pwm ∈ call.pwm simMode) :
    pwm.channel < echoNumServos ∧ pwm.on = 0 ∧ pwm.off = angleToPwm call.target := by
  unfold ServoCall.pwm at member
  split at member
  · rename_i known
    split at member
    · rcases List.mem_cons.mp member with rfl | mirror
      · exact ⟨known.1, rfl, rfl⟩
      · obtain rfl := List.mem_singleton.mp mirror
        exact ⟨echoServoTilt2.isLt, rfl, rfl⟩
    · obtain rfl := List.mem_singleton.mp member
      exact ⟨known.1, rfl, rfl⟩
  · simp at member

end EchoRobot
