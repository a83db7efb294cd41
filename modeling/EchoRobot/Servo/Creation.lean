import EchoRobot.Servo.Programming

/-! Creation of the servo subsystem, which centres the servos of a new chip without a
check of the answers. -/

namespace EchoRobot

open Logs

/-- The calls of `pca9685_set_pwm` that centre the servos. -/
def centringPwm (env : CreateEnv) : List PwmCall :=
  [⟨echoServoPan.val, 0, angleToPwm echoServoCenter, env.pan⟩,
    ⟨echoServoTilt.val, 0, angleToPwm echoServoCenter, env.tilt⟩,
    ⟨echoServoTilt2.val, 0, angleToPwm echoServoCenter, env.tilt2⟩]

/-- Every byte write that centres a servo is answered by zero. -/
structure CreateEnv.Centres (env : CreateEnv) : Prop where
  pan : ∀ write, env.pan write = 0
  tilt : ∀ write, env.tilt write = 0
  tilt2 : ∀ write, env.tilt2 write = 0

/-- Everything is granted, and every byte write succeeds. -/
def workingEnv : CreateEnv :=
  ⟨true, true, 0, fun _ => 0, fun _ => 0, fun _ => 0, fun _ => 0⟩

section Create
variable {simMode : Bool} {regs : Nat → Nat} {env : CreateEnv} {ctx : EchoServoCtx}

theorem create_simulated (created : echoServoCreate true regs env = .ok ctx) :
    ctx = ⟨true, fun _ => echoServoCenter, regs⟩ := by
  unfold echoServoCreate at created
  split at created
  · simp at created
  · simpa using created.symm

/-- A chip that is created has gone through the centring calls. -/
theorem create_hardware (created : echoServoCreate false regs env = .ok ctx) :
    ctx = ⟨false, fun _ => echoServoCenter,
      registers (pca9685InitHw regs env.init).1 ((centringPwm env).flatMap PwmCall.completed)⟩ := by
  have centred : ∀ held : Nat → Nat, ∀ pwm : PwmCall,
      (pca9685SetPwm held pwm.channel pwm.on pwm.off pwm.i2c).1 = registers held pwm.completed :=
    fun held pwm => by rw [pca9685SetPwm_eq]
  unfold echoServoCreate at created
  simp only [Bool.false_eq_true, ↓reduceIte] at created
  by_cases allocated : env.allocated
  swap
  · simp [allocated] at created
  by_cases adapter : env.adapter
  swap
  · simp [allocated, adapter] at created
  by_cases client : env.client < 0
  · simp [allocated, adapter, client] at created
  by_cases init : (pca9685InitHw regs env.init).2 < 0
  · simp [allocated, adapter, client, init] at created
  simp only [allocated, adapter, client, init, Bool.not_true, Bool.false_eq_true, ↓reduceIte,
    Except.ok.injEq] at created
  rw [← created]
  refine congrArg (EchoServoCtx.mk false _) ?_
  rw [centred _ ⟨_, _, _, env.pan⟩, centred _ ⟨_, _, _, env.tilt⟩, centred _ ⟨_, _, _, env.tilt2⟩]
  simp [centringPwm, registers_append]

theorem pos_created (created : echoServoCreate simMode regs env = .ok ctx) :
    ctx.simMode = simMode ∧ ctx.pos = fun _ => echoServoCenter := by
  cases simMode with
  | true => rw [create_simulated created]; exact ⟨rfl, rfl⟩
  | false => rw [create_hardware created]; exact ⟨rfl, rfl⟩

theorem mem_centringPwm {pwm : PwmCall} (member : pwm ∈ centringPwm env) :
    pwm.channel < echoNumServos ∧ pwm.on = 0 ∧ pwm.off = angleToPwm echoServoCenter := by
  simp only [centringPwm, List.mem_cons, List.not_mem_nil, or_false] at member
  rcases member with rfl | rfl | rfl
  · exact ⟨echoServoPan.isLt, rfl, rfl⟩
  · exact ⟨echoServoTilt.isLt, rfl, rfl⟩
  · exact ⟨echoServoTilt2.isLt, rfl, rfl⟩

theorem completed_centringPwm (centres : env.Centres) {pwm : PwmCall}
    (member : pwm ∈ centringPwm env) : pwm.completed = pwm.bytes := by
  refine (result_of_succeed ?_).2
  simp only [centringPwm, List.mem_cons, List.not_mem_nil, or_false] at member
  rcases member with rfl | rfl | rfl
  · exact centres.pan
  · exact centres.tilt
  · exact centres.tilt2

/-- A centring call that succeeds is for one channel. -/
theorem channelOff_centring (centres : env.Centres) {pwm : PwmCall}
    (member : pwm ∈ centringPwm env) (servo : Fin echoNumServos) :
    channelOff (registers regs pwm.completed) servo =
      if servo.val = pwm.channel then angleToPwm echoServoCenter else channelOff regs servo := by
  obtain ⟨known, on, off⟩ := mem_centringPwm member
  have small : angleToPwm echoServoCenter < 4096 := by decide
  rw [completed_centringPwm centres member]
  split
  · rename_i same
    rw [same, (channel_bytes regs pwm known (by omega) (by omega)).2, off]
  · rename_i different
    exact (channel_outside regs pwm known servo.isLt different fun _ inside => inside).2

/-- A chip that is centred holds the pulse of the centre in every channel. -/
theorem channelOff_created (created : echoServoCreate false regs env = .ok ctx)
    (centres : env.Centres) (servo : Fin echoNumServos) :
    channelOff ctx.regs servo = angleToPwm echoServoCenter := by
  rw [create_hardware created]
  simp only [centringPwm, List.flatMap_cons, List.flatMap_nil, List.append_nil, registers_append]
  rw [channelOff_centring centres (by simp [centringPwm]),
    channelOff_centring centres (by simp [centringPwm]),
    channelOff_centring centres (by simp [centringPwm])]
  rcases pan_tilt_or_tilt2 servo with rfl | rfl | rfl <;>
    simp [echoServoPan, echoServoTilt, echoServoTilt2]

end Create

end EchoRobot
