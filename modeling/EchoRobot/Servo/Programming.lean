import Mathlib.Order.Fin.Basic
import EchoRobot.Servo.Pwm

/-! What a servo move leaves in the registers of the chip, and its agreement with a
simulated move. -/

namespace EchoRobot

open Logs

/-- The four registers of a channel: `ON_L`, `ON_H`, `OFF_L`, `OFF_H`. -/
def channelRegs (channel : Nat) : List Nat :=
  [channelBase channel, channelBase channel + 1, channelBase channel + 2, channelBase channel + 3]

/-- The 12-bit value of two registers. -/
def ticks (low high : Nat) : Nat := low % 256 + 256 * (high % 16)

def channelOn (regs : Nat → Nat) (channel : Nat) : Nat :=
  ticks (regs (channelBase channel)) (regs (channelBase channel + 1))

def channelOff (regs : Nat → Nat) (channel : Nat) : Nat :=
  ticks (regs (channelBase channel + 2)) (regs (channelBase channel + 3))

/-- The servos that a move of one servo moves. -/
def movedServos (servo : Fin echoNumServos) : List (Fin echoNumServos) :=
  if servo = echoServoPan then [echoServoPan, echoServoTilt2] else [servo]

theorem channelBase_eq {channel : Nat} (known : channel < echoNumServos) :
    channelBase channel = 6 + 4 * channel := by
  unfold channelBase pca9685RegLed0OnL pca9685ChanOff
  unfold echoNumServos at known
  omega

theorem ticks_split {value : Nat} (small : value < 4096) :
    ticks (value % 256) (value / 256 % 16) = value := by
  unfold ticks
  omega

section Channel
variable (regs : Nat → Nat) (pwm : PwmCall) {channel : Nat}

theorem mem_channelRegs (known : pwm.channel < echoNumServos) {write : ByteWrite}
    (member : write ∈ pwm.bytes) : write.reg ∈ channelRegs pwm.channel := by
  have base := channelBase_eq known
  have small : channelBase pwm.channel + 3 < 256 := by
    unfold echoNumServos at known
    omega
  simp only [PwmCall.bytes, List.mem_cons, List.not_mem_nil, or_false] at member
  simp only [channelRegs, List.mem_cons, List.not_mem_nil, or_false]
  rcases member with rfl | rfl | rfl | rfl <;> simp only <;> omega

/-- A call of `pca9685_set_pwm` leaves the registers of the other channels. -/
theorem registers_outside (known : pwm.channel < echoNumServos) {log : List ByteWrite} {reg : Nat}
    (inside : ∀ write ∈ log, write ∈ pwm.bytes) (outside : reg ∉ channelRegs pwm.channel) :
    registers regs log reg = regs reg := by
  apply replay_untouched
  intro write member
  refine if_neg ?_
  rintro rfl
  exact outside (mem_channelRegs pwm known (inside write member))

theorem channelRegs_disjoint (known : pwm.channel < echoNumServos) (other : channel < echoNumServos)
    (different : channel ≠ pwm.channel) {reg : Nat} (member : reg ∈ channelRegs channel) :
    reg ∉ channelRegs pwm.channel := by
  simp only [channelRegs, List.mem_cons, List.not_mem_nil, or_false, channelBase_eq known,
    channelBase_eq other] at member ⊢
  omega

/-- Both values of a channel are left by writes to another one. -/
theorem channel_outside (known : pwm.channel < echoNumServos) (other : channel < echoNumServos)
    (different : channel ≠ pwm.channel) {log : List ByteWrite}
    (inside : ∀ write ∈ log, write ∈ pwm.bytes) :
    channelOn (registers regs log) channel = channelOn regs channel ∧
      channelOff (registers regs log) channel = channelOff regs channel := by
  have kept : ∀ reg ∈ channelRegs channel, registers regs log reg = regs reg := fun reg member =>
    registers_outside regs pwm known inside
      (channelRegs_disjoint pwm known other different member)
  unfold channelOn channelOff
  constructor <;> rw [kept _ (by simp [channelRegs]), kept _ (by simp [channelRegs])]

/-- All four writes program the channel. -/
theorem channel_bytes (known : pwm.channel < echoNumServos) (on : pwm.on < 4096)
    (off : pwm.off < 4096) :
    channelOn (registers regs pwm.bytes) pwm.channel = pwm.on ∧
      channelOff (registers regs pwm.bytes) pwm.channel = pwm.off := by
  have base := channelBase_eq known
  have small : channelBase pwm.channel + 3 < 256 := by
    unfold echoNumServos at known
    omega
  have address : ∀ offset ≤ 3, (channelBase pwm.channel + offset) % 256 =
      channelBase pwm.channel + offset := fun offset inside => Nat.mod_eq_of_lt (by omega)
  have first := address 0 (by omega)
  rw [Nat.add_zero] at first
  unfold channelOn channelOff PwmCall.bytes
  simp only [replay_cons, replay_nil, apply, ByteWrite.writes, first, address 1 (by omega),
    address 2 (by omega), address 3 (by omega)]
  constructor
  · simpa using ticks_split on
  · simpa using ticks_split off

end Channel

theorem movePos_apply (pos : Fin echoNumServos → Nat) (servo other : Fin echoNumServos)
    (angle : Nat) :
    movePos pos servo angle other = if other ∈ movedServos servo then angle else pos other := by
  unfold movePos movedServos
  by_cases base : servo = echoServoPan
  · subst base
    rcases pan_tilt_or_tilt2 other with rfl | rfl | rfl <;> rfl
  · rw [if_neg base, if_neg base]
    by_cases same : other = servo
    · subst same
      simp
    · simp [same]

/-- A move that reports success, `after` being the context and the return value. -/
structure ProgramsExactly (call : ServoCall) (before : EchoServoCtx) (servo : Fin echoNumServos)
    (after : EchoServoCtx × Int) : Prop where
  result : after.2 = 0
  moved : ∀ other ∈ movedServos servo, after.1.pos other = min call.angle 180
  still : ∀ other, other ∉ movedServos servo → after.1.pos other = before.pos other
  programmed : before.simMode = false → ∀ other ∈ movedServos servo,
    channelOn after.1.regs other = 0 ∧
      channelOff after.1.regs other = 205 + min call.angle 180 * 205 / 180
  frame : ∀ reg, (∀ other ∈ movedServos servo, reg ∉ channelRegs other) →
    after.1.regs reg = before.regs reg

section Succeed
variable {call : ServoCall} {ctx : EchoServoCtx}

theorem result_of_succeed {pwm : PwmCall} (succeed : ∀ write, pwm.i2c write = 0) :
    pwm.result = 0 ∧ pwm.completed = pwm.bytes := by
  constructor
  · simp [PwmCall.result, PwmCall.bytes, answer, succeed]
  · exact completed_all fun write _ => by simp [succeed]

/-- On a working bus the base brings its mirror along. -/
theorem pwm_of_succeed (succeed : ∀ write, call.i2c write = 0)
    (known : call.servoId < echoNumServos) :
    call.pwm false = call.ownPwm ::
      if call.servoId = echoServoPan.val then [call.mirrorPwm] else [] := by
  have own : call.ownPwm.result = 0 := (result_of_succeed succeed).1
  unfold ServoCall.pwm
  rw [if_pos ⟨known, rfl⟩]
  simp only [own, and_true]
  split <;> rfl

theorem bytes_of_succeed (succeed : ∀ write, call.i2c write = 0)
    (known : call.servoId < echoNumServos) :
    call.bytes false = call.ownPwm.bytes ++
      if call.servoId = echoServoPan.val then call.mirrorPwm.bytes else [] := by
  have own : call.ownPwm.completed = call.ownPwm.bytes := (result_of_succeed succeed).2
  have mirror : call.mirrorPwm.completed = call.mirrorPwm.bytes :=
    (result_of_succeed fun write => succeed (4 + write)).2
  rw [ServoCall.bytes, pwm_of_succeed succeed known]
  split <;> simp [own, mirror]

theorem result_run_of_succeed (succeed : ∀ write, call.i2c write = 0)
    (known : call.servoId < echoNumServos) : (call.run ctx).2 = 0 := by
  have own : call.ownPwm.result = 0 := (result_of_succeed succeed).1
  have mirror : call.mirrorPwm.result = 0 := (result_of_succeed fun write => succeed (4 + write)).1
  rw [run_known known]
  cases simulated : ctx.simMode with
  | true => simp [ServoCall.pwm]
  | false =>
    rw [pwm_of_succeed succeed known]
    split <;> simp [own, mirror]

theorem target_lt : angleToPwm call.target < 4096 := by
  have bounds := angleToPwm_bounds (Nat.min_le_right call.angle echoServoMax)
  unfold servoTicksMax at bounds
  exact Nat.lt_of_le_of_lt bounds.2 (by omega)

/-- The servo's own channel and, for the base, the mirror's are programmed. -/
theorem channels_of_succeed (succeed : ∀ write, call.i2c write = 0)
    (known : call.servoId < echoNumServos) {regs : Nat → Nat} {other : Fin echoNumServos}
    (member : other ∈ movedServos ⟨call.servoId, known⟩) :
    channelOn (registers regs (call.bytes false)) other = 0 ∧
      channelOff (registers regs (call.bytes false)) other = angleToPwm call.target := by
  have own := channel_bytes regs call.ownPwm known (Nat.zero_lt_succ _) target_lt
  have mirror := channel_bytes (registers regs call.ownPwm.bytes) call.mirrorPwm
    echoServoTilt2.isLt (Nat.zero_lt_succ _) target_lt
  rw [bytes_of_succeed succeed known, registers_append]
  by_cases base : call.servoId = echoServoPan.val
  · rw [if_pos base]
    have listed : other = echoServoPan ∨ other = echoServoTilt2 := by
      simpa [movedServos, Fin.ext_iff, base] using member
    rcases listed with rfl | rfl
    · have kept := channel_outside (registers regs call.ownPwm.bytes) call.mirrorPwm
        echoServoTilt2.isLt echoServoPan.isLt
        (show echoServoPan.val ≠ echoServoTilt2.val by decide) fun write inside => inside
      rw [kept.1, kept.2, ← base]
      exact own
    · exact mirror
  · rw [if_neg base]
    have same : other.val = call.servoId := by
      simpa [movedServos, Fin.ext_iff, show call.servoId ≠ echoServoPan.val from base] using member
    rw [same]
    exact own

theorem frame_of_succeed (succeed : ∀ write, call.i2c write = 0)
    (known : call.servoId < echoNumServos) {regs : Nat → Nat} {reg : Nat}
    (outside : ∀ other ∈ movedServos ⟨call.servoId, known⟩, reg ∉ channelRegs other) :
    registers regs (call.bytes false) reg = regs reg := by
  have own : reg ∉ channelRegs call.servoId := by
    refine outside ⟨call.servoId, known⟩ ?_
    unfold movedServos
    split <;> simp [*]
  rw [bytes_of_succeed succeed known, registers_append]
  split
  · rename_i base
    have mirror : reg ∉ channelRegs echoServoTilt2.val :=
      outside echoServoTilt2 (by simp [movedServos, Fin.ext_iff, base])
    rw [registers_outside _ call.mirrorPwm echoServoTilt2.isLt (fun _ inside => inside) mirror]
    exact registers_outside regs call.ownPwm known (fun _ inside => inside) own
  · exact registers_outside regs call.ownPwm known (fun _ inside => inside) own

theorem programsExactly (succeed : ∀ write, call.i2c write = 0)
    (known : call.servoId < echoNumServos) :
    ProgramsExactly call ctx ⟨call.servoId, known⟩ (call.run ctx) := by
  refine ⟨result_run_of_succeed succeed known, fun other member => ?_, fun other still => ?_,
    ?_, ?_⟩
  · rw [pos_run known, movePos_apply, if_pos member]
    rfl
  · rw [pos_run known, movePos_apply, if_neg still]
  · intro hardware other member
    rw [regs_run, hardware]
    refine ⟨(channels_of_succeed succeed known member).1, ?_⟩
    exact (channels_of_succeed succeed known member).2.trans
      (angleToPwm_target (Nat.min_le_right call.angle echoServoMax))
  · intro reg outside
    rw [regs_run]
    cases simulated : ctx.simMode with
    | true => simp [ServoCall.bytes, ServoCall.pwm]
    | false => exact frame_of_succeed succeed known outside

end Succeed

/-- What the calls in order return, and the positions after each of them. -/
def outcomes (ctx : EchoServoCtx) : List ServoCall → List (Int × (Fin echoNumServos → Nat))
  | [] => []
  | call :: rest =>
    ((call.run ctx).2, (call.run ctx).1.pos) :: outcomes (call.run ctx).1 rest

/-- On a working bus neither the return value nor the positions show the mode. -/
theorem outcomes_of_succeed {first second : EchoServoCtx} (calls : List ServoCall)
    (succeed : ∀ call ∈ calls, ∀ write, call.i2c write = 0) (same : first.pos = second.pos) :
    outcomes first calls = outcomes second calls := by
  induction calls generalizing first second with
  | nil => rfl
  | cons call rest ih =>
    have own := succeed call (by simp)
    have step : (call.run first).2 = (call.run second).2 ∧
        (call.run first).1.pos = (call.run second).1.pos := by
      by_cases known : call.servoId < echoNumServos
      · rw [result_run_of_succeed own known, result_run_of_succeed own known, pos_run known,
          pos_run known, same]
        exact ⟨rfl, rfl⟩
      · rw [run_unknown (by omega), run_unknown (by omega)]
        exact ⟨rfl, same⟩
    unfold outcomes
    rw [step.1, step.2, ih (fun other member => succeed other (by simp [member])) step.2]

/-- On a working bus a move of a known servo programs exactly its channels, a move
of an unknown one does nothing, and simulation agrees with the hardware. -/
theorem set_angle_exact :
    (∀ (ctx : EchoServoCtx) (call : ServoCall), (∀ write, call.i2c write = 0) →
      (∀ known : call.servoId < echoNumServos,
        ProgramsExactly call ctx ⟨call.servoId, known⟩ (call.run ctx)) ∧
      (echoNumServos ≤ call.servoId →
        call.run ctx = (ctx, -EINVAL) ∧ call.bytes ctx.simMode = [])) ∧
    ∀ (hardware simulated : EchoServoCtx) (calls : List ServoCall),
      hardware.simMode = false → simulated.simMode = true → hardware.pos = simulated.pos →
      (∀ call ∈ calls, ∀ write, call.i2c write = 0) →
      outcomes simulated calls = outcomes hardware calls := by
  refine ⟨fun ctx call succeed => ⟨programsExactly succeed, fun unknown => ?_⟩, ?_⟩
  · refine ⟨run_unknown unknown, ?_⟩
    rw [ServoCall.bytes, ServoCall.pwm, if_neg (fun both => by omega)]
    rfl
  · intro hardware simulated calls _ _ same succeed
    exact outcomes_of_succeed calls succeed same.symm

/-- A base move to 45, whose pulse has a zero low byte, and the same in simulation. -/
theorem set_angle_exact_base :
    ((ServoCall.mk 0 45 fun _ => 0).run ⟨false, fun _ => 90, fun _ => 0⟩).1.pos echoServoTilt2 =
        45 ∧
      channelOff ((ServoCall.mk 0 45 fun _ => 0).run ⟨false, fun _ => 90, fun _ => 0⟩).1.regs 2 =
        256 ∧
      outcomes ⟨true, fun _ => 90, fun _ => 0⟩ [⟨0, 45, fun _ => 0⟩] =
        outcomes ⟨false, fun _ => 90, fun _ => 0⟩ [⟨0, 45, fun _ => 0⟩] := by
  have programs := (set_angle_exact.1 ⟨false, fun _ => 90, fun _ => 0⟩ ⟨0, 45, fun _ => 0⟩
    fun _ => rfl).1 (by decide)
  refine ⟨programs.moved echoServoTilt2 (by decide),
    (programs.programmed rfl echoServoTilt2 (by decide)).2, ?_⟩
  exact set_angle_exact.2 _ _ _ rfl rfl rfl (by simp)

end EchoRobot
