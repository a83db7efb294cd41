import EchoRobot.Servo.Creation
import EchoRobot.Servo.Failure

/-! The pulses on the outputs while a move is under way. The two bytes of `OFF` are
written by separate transactions, so a channel holds for a while, and for good if the
bus fails, a mix of the old pulse and the new one. -/

namespace EchoRobot

open Logs

/-- Every servo has a pulse between the one for the smallest and the one for the
greatest angle. -/
def PulsesInRange (regs : Nat → Nat) : Prop :=
  ∀ servo : Fin echoNumServos,
    servoTicksMin ≤ channelOff regs servo ∧ channelOff regs servo ≤ servoTicksMax

/-- The byte writes of the calls that reach the chip. -/
def byteWrites (simMode : Bool) (calls : List ServoCall) : List ByteWrite :=
  calls.flatMap (·.bytes simMode)

/-- How many byte writes of a call come up to the low byte of `OFF` of a servo. -/
def ServoCall.reach (call : ServoCall) (servo : Fin echoNumServos) : Nat :=
  if servo.val = call.servoId then 3 else 7

/-- Where a call gets as far as the low byte of a channel, the channel holds a pulse
with the high byte of the new one. -/
def KeepsHigh (ctx : EchoServoCtx) (call : ServoCall) : Prop :=
  ∀ known : call.servoId < echoNumServos, ∀ other ∈ movedServos ⟨call.servoId, known⟩,
    (∀ write < call.reach other, 0 ≤ call.i2c write) →
      channelOff ctx.regs other / 256 = angleToPwm call.target / 256

section Channel
variable (regs : Nat → Nat) (pwm : PwmCall)

/-- What the channel holds while it is programmed. -/
theorem channelOff_take (known : pwm.channel < echoNumServos) (off : pwm.off < 4096)
    (count : Nat) :
    channelOff (registers regs (pwm.bytes.take count)) pwm.channel =
      if count ≤ 2 then channelOff regs pwm.channel
      else if count = 3 then pwm.off % 256 + 256 * (channelOff regs pwm.channel / 256)
      else pwm.off := by
  have base := channelBase_eq known
  have small : channelBase pwm.channel + 3 < 256 := by
    unfold echoNumServos at known
    omega
  have address : ∀ offset ≤ 3, (channelBase pwm.channel + offset) % 256 =
      channelBase pwm.channel + offset := fun offset inside => Nat.mod_eq_of_lt (by omega)
  have first := address 0 (by omega)
  rw [Nat.add_zero] at first
  unfold channelOff PwmCall.bytes ticks
  match count with
  | 0 => simp
  | 1 => simp [apply, ByteWrite.writes, first]
  | 2 => simp [apply, ByteWrite.writes, first, address 1 (by omega)]
  | 3 =>
    simp [apply, ByteWrite.writes, first, address 1 (by omega), address 2 (by omega)]
    omega
  | count + 4 =>
    simp [apply, ByteWrite.writes, first, address 1 (by omega), address 2 (by omega),
      address 3 (by omega)]
    omega

/-- Writes to one channel leave the pulses in range as far as that channel is. -/
theorem pulsesInRange_registers (known : pwm.channel < echoNumServos) {log : List ByteWrite}
    (inside : ∀ write ∈ log, write ∈ pwm.bytes) (range : PulsesInRange regs) :
    PulsesInRange (registers regs log) ↔
      servoTicksMin ≤ channelOff (registers regs log) pwm.channel ∧
        channelOff (registers regs log) pwm.channel ≤ servoTicksMax := by
  refine ⟨fun all => all ⟨pwm.channel, known⟩, fun own servo => ?_⟩
  by_cases same : servo.val = pwm.channel
  · rw [same]
    exact own
  · rw [(channel_outside regs pwm known servo.isLt same inside).2]
    exact range servo

/-- A channel is in range while it is programmed exactly if its low byte is not
written under another high byte. -/
theorem along_pwm (known : pwm.channel < echoNumServos)
    (off : servoTicksMin ≤ pwm.off ∧ pwm.off ≤ servoTicksMax) (range : PulsesInRange regs) :
    Along ByteWrite.writes PulsesInRange regs pwm.completed ↔
      ((∀ write < 3, 0 ≤ pwm.i2c write) →
        channelOff regs pwm.channel / 256 = pwm.off / 256) := by
  have old : servoTicksMin ≤ channelOff regs pwm.channel ∧
      channelOff regs pwm.channel ≤ servoTicksMax := range ⟨pwm.channel, known⟩
  have partly := channelOff_take regs pwm known (by unfold servoTicksMax at off; omega)
  have length : pwm.bytes.length = 4 := rfl
  unfold servoTicksMin servoTicksMax at old off
  constructor
  · intro along reached
    have third : pwm.bytes.take 3 <+: pwm.completed :=
      (take_prefix_completed (by omega)).mpr reached
    have inRange := (pulsesInRange_registers regs pwm known
      (fun write member => List.mem_of_mem_take member) range).mp (along _ third)
    have mixed := partly 3
    rw [if_neg (by decide), if_pos rfl] at mixed
    unfold servoTicksMin servoTicksMax at inRange
    omega
  · intro sameHigh done inside
    have taken : done = pwm.bytes.take done.length :=
      List.prefix_iff_eq_take.mp (inside.trans (completed_isPrefix _))
    have short : done.length ≤ 4 := (inside.trans (completed_isPrefix _)).length_le
    rw [taken] at inside ⊢
    rw [pulsesInRange_registers regs pwm known
      (fun write member => List.mem_of_mem_take member) range,
      partly]
    unfold servoTicksMin servoTicksMax
    split
    · exact old
    · split
      · rename_i three
        have reached := (take_prefix_completed (by omega)).mp inside
        have := sameHigh fun write below => reached write (by omega)
        omega
      · exact off

end Channel

section Call
variable {ctx : EchoServoCtx} {call : ServoCall}

theorem target_bounds :
    servoTicksMin ≤ angleToPwm call.target ∧ angleToPwm call.target ≤ servoTicksMax :=
  angleToPwm_bounds (Nat.min_le_right call.angle echoServoMax)

/-- A move of another servo than the base programs one channel. -/
theorem along_single (known : call.servoId < echoNumServos)
    (other : call.servoId ≠ echoServoPan.val) (range : PulsesInRange ctx.regs) :
    Along ByteWrite.writes PulsesInRange ctx.regs (call.bytes false) ↔ KeepsHigh ctx call := by
  have moved : movedServos ⟨call.servoId, known⟩ = [⟨call.servoId, known⟩] :=
    if_neg fun base => other (congrArg Fin.val base)
  rw [ServoCall.bytes, ServoCall.pwm, if_pos ⟨known, rfl⟩, if_neg (fun both => other both.1),
    List.flatMap_singleton, along_pwm _ _ known target_bounds range, KeepsHigh,
    forall_prop_of_true known, moved]
  simp [ServoCall.reach, ServoCall.ownPwm]

theorem keepsHigh_base (known : call.servoId < echoNumServos)
    (base : call.servoId = echoServoPan.val) :
    KeepsHigh ctx call ↔
      ((∀ write < 3, 0 ≤ call.i2c write) →
          channelOff ctx.regs echoServoPan / 256 = angleToPwm call.target / 256) ∧
        ((∀ write < 7, 0 ≤ call.i2c write) →
          channelOff ctx.regs echoServoTilt2 / 256 = angleToPwm call.target / 256) := by
  have moved : movedServos ⟨call.servoId, known⟩ = [echoServoPan, echoServoTilt2] := by
    simp [movedServos, base]
  rw [KeepsHigh, forall_prop_of_true known, moved]
  simp [ServoCall.reach, base, echoServoPan, echoServoTilt2]

/-- A move of the base goes on to the mirror when all its own writes go well. -/
theorem along_base (errors : ∀ write, call.i2c write ≤ 0) (known : call.servoId < echoNumServos)
    (base : call.servoId = echoServoPan.val) (range : PulsesInRange ctx.regs) :
    Along ByteWrite.writes PulsesInRange ctx.regs (call.bytes false) ↔ KeepsHigh ctx call := by
  have pan : call.ownPwm.channel = echoServoPan.val := base
  have own := along_pwm ctx.regs call.ownPwm known target_bounds range
  have success : call.ownPwm.result = 0 ↔ ∀ write < 4, 0 ≤ call.i2c write :=
    pwm_result_zero errors
  rw [pan] at own
  rw [keepsHigh_base known base, ServoCall.bytes, ServoCall.pwm, if_pos ⟨known, rfl⟩]
  by_cases whole : call.ownPwm.result = 0
  · rw [if_pos ⟨base, whole⟩, List.flatMap_cons, List.flatMap_singleton, along_append, own]
    refine and_congr_right fun keeps => ?_
    have kept : channelOff (registers ctx.regs call.ownPwm.completed) echoServoTilt2 =
        channelOff ctx.regs echoServoTilt2 :=
      (channel_outside ctx.regs call.ownPwm known echoServoTilt2.isLt
        (by rw [pan]; decide) fun write member => (completed_isPrefix _).subset member).2
    have mirror := along_pwm _ call.mirrorPwm echoServoTilt2.isLt target_bounds
      (own.mpr keeps).final
    rw [show call.mirrorPwm.channel = echoServoTilt2.val from rfl, kept] at mirror
    rw [mirror]
    refine imp_congr_left ⟨fun reached write below => ?_, fun reached write below => ?_⟩
    · by_cases early : write < 4
      · exact success.mp whole write early
      · have later : 0 ≤ call.i2c (4 + (write - 4)) := reached (write - 4) (by omega)
        rwa [Nat.add_sub_cancel' (by omega)] at later
    · exact reached (4 + write) (by omega)
  · rw [if_neg (fun both => whole both.2), List.flatMap_singleton, own]
    refine (and_iff_left fun reached => ?_).symm
    exact absurd (success.mpr fun write below => reached write (by omega)) whole

/-- All outputs stay in range through a call exactly under the condition. -/
theorem along_call (errors : ∀ write, call.i2c write ≤ 0) (hardware : ctx.simMode = false)
    (range : PulsesInRange ctx.regs) :
    Along ByteWrite.writes PulsesInRange ctx.regs (call.bytes ctx.simMode) ↔
      KeepsHigh ctx call := by
  rw [hardware]
  by_cases known : call.servoId < echoNumServos
  · by_cases base : call.servoId = echoServoPan.val
    · exact along_base errors known base range
    · exact along_single known base range
  · refine iff_of_true ?_ fun other => absurd other known
    rw [ServoCall.bytes, ServoCall.pwm, if_neg (fun both => known both.1)]
    exact along_nil.mpr range

end Call

/-- From pulses in range they stay in range exactly while the calls meet the condition. -/
theorem along_byteWrites {ctx : EchoServoCtx} {calls : List ServoCall}
    (errors : ∀ call ∈ calls, ∀ write, call.i2c write ≤ 0) (hardware : ctx.simMode = false)
    (range : PulsesInRange ctx.regs) :
    Along ByteWrite.writes PulsesInRange ctx.regs (byteWrites ctx.simMode calls) ↔
      Throughout KeepsHigh ctx calls := by
  induction calls generalizing ctx with
  | nil => exact iff_of_true (along_nil.mpr range) trivial
  | cons call rest ih =>
    have first := along_call (errors call (by simp)) hardware range
    rw [byteWrites, List.flatMap_cons, along_append, first]
    refine and_congr_right fun keeps => ?_
    have later := @ih (call.run ctx).1
      (fun other member => errors other (by simp [member])) (simMode_run.trans hardware)
      (by rw [regs_run]; exact (first.mpr keeps).final)
    rw [regs_run, simMode_run] at later
    exact later

/-- On a chip whose servos were centred, no byte write of a sequence of calls leaves
a pulse out of range exactly if every call meets the condition. -/
theorem pulses_in_range_iff (regs : Nat → Nat) (env : CreateEnv) (ctx : EchoServoCtx)
    (calls : List ServoCall) (created : echoServoCreate false regs env = .ok ctx)
    (centres : env.Centres) (errors : ∀ call ∈ calls, ∀ write, call.i2c write ≤ 0) :
    Along ByteWrite.writes PulsesInRange ctx.regs (byteWrites ctx.simMode calls) ↔
      Throughout KeepsHigh ctx calls := by
  refine along_byteWrites errors (pos_created created).1 fun servo => ?_
  rw [channelOff_created created centres]
  decide

/-- A tilt from the centre to the smallest angle on a working bus. -/
def steepTilt : ServoCall := ⟨1, 0, fun _ => 0⟩

/-- A tilt from the centre to 60 keeps its high byte, and one to 0 does not. -/
theorem pulses_in_range_iff_tilt :
    ∃ ctx, echoServoCreate false (fun _ => 0) workingEnv = .ok ctx ∧
      Along ByteWrite.writes PulsesInRange ctx.regs
        (byteWrites ctx.simMode [⟨1, 60, fun _ => 0⟩]) ∧
      ¬ Along ByteWrite.writes PulsesInRange ctx.regs (byteWrites ctx.simMode [steepTilt]) := by
  have exactly := fun calls => pulses_in_range_iff (fun _ => 0) workingEnv _ calls rfl
    ⟨fun _ => rfl, fun _ => rfl, fun _ => rfl⟩
  refine ⟨_, rfl, (exactly [_] (by simp)).mpr ⟨?_, trivial⟩, fun along => ?_⟩
  · unfold KeepsHigh
    decide
  · have keeps := ((exactly [steepTilt] (by simp [steepTilt])).mp along).1
    revert keeps
    unfold KeepsHigh
    decide

/-- Its third byte write leaves a pulse of 461 ticks. -/
theorem steepTilt_overshoots :
    ∃ ctx, echoServoCreate false (fun _ => 0) workingEnv = .ok ctx ∧
      channelOff (registers ctx.regs ((byteWrites false [steepTilt]).take 3)) echoServoTilt =
        461 ∧
      ¬ Along ByteWrite.writes PulsesInRange ctx.regs (byteWrites ctx.simMode [steepTilt]) := by
  refine ⟨_, rfl, by decide, fun along => ?_⟩
  have third := (along _ (List.take_prefix 3 _) echoServoTilt).2
  revert third
  decide

end EchoRobot
