import EchoRobot.Servo.Programming

/-! The known positions and failed moves. The position is stored before the bus is
asked, so a call that fails on the way leaves an angle that no channel holds. -/

namespace EchoRobot

open Logs

/-- Every call of the sequence has the property in the context it is made in. -/
def Throughout (holds : EchoServoCtx → ServoCall → Prop) : EchoServoCtx → List ServoCall → Prop
  | _, [] => True
  | ctx, call :: rest => holds ctx call ∧ Throughout holds (call.run ctx).1 rest

/-- A channel that has taken all four byte writes for an angle. -/
structure Programming where
  channel : Nat
  angle : Nat

def Programming.writes (entry : Programming) (servo : Fin echoNumServos) : Option Nat :=
  if servo.val = entry.channel then some entry.angle else none

/-- The channels that a call programs completely. -/
def ServoCall.programmings (call : ServoCall) (simMode : Bool) : List Programming :=
  ((call.pwm simMode).filter fun pwm => decide (0 ≤ pwm.result)).map fun pwm =>
    ⟨pwm.channel, call.target⟩

/-- The angle most recently programmed completely into each channel. -/
def programmed (pos : Fin echoNumServos → Nat) (simMode : Bool) (calls : List ServoCall) :
    Fin echoNumServos → Nat :=
  replay Programming.writes pos (calls.flatMap (·.programmings simMode))

/-- A call that fails leaves the positions, and on real hardware they are after
every call what the channels were last programmed with. -/
def KnownPositions (ctx : EchoServoCtx) (calls : List ServoCall) : Prop :=
  Throughout (fun ctx call => (call.run ctx).2 < 0 → (call.run ctx).1.pos = ctx.pos) ctx calls ∧
    (ctx.simMode = false → ∀ done, done <+: calls →
      (setAngles ctx done).pos = programmed ctx.pos ctx.simMode done)

/-- The byte writes of a call that succeeds. -/
def ServoCall.writeCount (call : ServoCall) : Nat :=
  if call.servoId = echoServoPan.val then 8 else 4

/-- The call is for no servo, touches no bus, has no byte write that fails, or
finds every servo that it moves at its target. -/
def KeepsPosition (ctx : EchoServoCtx) (call : ServoCall) : Prop :=
  echoNumServos ≤ call.servoId ∨ ctx.simMode = true ∨
    (∀ write < call.writeCount, 0 ≤ call.i2c write) ∨
    ∀ known : call.servoId < echoNumServos, ∀ other ∈ movedServos ⟨call.servoId, known⟩,
      ctx.pos other = call.target

theorem pwm_result_zero {pwm : PwmCall} (errors : ∀ write, pwm.i2c write ≤ 0) :
    pwm.result = 0 ↔ ∀ write < 4, 0 ≤ pwm.i2c write :=
  answer_zero errors

section Call
variable {call : ServoCall} {ctx : EchoServoCtx}

/-- The calls of `pca9685_set_pwm` when the byte writes all go well. -/
theorem pwm_of_writes (errors : ∀ write, call.i2c write ≤ 0)
    (writes : ∀ write < call.writeCount, 0 ≤ call.i2c write) :
    call.ownPwm.result = 0 ∧
      (call.servoId = echoServoPan.val → call.mirrorPwm.result = 0) := by
  have count : 4 ≤ call.writeCount := by
    unfold ServoCall.writeCount
    split <;> omega
  refine ⟨(pwm_result_zero errors).mpr fun write inside => writes write (by omega), fun base => ?_⟩
  refine (pwm_result_zero fun write => errors (4 + write)).mpr fun write inside => writes _ ?_
  rw [ServoCall.writeCount, if_pos base]
  omega

/-- On real hardware a move of a servo fails exactly when one of its byte writes does. -/
theorem run_fails_iff (errors : ∀ write, call.i2c write ≤ 0)
    (known : call.servoId < echoNumServos) (hardware : ctx.simMode = false) :
    (call.run ctx).2 < 0 ↔ ∃ write < call.writeCount, call.i2c write < 0 := by
  have own : call.ownPwm.result < 0 ↔ ∃ write < 4, call.i2c write < 0 := answer_neg
  have upper : call.ownPwm.result ≤ 0 := answer_nonpos errors
  have mirror : call.mirrorPwm.result < 0 ↔ ∃ write < 4, call.i2c (4 + write) < 0 := answer_neg
  rw [run_known known, hardware]
  unfold ServoCall.pwm ServoCall.writeCount
  rw [if_pos ⟨known, rfl⟩]
  by_cases success : call.ownPwm.result = 0
  · have passed : ∀ write < 4, ¬ call.i2c write < 0 := fun write inside negative => by
      have := own.mpr ⟨write, inside, negative⟩
      omega
    by_cases base : call.servoId = echoServoPan.val
    · rw [if_pos ⟨base, success⟩, if_pos base]
      refine mirror.trans ⟨?_, ?_⟩
      · rintro ⟨write, inside, negative⟩
        exact ⟨4 + write, by omega, negative⟩
      · rintro ⟨write, inside, negative⟩
        have later : 4 ≤ write := by
          by_contra early
          exact passed write (by omega) negative
        exact ⟨write - 4, by omega, by rwa [Nat.add_sub_cancel' later]⟩
    · rw [if_neg (fun both => base both.1), if_neg base]
      exact own
  · rw [if_neg (fun both => success both.2)]
    refine iff_of_true (show call.ownPwm.result < 0 by omega) ?_
    obtain ⟨write, inside, negative⟩ := own.mp (by omega)
    exact ⟨write, by split <;> omega, negative⟩

theorem run_simulated (simulated : ctx.simMode = true) (known : call.servoId < echoNumServos) :
    (call.run ctx).2 = 0 := by
  rw [run_known known, simulated]
  simp [ServoCall.pwm]

theorem pos_run_eq_iff (known : call.servoId < echoNumServos) :
    (call.run ctx).1.pos = ctx.pos ↔
      ∀ other ∈ movedServos ⟨call.servoId, known⟩, ctx.pos other = call.target := by
  rw [pos_run known]
  constructor
  · intro same other member
    rw [← same, movePos_apply, if_pos member]
  · intro there
    funext other
    rw [movePos_apply]
    split
    · rename_i member
      exact (there other member).symm
    · rfl

/-- A call leaves no wrong position when it fails exactly under the condition. -/
theorem keepsPosition_iff (errors : ∀ write, call.i2c write ≤ 0) :
    ((call.run ctx).2 < 0 → (call.run ctx).1.pos = ctx.pos) ↔ KeepsPosition ctx call := by
  by_cases known : call.servoId < echoNumServos
  · cases simulated : ctx.simMode with
    | true =>
      refine iff_of_true (fun failed => ?_) (Or.inr (Or.inl simulated))
      rw [run_simulated simulated known] at failed
      exact absurd failed (by decide)
    | false =>
      rw [run_fails_iff errors known simulated, pos_run_eq_iff known]
      constructor
      · intro keeps
        by_cases failed : ∃ write < call.writeCount, call.i2c write < 0
        · exact Or.inr (Or.inr (Or.inr fun _ => keeps failed))
        · refine Or.inr (Or.inr (Or.inl fun write inside => ?_))
          by_contra negative
          exact failed ⟨write, inside, by omega⟩
      · rintro (unknown | mode | writes | there) ⟨write, inside, negative⟩
        · omega
        · simp [simulated] at mode
        · have := writes write inside
          omega
        · exact there known
  · refine iff_of_true (fun _ => ?_) (Or.inl (by omega))
    rw [run_unknown (by omega)]

/-- A call programs only the servos that it moves, with its target. -/
theorem mem_programmings {entry : Programming} (member : entry ∈ call.programmings false) :
    ∃ known : call.servoId < echoNumServos, entry.angle = call.target ∧
      ∃ other ∈ movedServos ⟨call.servoId, known⟩, other.val = entry.channel := by
  obtain ⟨pwm, inside, rfl⟩ := List.mem_map.mp member
  have listed := (List.mem_filter.mp inside).1
  unfold ServoCall.pwm at listed
  split at listed
  · rename_i known
    have own : ⟨call.servoId, known.1⟩ ∈ movedServos ⟨call.servoId, known.1⟩ := by
      unfold movedServos
      split <;> simp [*]
    refine ⟨known.1, rfl, ?_⟩
    split at listed
    · rename_i base
      rcases List.mem_cons.mp listed with rfl | mirror
      · exact ⟨_, own, rfl⟩
      · obtain rfl := List.mem_singleton.mp mirror
        exact ⟨echoServoTilt2, by simp [movedServos, Fin.ext_iff, base.1], rfl⟩
    · obtain rfl := List.mem_singleton.mp listed
      exact ⟨_, own, rfl⟩
  · simp at listed

theorem programmings_of_writes (errors : ∀ write, call.i2c write ≤ 0)
    (known : call.servoId < echoNumServos)
    (writes : ∀ write < call.writeCount, 0 ≤ call.i2c write) :
    call.programmings false = ⟨call.servoId, call.target⟩ ::
      if call.servoId = echoServoPan.val then [⟨echoServoTilt2.val, call.target⟩] else [] := by
  obtain ⟨own, mirror⟩ := pwm_of_writes errors writes
  unfold ServoCall.programmings ServoCall.pwm
  rw [if_pos ⟨known, rfl⟩]
  by_cases base : call.servoId = echoServoPan.val
  · rw [if_pos ⟨base, own⟩, if_pos base]
    simp only [List.filter_cons, own, mirror base, le_refl, decide_true, if_true,
      List.filter_nil, List.map_cons, List.map_nil]
    rfl
  · rw [if_neg (fun both => base both.1), if_neg base]
    simp only [List.filter_cons, own, le_refl, decide_true, if_true, List.filter_nil,
      List.map_cons, List.map_nil]
    rfl

/-- Under the condition the positions follow the channels. -/
theorem pos_of_keepsPosition (errors : ∀ write, call.i2c write ≤ 0)
    (hardware : ctx.simMode = false) (keeps : KeepsPosition ctx call) :
    (call.run ctx).1.pos = replay Programming.writes ctx.pos (call.programmings ctx.simMode) := by
  rw [hardware]
  rcases keeps with unknown | simulated | writes | there
  · rw [run_unknown unknown, ServoCall.programmings, ServoCall.pwm, if_neg (fun both => by omega)]
    rfl
  · simp [hardware] at simulated
  · by_cases known : call.servoId < echoNumServos
    · rw [pos_run known, programmings_of_writes errors known writes]
      funext other
      rw [movePos_apply]
      by_cases base : call.servoId = echoServoPan.val
      · rw [if_pos base]
        rcases pan_tilt_or_tilt2 other with rfl | rfl | rfl <;>
          simp [movedServos, Fin.ext_iff, base, apply, Programming.writes, echoServoPan,
            echoServoTilt, echoServoTilt2]
      · rw [if_neg base]
        by_cases same : other.val = call.servoId
        · simp [movedServos, Fin.ext_iff, show call.servoId ≠ echoServoPan.val from base, same,
            apply, Programming.writes]
        · simp [movedServos, Fin.ext_iff, show call.servoId ≠ echoServoPan.val from base, same,
            apply, Programming.writes]
    · rw [run_unknown (by omega), ServoCall.programmings, ServoCall.pwm,
        if_neg (fun both => known both.1)]
      rfl
  · by_cases known : call.servoId < echoNumServos
    · rw [(pos_run_eq_iff known).mpr (there known)]
      refine (replay_idle ?_).symm
      intro entry member servo angle written
      obtain ⟨_, target, other, moved, channel⟩ := mem_programmings member
      obtain ⟨same, rfl⟩ : servo.val = entry.channel ∧ entry.angle = angle := by
        simpa [Programming.writes] using written
      rw [target, ← there known other moved]
      exact congrArg ctx.pos (Fin.ext (same.trans channel.symm))
    · rw [run_unknown (by omega), ServoCall.programmings, ServoCall.pwm,
        if_neg (fun both => known both.1)]
      rfl

end Call

section Sequence
variable {ctx : EchoServoCtx} {calls : List ServoCall}

theorem throughout_congr {first second : EchoServoCtx → ServoCall → Prop}
    (same : ∀ ctx, ∀ call ∈ calls, first ctx call ↔ second ctx call) :
    Throughout first ctx calls ↔ Throughout second ctx calls := by
  induction calls generalizing ctx with
  | nil => exact Iff.rfl
  | cons call rest ih =>
    exact and_congr (same ctx call (by simp))
      (ih fun other later member => same other later (by simp [member]))

theorem throughout_isPrefix {holds : EchoServoCtx → ServoCall → Prop} {done : List ServoCall}
    (inside : done <+: calls) (throughout : Throughout holds ctx calls) :
    Throughout holds ctx done := by
  induction done generalizing ctx calls with
  | nil => trivial
  | cons call done ih =>
    cases calls with
    | nil => simp at inside
    | cons head rest =>
      obtain ⟨rfl, shorter⟩ := List.cons_prefix_cons.mp inside
      exact ⟨throughout.1, ih shorter throughout.2⟩

/-- After every sequence under the condition the positions are those of the channels. -/
theorem pos_setAngles (errors : ∀ call ∈ calls, ∀ write, call.i2c write ≤ 0)
    (hardware : ctx.simMode = false) (keeps : Throughout KeepsPosition ctx calls) :
    (setAngles ctx calls).pos = programmed ctx.pos ctx.simMode calls := by
  induction calls generalizing ctx with
  | nil => rfl
  | cons call rest ih =>
    have mode : (call.run ctx).1.simMode = ctx.simMode := simMode_run
    have step := pos_of_keepsPosition (errors call (by simp)) hardware keeps.1
    have later := ih (fun other member => errors other (by simp [member]))
      (mode.trans hardware) keeps.2
    calc (setAngles ctx (call :: rest)).pos
        = programmed (call.run ctx).1.pos (call.run ctx).1.simMode rest := later
      _ = programmed ctx.pos ctx.simMode (call :: rest) := by
        rw [mode, step, programmed, programmed, List.flatMap_cons, replay_append]

/-- The positions are known through a sequence of calls exactly if every call of it
meets the condition. -/
theorem known_positions_iff (ctx : EchoServoCtx) (calls : List ServoCall)
    (errors : ∀ call ∈ calls, ∀ write, call.i2c write ≤ 0) :
    KnownPositions ctx calls ↔ Throughout KeepsPosition ctx calls := by
  have each : Throughout
        (fun ctx call => (call.run ctx).2 < 0 → (call.run ctx).1.pos = ctx.pos) ctx calls ↔
      Throughout KeepsPosition ctx calls :=
    throughout_congr fun _ call member => keepsPosition_iff (errors call member)
  refine ⟨fun known => each.mp known.1, fun keeps => ⟨each.mpr keeps, ?_⟩⟩
  intro hardware done inside
  exact pos_setAngles (fun call member => errors call (inside.subset member)) hardware
    (throughout_isPrefix inside keeps)

end Sequence

/-- The bus fails at once, on a tilt from 90 to 100. -/
def failedTilt : ServoCall := ⟨1, 100, fun _ => -5⟩

/-- A failed tilt to where the tilt already is leaves the positions known, one to another
angle does not. -/
theorem known_positions_iff_tilt :
    KnownPositions ⟨false, fun _ => 90, fun _ => 0⟩ [⟨1, 100, fun _ => 0⟩, failedTilt] ∧
      ¬ KnownPositions ⟨false, fun _ => 90, fun _ => 0⟩ [⟨1, 60, fun _ => 0⟩, failedTilt] := by
  constructor
  · refine (known_positions_iff _ _ (by simp [failedTilt])).mpr
      ⟨Or.inr (Or.inr (Or.inl ?_)), Or.inr (Or.inr (Or.inr ?_)), trivial⟩
    · decide
    · decide
  · intro known
    have keeps := (known_positions_iff _ _ (by simp [failedTilt])).mp known
    have second := keeps.2.1
    revert second
    unfold KeepsPosition
    decide

theorem failedTilt_moves :
    (failedTilt.run ⟨false, fun _ => 90, fun _ => 0⟩).2 = -5 ∧
      (failedTilt.run ⟨false, fun _ => 90, fun _ => 0⟩).1.pos echoServoTilt = 100 ∧
      ¬ KnownPositions ⟨false, fun _ => 90, fun _ => 0⟩ [failedTilt] := by
  have failed : (failedTilt.run ⟨false, fun _ => 90, fun _ => 0⟩).2 = -5 := by decide
  have moved : (failedTilt.run ⟨false, fun _ => 90, fun _ => 0⟩).1.pos echoServoTilt = 100 := by
    decide
  refine ⟨failed, moved, fun known => ?_⟩
  have kept := known.1.1 (by rw [failed]; decide)
  rw [kept] at moved
  exact absurd moved (by decide)

end EchoRobot
