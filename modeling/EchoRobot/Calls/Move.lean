import EchoRobot.Calls.Alone
import EchoRobot.Servo.Programming

/-! The `MOVE` command. Its two fields are `u32` and are cut to a `u8` and a `u16`
before anything looks at them. -/

namespace EchoRobot

open Interleaving

/-- What a `MOVE` does by its fields, `result` being the return value. -/
structure MoveObeyed (cmd : EchoCmd) (count : Nat) (before after : EchoDevice)
    (result : Option Int) : Prop where
  unknown : echoNumServos ≤ cmd.servoId →
    result = some (-EINVAL) ∧ after.servo.pos = before.servo.pos
  result : cmd.servoId < echoNumServos → result = some (count : Int)
  moved : ∀ known : cmd.servoId < echoNumServos, ∀ other ∈ movedServos ⟨cmd.servoId, known⟩,
    after.servo.pos other = min cmd.angle 180
  still : ∀ known : cmd.servoId < echoNumServos, ∀ other, other ∉ movedServos ⟨cmd.servoId, known⟩ →
    after.servo.pos other = before.servo.pos other
  others : cmd.servoId < echoNumServos → after.state = before.state ∧ after.buffer = before.buffer
  announced : cmd.servoId < echoNumServos → after.newDataAvail = true

/-- The casts keep what the fields mean. -/
def FieldsFit (cmd : EchoCmd) : Prop :=
  if cmd.servoId < echoNumServos then cmd.angle < 65536 ∨ echoServoMax ≤ cmd.angle % 65536
  else echoNumServos ≤ cmd.servoId % 256

instance (cmd : EchoCmd) : Decidable (FieldsFit cmd) :=
  inferInstanceAs (Decidable (if cmd.servoId < echoNumServos then _ else _))

/-- The call that the command makes. -/
def EchoCmd.servoCall (cmd : EchoCmd) (i2c : I2cResults) : ServoCall :=
  ⟨cmd.servoId % 256, cmd.angle % 65536, i2c⟩

section Returns
variable {state : State} {id count : Nat} {cmd : EchoCmd} {env : Env}

theorem echoWrite_move (whole : sizeofEchoCmd ≤ count) (move : cmd.command = echoCmdMove) :
    echoWrite count (some cmd) = .setAngleOrReturn (cmd.servoId % 256) (cmd.angle % 65536) ::
      (notifyReaders ++ [.ret count]) := by
  simp [echoWrite, Nat.not_lt.mpr whole, move, echoCmdMove, echoCmdTeach, echoCmdReplay,
    echoCmdStop]

theorem move_total (idle : state.code (.proc id) = []) (whole : sizeofEchoCmd ≤ count)
    (move : cmd.command = echoCmdMove) :
    ∃ final, ReturnsAlone (.proc id) env (.write count (some cmd)) state final := by
  refine exists_returnsAlone env rfl idle ?_
  rw [Request.code, echoWrite_move whole move]
  simp [notifyReaders, Instr.passes]

/-- A command whose move succeeds notifies and returns the size of the write; one whose
move fails returns the error. -/
theorem move_returns {final : State} (idle : state.code (.proc id) = [])
    (whole : sizeofEchoCmd ≤ count) (move : cmd.command = echoCmdMove)
    (returns : ReturnsAlone (.proc id) env (.write count (some cmd)) state final) :
    let moved := (cmd.servoCall env.i2c).run state.dev.servo
    if moved.2 = 0 then
      final.dev = { state.dev with servo := moved.1, newDataAvail := true } ∧
        (final.thread (.proc id)).result = some (count : Int)
    else
      final.dev = { state.dev with servo := moved.1 } ∧
        (final.thread (.proc id)).result = some moved.2 := by
  have finishes := (returnsAlone_iff rfl idle).mp returns
  obtain ⟨done, taken, later⟩ := finishes.head
    ((enter_code ..).trans (echoWrite_move whole move))
  have dev : (state.enter (.proc id) (.write count (some cmd))).dev = state.dev :=
    enter_dev state rfl
  dsimp only
  by_cases succeeds : (echoServoSetAngle state.dev.servo (cmd.servoId % 256)
      (cmd.angle % 65536) env.i2c).2 = 0
  · simp only [exec, dev, succeeds, ↓reduceIte] at taken
    rw [if_pos (show ((cmd.servoCall env.i2c).run state.dev.servo).2 = 0 from succeeds)]
    cases taken
    obtain ⟨done, taken, later⟩ := later.head (settle_code ..)
    cases taken
    obtain ⟨done, taken, later⟩ := later.head (settle_code ..)
    cases taken
    obtain ⟨done, taken, later⟩ := later.head (settle_code ..)
    cases taken
    rw [later.returned (settle_code ..)]
    simp [Thread.leave, EchoCmd.servoCall, ServoCall.run]
  · simp only [exec, leave, dev, succeeds, ↓reduceIte] at taken
    rw [if_neg (show ¬ ((cmd.servoCall env.i2c).run state.dev.servo).2 = 0 from succeeds)]
    cases taken
    rw [later.returned (settle_code ..)]
    simp [Thread.leave, EchoCmd.servoCall, ServoCall.run]

/-- A known servo is moved to what the cast leaves of the angle. -/
theorem move_known (ctx : EchoServoCtx) (known : cmd.servoId < echoNumServos)
    (bus : ∀ write, env.i2c write = 0) :
    ProgramsExactly (cmd.servoCall env.i2c) ctx ⟨cmd.servoId, known⟩
      ((cmd.servoCall env.i2c).run ctx) := by
  have same : (cmd.servoCall env.i2c).servoId = cmd.servoId := by
    refine Nat.mod_eq_of_lt ?_
    unfold echoNumServos at known
    omega
  have kept : (cmd.servoCall env.i2c).servoId < echoNumServos := same ▸ known
  have programs : ProgramsExactly (cmd.servoCall env.i2c) ctx ⟨_, kept⟩ _ :=
    programsExactly bus kept
  simpa only [same] using programs

/-- A command for a known servo does what it says when the cast keeps the angle. -/
theorem moveObeyed_of_known (dev : EchoDevice) (known : cmd.servoId < echoNumServos)
    (bus : ∀ write, env.i2c write = 0) :
    MoveObeyed cmd count dev
        { dev with servo := ((cmd.servoCall env.i2c).run dev.servo).1, newDataAvail := true }
        (some (count : Int)) ↔
      cmd.angle < 65536 ∨ echoServoMax ≤ cmd.angle % 65536 := by
  have programs := move_known dev.servo known bus
  have fits : min (cmd.angle % 65536) 180 = min cmd.angle 180 ↔
      cmd.angle < 65536 ∨ echoServoMax ≤ cmd.angle % 65536 := by
    unfold echoServoMax
    omega
  rw [← fits]
  constructor
  · intro obeyed
    have own : (⟨cmd.servoId, known⟩ : Fin echoNumServos) ∈ movedServos ⟨cmd.servoId, known⟩ := by
      unfold movedServos
      split <;> simp [*]
    exact (programs.moved _ own).symm.trans (obeyed.moved known _ own)
  · intro same
    exact ⟨fun unknown => absurd known (Nat.not_lt.mpr unknown), fun _ => rfl,
      fun _ other member => (programs.moved other member).trans same,
      fun _ other outside => programs.still other outside, fun _ => ⟨rfl, rfl⟩, fun _ => rfl⟩

/-- A command for an unknown servo does what it says when it is refused. -/
theorem moveObeyed_of_unknown {before after : EchoDevice} {result : Option Int}
    (unknown : echoNumServos ≤ cmd.servoId) : MoveObeyed cmd count before after result ↔
      result = some (-EINVAL) ∧ after.servo.pos = before.servo.pos := by
  refine ⟨fun obeyed => obeyed.unknown unknown, fun refused => ?_⟩
  have outside : ¬ cmd.servoId < echoNumServos := Nat.not_lt.mpr unknown
  exact ⟨fun _ => refused, fun own => absurd own outside, fun own => absurd own outside,
    fun own => absurd own outside, fun own => absurd own outside, fun own => absurd own outside⟩

/-- The call says what its fields say if and only if the casts keep them. -/
theorem move_obeyed_iff (idle : state.code (.proc id) = []) (whole : sizeofEchoCmd ≤ count)
    (move : cmd.command = echoCmdMove) (bus : ∀ write, env.i2c write = 0) :
    (∃ final, ReturnsAlone (.proc id) env (.write count (some cmd)) state final) ∧
      ∀ final, ReturnsAlone (.proc id) env (.write count (some cmd)) state final →
        (MoveObeyed cmd count state.dev final.dev (final.thread (.proc id)).result ↔
          FieldsFit cmd) := by
  refine ⟨move_total idle whole move, fun final returns => ?_⟩
  have moved := move_returns idle whole move returns
  dsimp only at moved
  unfold FieldsFit
  by_cases known : cmd.servoId < echoNumServos
  · rw [if_pos (move_known state.dev.servo known bus).result] at moved
    rw [if_pos known, moved.1, moved.2]
    exact moveObeyed_of_known state.dev known bus
  · rw [if_neg known, moveObeyed_of_unknown (Nat.not_lt.mp known)]
    by_cases aliased : cmd.servoId % 256 < echoNumServos
    · have aims : (cmd.servoCall env.i2c).servoId < echoNumServos := aliased
      rw [if_pos (programsExactly bus aims).result] at moved
      have accepted : some (count : Int) ≠ some (-EINVAL) := by
        simp only [ne_eq, Option.some.injEq]
        unfold EINVAL
        omega
      rw [moved.2]
      exact iff_of_false (fun refused => accepted refused.1) (Nat.not_le.mpr aliased)
    · have run : (cmd.servoCall env.i2c).run state.dev.servo = (state.dev.servo, -EINVAL) :=
        run_unknown (Nat.not_lt.mp aliased)
      rw [run, if_neg (show -EINVAL ≠ 0 by decide)] at moved
      rw [moved.1, moved.2]
      exact iff_of_true ⟨rfl, rfl⟩ (Nat.not_lt.mp aliased)

end Returns

/-- The largest angle for the first arm. -/
theorem move_obeyed_iff_largest :
    ∃ final, ReturnsAlone (.proc 0) Env.good (.write 20 (some ⟨echoCmdMove, 1, 4294967295, 0⟩))
        (State.initial simServo 0) final ∧
      (final.thread (.proc 0)).result = some 20 ∧ final.dev.servo.pos echoServoTilt = 180 := by
  obtain ⟨⟨final, returns⟩, obeyed⟩ := @move_obeyed_iff (State.initial simServo 0) 0 20
    ⟨echoCmdMove, 1, 4294967295, 0⟩ Env.good rfl (by decide) rfl fun _ => rfl
  have does := (obeyed final returns).mpr (by decide)
  exact ⟨final, returns, does.result (by decide), does.moved (by decide) _ (by decide)⟩

/-- A servo that does not exist, whose number ends in the byte of the base. -/
theorem move_aliases :
    ∃ final, ReturnsAlone (.proc 0) Env.good (.write 16 (some ⟨echoCmdMove, 256, 10, 0⟩))
        (State.initial simServo 0) final ∧
      (final.thread (.proc 0)).result = some 16 ∧ final.dev.servo.pos echoServoPan = 10 ∧
      ¬ MoveObeyed ⟨echoCmdMove, 256, 10, 0⟩ 16 (State.initial simServo 0).dev final.dev
        (final.thread (.proc 0)).result := by
  obtain ⟨final, returns⟩ := @move_total (State.initial simServo 0) 0 16
    ⟨echoCmdMove, 256, 10, 0⟩ Env.good rfl (by decide) rfl
  have moved := move_returns rfl (by decide) rfl returns
  obtain ⟨dev, result⟩ := moved
  refine ⟨final, returns, result, by rw [dev]; rfl, fun obeyed => ?_⟩
  have refused := result.symm.trans (obeyed.unknown (by decide)).1
  exact absurd refused (by decide)

end EchoRobot
