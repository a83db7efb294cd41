import EchoRobot.Lifecycle.WellFormed

/-! The second arm mirrors the base. A move of the base brings the second arm along,
so they part exactly when the second arm is moved on its own to another angle. -/

namespace EchoRobot

open Interleaving Logs

/-- The second arm is where the base is, and on real hardware their channels hold
the same pulse. -/
structure Synchronised (ctx : EchoServoCtx) : Prop where
  pos : ctx.pos echoServoTilt2 = ctx.pos echoServoPan
  pulse : ctx.simMode = false →
    channelOff ctx.regs echoServoTilt2 = channelOff ctx.regs echoServoPan

/-- On real hardware every channel holds the pulse of its servo's position. -/
def PulsesFollow (ctx : EchoServoCtx) : Prop :=
  ctx.simMode = false → ∀ servo : Fin echoNumServos,
    channelOff ctx.regs servo = angleToPwm (ctx.pos servo)

/-- A move of the second arm on its own goes where the base is. -/
def KeepsMirror (state : State) (action : Action) : Prop :=
  ∀ call, state.servoCall? action = some call → call.servoId = echoServoTilt2.val →
    call.target = state.dev.servo.pos echoServoPan

section Call
variable {call : ServoCall} {ctx : EchoServoCtx}

theorem pulsesFollow_run (succeed : ∀ write, call.i2c write = 0) (follow : PulsesFollow ctx) :
    PulsesFollow (call.run ctx).1 := by
  intro hardware servo
  rw [simMode_run] at hardware
  by_cases known : call.servoId < echoNumServos
  swap
  · rw [run_unknown (by omega)]
    exact follow hardware servo
  rw [pos_run known, movePos_apply, regs_run, hardware]
  split
  · rename_i moved
    exact (channels_of_succeed succeed known moved).2
  · rename_i still
    have kept : ∀ reg ∈ channelRegs servo,
        registers ctx.regs (call.bytes false) reg = ctx.regs reg := by
      intro reg member
      refine frame_of_succeed succeed known fun other moved => ?_
      refine channelRegs_disjoint ⟨other.val, 0, 0, call.i2c⟩ other.isLt servo.isLt ?_ member
      exact fun same => still (Fin.ext same ▸ moved)
    rw [← follow hardware servo, channelOff, channelOff, kept _ (by simp [channelRegs]),
      kept _ (by simp [channelRegs])]

theorem synchronised_of_pos (follow : PulsesFollow ctx)
    (same : ctx.pos echoServoTilt2 = ctx.pos echoServoPan) : Synchronised ctx := by
  refine ⟨same, fun hardware => ?_⟩
  rw [follow hardware, follow hardware, same]

/-- A call parts the arms exactly if it moves the second one alone, and elsewhere. -/
theorem pos_run_synchronised (same : ctx.pos echoServoTilt2 = ctx.pos echoServoPan) :
    (call.run ctx).1.pos echoServoTilt2 = (call.run ctx).1.pos echoServoPan ↔
      (call.servoId = echoServoTilt2.val → call.target = ctx.pos echoServoPan) := by
  by_cases known : call.servoId < echoNumServos
  swap
  · rw [run_unknown (by omega)]
    exact iff_of_true same fun second => absurd echoServoTilt2.isLt (second ▸ known)
  rw [pos_run known]
  generalize named : (⟨call.servoId, known⟩ : Fin echoNumServos) = servo
  rw [show call.servoId = servo.val from congrArg Fin.val named]
  clear named
  rcases pan_tilt_or_tilt2 servo with rfl | rfl | rfl
  · exact iff_of_true rfl (by simp [echoServoPan, echoServoTilt2])
  · exact iff_of_true same (by simp [echoServoTilt, echoServoTilt2])
  · exact ⟨fun together _ => together, fun there => there rfl⟩

end Call

section Step
variable {state after : State} {action : Action}

theorem pulsesFollow_next (succeeds : Succeeds action)
    (follow : PulsesFollow state.dev.servo) (moved : next state action = some after) :
    PulsesFollow after.dev.servo := by
  cases makes : state.servoCall? action with
  | none =>
    rw [servo_of_none moved makes]
    exact follow
  | some call =>
    rw [servo_of_call moved makes]
    obtain ⟨tid, env, instr, rest, rfl, -, moves⟩ := movesServo_of makes
    refine pulsesFollow_run ?_ follow
    cases moves <;> exact succeeds tid env rfl

/-- A step leaves the arms together exactly if it keeps the mirror. -/
theorem synchronised_next (succeeds : Succeeds action) (follow : PulsesFollow state.dev.servo)
    (synchronised : Synchronised state.dev.servo) (moved : next state action = some after) :
    Synchronised after.dev.servo ↔ KeepsMirror state action := by
  have later := pulsesFollow_next succeeds follow moved
  unfold KeepsMirror
  cases makes : state.servoCall? action with
  | none =>
    rw [servo_of_none moved makes]
    simp [synchronised]
  | some call =>
    rw [servo_of_call moved makes] at later ⊢
    simp only [Option.some.injEq, forall_eq']
    rw [← pos_run_synchronised synchronised.pos]
    exact ⟨Synchronised.pos, synchronised_of_pos later⟩

end Step

section Run
variable {simMode : Bool} {regs : Nat → Nat} {env : CreateEnv} {servo : EchoServoCtx}
variable {clock : Nat} {actions : List Action} {state : State}

theorem pulsesFollow_created (created : echoServoCreate simMode regs env = .ok servo)
    (centres : env.Centres) : PulsesFollow servo := by
  intro hardware other
  obtain ⟨mode, pos⟩ := pos_created created
  obtain rfl : simMode = false := mode.symm.trans hardware
  rw [channelOff_created created centres, pos]

/-- On a working bus the arms stay together in every run that moves the second one
on its own only to where the base is. -/
theorem arms_synchronised (created : echoServoCreate simMode regs env = .ok servo)
    (centres : env.Centres)
    (run : Run next (fun state action => Succeeds action ∧ KeepsMirror state action)
      (State.initial servo clock) actions state) : Synchronised state.dev.servo := by
  have follow := pulsesFollow_created created centres
  have kept : PulsesFollow state.dev.servo ∧ Synchronised state.dev.servo := by
    refine run.invariant (fun state => PulsesFollow state.dev.servo ∧
      Synchronised state.dev.servo) ⟨follow, synchronised_of_pos follow ?_⟩ ?_
    · change servo.pos _ = servo.pos _
      rw [(pos_created created).2]
    · rintro - before action after - ⟨follow, synchronised⟩ ⟨succeeds, keeps⟩ moved
      exact ⟨pulsesFollow_next succeeds follow moved,
        (synchronised_next succeeds follow synchronised moved).mpr keeps⟩
  exact kept.2

end Run

/-- The end of a `RESET`, from its centring of the second arm on. -/
def resetTail : Code :=
  .setAngle echoServoTilt2 echoServoCenter :: notifyReaders ++ [.ret 0]

/-- The thread is in a `RESET` between its centring of the base and of the second arm. -/
def State.betweenArms (state : State) (tid : Tid) : Prop :=
  resetTail <:+ state.code tid ∧ .setAngle echoServoPan echoServoCenter ∉ state.code tid

/-- A `MOVE` that names the second arm asks for the angle of the base, and the base is
not moved away while a `RESET` is between the two. -/
structure RequestsKeepMirror (state : State) (action : Action) : Prop where
  move : ∀ tid env angle rest, action = .step tid env →
    state.code tid = .setAngleOrReturn echoServoTilt2 angle :: rest →
    min angle echoServoMax = state.dev.servo.pos echoServoPan
  rests : ∀ call, state.servoCall? action = some call → call.servoId = echoServoPan.val →
    call.target ≠ state.dev.servo.pos echoServoPan → ∀ tid, ¬ state.betweenArms tid

section Requests
variable {servo : EchoServoCtx} {clock : Nat} {actions : List Action} {state after : State}
variable {action : Action}

/-- Of the requests only `RESET` makes plain servo moves. -/
theorem reset_of_request {tid : Tid} {request : Request} {servoId angle : Nat}
    (may : tid.mayCall request = true) (member : .setAngle servoId angle ∈ request.code) :
    request.code = echoIocReset := by
  generalize request.code = code, entry_of_mayCall may = entry at member ⊢
  cases entry with
  | reset id => rfl
  | input id pin =>
    cases pin <;> simp [joyOpDirection, echoStateHandleInput, notifyReaders] at member
  | read id nonblock count => cases nonblock <;> simp [echoRead, buildSnapshot] at member
  | _ =>
    simp [echoStateSetMode, echoStateStartReplay, echoStateStop, stateOpStartReplay,
      stateOpCancelReplay, signalReplayDone, notifyReaders, buildSnapshot] at member

/-- The second arm is among the plain moves of a system call only in `RESET`. -/
theorem resetTail_of_request {tid : Tid} {request : Request} {angle : Nat} {rest : Code}
    (may : tid.mayCall request = true)
    (suffix : .setAngle echoServoTilt2 angle :: rest <:+ request.code) :
    .setAngle echoServoTilt2 angle :: rest = resetTail := by
  rw [reset_of_request may (suffix.subset (List.mem_cons_self ..))] at suffix
  simp [echoIocReset, echoStateStop, stateOpCancelReplay, signalReplayDone, notifyReaders,
    List.suffix_cons_iff, echoServoPan, echoServoTilt, echoServoTilt2] at suffix
  obtain ⟨rfl, rfl⟩ := suffix
  rfl

/-- The second arm is moved on its own by a `MOVE` that names it and by `RESET`. -/
theorem secondArm_call {call : ServoCall}
    (run : Run next anyStep (State.initial servo clock) actions state)
    (wellFormed : WellFormed state) (makes : state.servoCall? action = some call)
    (second : call.servoId = echoServoTilt2.val) :
    ∃ tid env, action = .step tid env ∧
      ((∃ rest, state.code tid = .setAngleOrReturn echoServoTilt2 call.angle :: rest) ∨
        state.code tid = resetTail ∧ call.angle = echoServoCenter) := by
  have notJoystick : ¬ ByJoystick echoServoTilt2 := by
    simp [ByJoystick, echoServoPan, echoServoTilt, echoServoTilt2]
  obtain ⟨tid, env, instr, rest, rfl, code, moves⟩ := movesServo_of makes
  refine ⟨tid, env, rfl, ?_⟩
  have own : tid.runs instr = true := owned_of_run run tid instr (by simp [code])
  by_cases worker : tid = .worker
  · subst worker
    cases moves with
    | plain servoId angle =>
      obtain rfl : servoId = echoServoTilt2.val := second
      exact absurd (wellFormed.snapshotted _ angle (by simp [code])).1 notJoystick
    | _ => simp [Tid.runs, Instr.ofWorker] at own
  have serves := serves_of_run worker run
  rw [code] at serves
  cases moves with
  | request servoId angle =>
    obtain rfl : servoId = echoServoTilt2.val := second
    exact Or.inl ⟨rest, code⟩
  | input servoId =>
    obtain rfl : servoId = echoServoTilt2.val := second
    generalize whole : Instr.moveServo echoServoTilt2 :: rest = left at serves
    cases serves with
    | idle => cases whole
    | request request may suffix =>
      subst whole
      exact absurd (byJoystick_of_request may (suffix.subset (List.mem_cons_self ..))
        (Or.inl rfl)) notJoystick
    | timer suffix =>
      subst whole
      exact absurd (inactivityTimerFn_runs _ (suffix.subset (List.mem_cons_self ..))) (by decide)
  | plain servoId angle =>
    obtain rfl : servoId = echoServoTilt2.val := second
    generalize whole : Instr.setAngle echoServoTilt2 angle :: rest = left at serves
    cases serves with
    | idle => cases whole
    | request request may suffix =>
      subst whole
      have tail := resetTail_of_request may suffix
      refine Or.inr ⟨code.trans tail, ?_⟩
      simpa [resetTail] using (List.cons.inj tail).1
    | timer suffix =>
      subst whole
      exact absurd (inactivityTimerFn_runs _ (suffix.subset (List.mem_cons_self ..)))
        (by simp [Instr.ofTimer])

/-- In the middle of a `RESET` the base is centred. -/
def ResetCentred (state : State) : Prop :=
  ∀ tid, state.betweenArms tid → state.dev.servo.pos echoServoPan = echoServoCenter

theorem secondArm_of_between {tid : Tid} (between : state.betweenArms tid) :
    .setAngle echoServoTilt2 echoServoCenter ∈ state.code tid :=
  between.1.subset (List.mem_cons_self ..)

/-- A call of `RESET` has both centring moves ahead. -/
theorem base_of_request {tid : Tid} {request : Request} (may : tid.mayCall request = true)
    (member : .setAngle echoServoTilt2 echoServoCenter ∈ request.code) :
    .setAngle echoServoPan echoServoCenter ∈ request.code := by
  rw [reset_of_request may member]
  decide

theorem pos_run_base {call : ServoCall} {ctx : EchoServoCtx} :
    (call.run ctx).1.pos echoServoPan =
      if call.servoId = echoServoPan.val then call.target else ctx.pos echoServoPan := by
  by_cases known : call.servoId < echoNumServos
  · rw [pos_run known, movePos_apply]
    by_cases base : call.servoId = echoServoPan.val
    · rw [if_pos base, if_pos (by simp [movedServos, base])]
    · have other : (⟨call.servoId, known⟩ : Fin echoNumServos) ≠ echoServoPan :=
        fun same => base (congrArg Fin.val same)
      rw [if_neg base, movedServos, if_neg other, if_neg (by simpa using other.symm)]
  · rw [run_unknown (by omega), if_neg]
    intro base
    exact known (base ▸ echoServoPan.isLt)

/-- The base rests while a `RESET` is in its middle. -/
theorem base_next {tid : Tid} (keeps : RequestsKeepMirror state action)
    (between : state.betweenArms tid) (moved : next state action = some after) :
    after.dev.servo.pos echoServoPan = state.dev.servo.pos echoServoPan := by
  cases makes : state.servoCall? action with
  | none => rw [servo_of_none moved makes]
  | some call =>
    rw [servo_of_call moved makes, pos_run_base]
    split
    · rename_i base
      by_contra elsewhere
      exact keeps.rests call makes base elsewhere tid between
    · rfl

theorem resetCentred_next (owned : Owned state) (wellFormed : WellFormed after)
    (keeps : RequestsKeepMirror state action) (centred : ResetCentred state)
    (moved : next state action = some after) : ResetCentred after := by
  intro tid between
  have earlier : state.betweenArms tid → after.dev.servo.pos echoServoPan = echoServoCenter :=
    fun before => (base_next keeps before moved).trans (centred tid before)
  by_cases worker : tid = .worker
  · subst worker
    have sound := (wellFormed.snapshotted _ _ (secondArm_of_between between)).1
    simp [ByJoystick, echoServoPan, echoServoTilt, echoServoTilt2] at sound
  cases moves owned worker moved with
  | still _ same =>
    refine earlier ?_
    rwa [State.betweenArms, State.code, same] at between
  | call request may code =>
    have ahead := secondArm_of_between between
    rw [code] at ahead
    exact absurd (base_of_request may ahead) (code ▸ between.2)
  | expire timer code =>
    have ahead := secondArm_of_between between
    rw [code] at ahead
    exact absurd ahead (by simp [inactivityTimerFn, stateOpStartReplay, notifyReaders])
  | back actor code =>
    have ahead := secondArm_of_between between
    simp [code] at ahead
  | step env instr rest done code taken left =>
    obtain ⟨tail, past⟩ := between
    rw [settle_code, left] at tail past
    by_cases base : instr = .setAngle echoServoPan echoServoCenter
    · subst base
      have makes : state.servoCall? (.step tid env) =
          some ⟨echoServoPan.val, echoServoCenter, env.i2c⟩ := by simp [State.servoCall?, code]
      rw [servo_of_call moved makes, pos_run_base, if_pos rfl]
      rfl
    · refine earlier ⟨?_, ?_⟩
      · exact code ▸ tail.trans (List.suffix_cons _ _)
      · rw [code]
        simpa [past] using Ne.symm base

/-- Requests that do not part the arms are enough: `RESET` finds the base centred. -/
theorem arms_synchronised_of_requests {simMode : Bool} {regs : Nat → Nat} {env : CreateEnv}
    (created : echoServoCreate simMode regs env = .ok servo) (centres : env.Centres)
    (run : Run next (fun state action => Succeeds action ∧ RequestsKeepMirror state action)
      (State.initial servo clock) actions state) : Synchronised state.dev.servo := by
  have positions : ∀ other, servo.pos other ≤ echoServoMax := by
    rw [(pos_created created).2]
    decide
  refine arms_synchronised created centres (run.strengthen _ ?_)
  intro actions state action run ok
  refine ⟨ok.1, fun call makes second => ?_⟩
  have wellFormed := (wellFormed_of_run positions run.any).1
  have centred : ResetCentred state := by
    refine run.invariant ResetCentred ?_ ?_
    · intro tid between
      have ahead := secondArm_of_between between
      simp [State.code, State.initial, Thread.initial] at ahead
    · intro actions before action after ran centred ok moved
      have later : Run next anyStep (State.initial servo clock) (actions ++ [action]) after :=
        .step ran.any trivial moved
      exact resetCentred_next (owned_of_run ran.any) (wellFormed_of_run positions later).1 ok.2
        centred moved
  obtain ⟨tid, stepEnv, rfl, ⟨rest, code⟩ | ⟨code, angle⟩⟩ :=
    secondArm_call run.any wellFormed makes second
  · exact ok.2.move tid stepEnv call.angle rest rfl code
  · have between : state.betweenArms tid := by
      refine ⟨code ▸ List.suffix_rfl, ?_⟩
      rw [code]
      simp [resetTail, notifyReaders, echoServoPan, echoServoTilt2]
    rw [centred tid between, ServoCall.target, angle]
    rfl

end Requests

/-- The test of `KeepsMirror`. -/
def keepsMirror (state : State) (action : Action) : Bool :=
  (state.servoCall? action).all fun call =>
    call.servoId != echoServoTilt2.val || call.target == state.dev.servo.pos echoServoPan

theorem keepsMirror_sound {state : State} {action : Action}
    (passed : keepsMirror state action = true) : KeepsMirror state action := by
  intro call makes second
  rw [keepsMirror, makes] at passed
  simpa [second] using passed

def moveCmd (servoId angle : Nat) : Request :=
  .write sizeofEchoCmd (some ⟨echoCmdMove, servoId, angle, 0⟩)

/-- The base is moved, and then the second arm to the same angle. -/
def moveBoth : List Action :=
  [.call (.proc 0) (moveCmd 0 10)] ++ steps (.proc 0) 4 ++
  [.call (.proc 0) (moveCmd 2 10)] ++ steps (.proc 0) 4

theorem succeeds_steps {tid : Tid} {count : Nat} {action : Action}
    (member : action ∈ steps tid count) : Succeeds action := by
  obtain ⟨-, rfl⟩ := List.mem_replicate.mp member
  rintro - - ⟨⟩ write
  rfl

theorem arms_synchronised_moveBoth :
    ∃ state, run next (State.initial simServo 0) moveBoth = some state ∧
      state.dev.servo.pos echoServoPan = 10 ∧ Synchronised state.dev.servo := by
  obtain ⟨state, ran, moved⟩ := exists_run next keepsMirror (State.initial simServo 0) moveBoth
    (fun state => state.dev.servo.pos echoServoPan == 10) (by decide)
  have succeeds : ∀ action ∈ moveBoth, Succeeds action := by
    intro action member
    simp only [moveBoth, List.mem_append, List.mem_singleton, or_assoc] at member
    rcases member with rfl | first | rfl | second
    · rintro - - ⟨⟩
    · exact succeeds_steps first
    · rintro - - ⟨⟩
    · exact succeeds_steps second
  have kept := (ran.restrict succeeds).mono
    (fun state action => Succeeds action ∧ KeepsMirror state action)
    fun _ _ both => ⟨both.1, keepsMirror_sound both.2⟩
  refine ⟨state, ran.execution, by simpa using moved, ?_⟩
  have created : echoServoCreate true (fun _ => 0) workingEnv = .ok simServo := rfl
  exact arms_synchronised created ⟨fun _ => rfl, fun _ => rfl, fun _ => rfl⟩ kept

/-- A `write` that moves the second arm alone. -/
theorem moveSecond_parts :
    echoServoCreate true (fun _ => 0) workingEnv = .ok simServo ∧
      ∃ state, run next (State.initial simServo 0)
          (.call (.proc 0) (moveCmd 2 10) :: steps (.proc 0) 1) = some state ∧
        state.dev.servo.pos echoServoPan = 90 ∧ state.dev.servo.pos echoServoTilt2 = 10 ∧
        ¬ Synchronised state.dev.servo := by
  obtain ⟨state, ran, facts⟩ := exists_run next (fun _ _ => true) (State.initial simServo 0)
    (.call (.proc 0) (moveCmd 2 10) :: steps (.proc 0) 1)
    (fun state => decide (state.dev.servo.pos echoServoPan = 90 ∧
      state.dev.servo.pos echoServoTilt2 = 10)) (by decide)
  obtain ⟨base, second⟩ := of_decide_eq_true facts
  refine ⟨rfl, state, ran.execution, base, second, fun synchronised => ?_⟩
  have := synchronised.pos
  omega

end EchoRobot
