import EchoRobot.Servo.Creation
import EchoRobot.Servo.Moves
import EchoRobot.Interleaving.Run

/-! The chip over the life of the driver: every byte that is written to it, from its
creation over any run to its destruction, on a bus that may fail at any byte. -/

namespace EchoRobot

open Interleaving Logs

/-- The byte writes of `pca9685_init_hw`, in order. -/
def initBytes : List ByteWrite :=
  [⟨pca9685RegMode1, mode1Sleep⟩, ⟨pca9685RegPrescale, pca9685Prescale50Hz⟩,
    ⟨pca9685RegMode1, mode1Ai⟩, ⟨pca9685RegMode1, mode1Restart + mode1Ai⟩]

theorem pca9685InitHw_eq (regs : Nat → Nat) (i2c : I2cResults) :
    pca9685InitHw regs i2c = (registers regs (completed i2c initBytes), answer i2c initBytes) := by
  unfold pca9685InitHw initBytes
  simp only [snd_pca9685WriteByte, completed, answer]
  by_cases first : i2c 0 < 0
  · ext <;> simp [first, pca9685WriteByte_failed]
  by_cases second : i2c 1 < 0
  · ext <;> simp [first, second, pca9685WriteByte_failed, pca9685WriteByte_done, pca9685RegMode1]
  by_cases third : i2c 2 < 0
  · ext <;> simp [first, second, third, pca9685WriteByte_failed, pca9685WriteByte_done,
      pca9685RegMode1, pca9685RegPrescale]
  by_cases fourth : i2c 3 < 0 <;>
    ext <;> simp [first, second, third, fourth, pca9685WriteByte_failed, pca9685WriteByte_done,
      pca9685RegMode1, pca9685RegPrescale]

/-- The byte writes that a creation completes. -/
def createBytes (simMode : Bool) (env : CreateEnv) : List ByteWrite :=
  if simMode then [] else
  completed env.init initBytes ++ (centringPwm env).flatMap PwmCall.completed

/-- What the bus answers while the servo subsystem is destroyed, servo by servo. -/
abbrev DestroyEnv := Fin echoNumServos → I2cResults

/-- `echo_servo_destroy` stops the pulses; no answer is checked. -/
def EchoServoCtx.stopped (ctx : EchoServoCtx) (env : DestroyEnv) : Nat → Nat :=
  if ctx.simMode then ctx.regs else
  let pan := pca9685SetPwm ctx.regs echoServoPan.val 0 0 (env echoServoPan)
  let tilt := pca9685SetPwm pan.1 echoServoTilt.val 0 0 (env echoServoTilt)
  (pca9685SetPwm tilt.1 echoServoTilt2.val 0 0 (env echoServoTilt2)).1

/-- The call of `pca9685_set_pwm` that stops a servo. -/
def stopPwm (env : DestroyEnv) (servo : Fin echoNumServos) : PwmCall := ⟨servo.val, 0, 0, env servo⟩

def stopCalls (env : DestroyEnv) : List PwmCall :=
  [echoServoPan, echoServoTilt, echoServoTilt2].map (stopPwm env)

def destroyBytes (simMode : Bool) (env : DestroyEnv) : List ByteWrite :=
  if simMode then [] else (stopCalls env).flatMap PwmCall.completed

theorem stopped_eq (ctx : EchoServoCtx) (env : DestroyEnv) :
    ctx.stopped env = registers ctx.regs (destroyBytes ctx.simMode env) := by
  have stopping : ∀ held : Nat → Nat, ∀ servo : Fin echoNumServos,
      (pca9685SetPwm held servo.val 0 0 (env servo)).1 =
        registers held (stopPwm env servo).completed :=
    fun held servo => congrArg Prod.fst (pca9685SetPwm_eq held (stopPwm env servo))
  unfold EchoServoCtx.stopped destroyBytes
  split
  · rfl
  · simp [stopping, stopCalls, registers_append]

/-- Awake at 50 Hz, with the register pointer advancing. -/
structure Configured (regs : Nat → Nat) : Prop where
  mode1 : regs pca9685RegMode1 = mode1Restart + mode1Ai
  prescale : regs pca9685RegPrescale = pca9685Prescale50Hz

/-- The register belongs to the channel of a servo. -/
def OfServo (reg : Nat) : Prop := ∃ servo : Fin echoNumServos, reg ∈ channelRegs servo

/-- What may be written to the chip as it stands: its prescaler only while it sleeps, a
pulse only while it is awake at 50 Hz. -/
inductive ChipLaw (regs : Nat → Nat) : ByteWrite → Prop where
  | mode1 {val : Nat} (known : val ∈ [mode1Sleep, mode1Ai, mode1Restart + mode1Ai]) :
      ChipLaw regs ⟨pca9685RegMode1, val⟩
  | prescale (asleep : regs pca9685RegMode1 = mode1Sleep) :
      ChipLaw regs ⟨pca9685RegPrescale, pca9685Prescale50Hz⟩
  | pulse {write : ByteWrite} (ofServo : OfServo write.reg) (byte : write.val < 256)
      (configured : Configured regs) : ChipLaw regs write

section Law
variable {regs : Nat → Nat}

/-- A pulse does not touch the configuration. -/
theorem configured_apply {write : ByteWrite} (ofServo : OfServo write.reg)
    (configured : Configured regs) : Configured (apply ByteWrite.writes regs write) := by
  obtain ⟨servo, member⟩ := ofServo
  have inside := servo.isLt
  simp only [channelRegs, List.mem_cons, List.not_mem_nil, or_false,
    channelBase_eq servo.isLt] at member
  have mode1 : write.writes pca9685RegMode1 = none := by
    refine if_neg ?_
    unfold pca9685RegMode1
    omega
  have prescale : write.writes pca9685RegPrescale = none := by
    refine if_neg ?_
    unfold pca9685RegPrescale
    unfold echoNumServos at inside
    omega
  exact ⟨(apply_none mode1).trans configured.mode1, (apply_none prescale).trans configured.prescale⟩

theorem byte_of_mem_bytes {pwm : PwmCall} {write : ByteWrite} (member : write ∈ pwm.bytes) :
    write.val < 256 := by
  simp only [PwmCall.bytes, List.mem_cons, List.not_mem_nil, or_false] at member
  rcases member with rfl | rfl | rfl | rfl <;> simp only <;> omega

/-- Calls for the channels of servos are lawful on a configured chip, however far they get. -/
theorem lawful_calls (calls : List PwmCall) (known : ∀ pwm ∈ calls, pwm.channel < echoNumServos)
    (configured : Configured regs) :
    Lawful ByteWrite.writes ChipLaw regs (calls.flatMap PwmCall.completed) ∧
      Configured (registers regs (calls.flatMap PwmCall.completed)) := by
  have inside : ∀ write ∈ calls.flatMap PwmCall.completed, OfServo write.reg ∧ write.val < 256 := by
    intro write member
    obtain ⟨pwm, called, member⟩ := List.mem_flatMap.mp member
    have sent : write ∈ pwm.bytes := (completed_isPrefix pwm.bytes).subset member
    exact ⟨⟨⟨pwm.channel, known pwm called⟩, mem_channelRegs pwm (known pwm called) sent⟩,
      byte_of_mem_bytes sent⟩
  refine lawful_of_inv configured ?_ ?_
  · exact fun write member regs configured =>
      .pulse (inside write member).1 (inside write member).2 configured
  · exact fun write member regs configured => configured_apply (inside write member).1 configured

theorem lawful_init : Lawful ByteWrite.writes ChipLaw regs initBytes := by
  refine ⟨.mode1 (by simp), .prescale ?_, .mode1 (by simp), .mode1 (by simp), trivial⟩
  exact apply_some (if_pos rfl)

theorem configured_init : Configured (registers regs initBytes) := by
  constructor <;>
    simp [initBytes, apply, ByteWrite.writes, pca9685RegMode1, pca9685RegPrescale]

end Law

section Calls
variable {calls : List PwmCall} {pwm : PwmCall}

/-- Calls for other channels leave a channel. -/
theorem channel_of_others (known : ∀ call ∈ calls, call.channel < echoNumServos) {channel : Nat}
    (own : channel < echoNumServos) (others : ∀ call ∈ calls, channel ≠ call.channel)
    (regs : Nat → Nat) :
    channelOn (registers regs (calls.flatMap PwmCall.completed)) channel = channelOn regs channel ∧
      channelOff (registers regs (calls.flatMap PwmCall.completed)) channel =
        channelOff regs channel := by
  induction calls generalizing regs with
  | nil => exact ⟨rfl, rfl⟩
  | cons call rest ih =>
    rw [List.flatMap_cons, registers_append]
    have sent : ∀ write ∈ call.completed, write ∈ call.bytes :=
      fun _ inside => (completed_isPrefix call.bytes).subset inside
    have here := channel_outside regs call (known call (by simp)) own (others call (by simp)) sent
    have later := ih (fun call member => known call (by simp [member]))
      (fun call member => others call (by simp [member])) (registers regs call.completed)
    exact ⟨later.1.trans here.1, later.2.trans here.2⟩

/-- Of calls for different channels, one that is answered throughout programs its own. -/
theorem channel_of_calls (known : ∀ call ∈ calls, call.channel < echoNumServos)
    (apart : calls.Pairwise fun call later => call.channel ≠ later.channel) (member : pwm ∈ calls)
    (on : pwm.on < 4096) (off : pwm.off < 4096) (completed : pwm.completed = pwm.bytes)
    (regs : Nat → Nat) :
    channelOn (registers regs (calls.flatMap PwmCall.completed)) pwm.channel = pwm.on ∧
      channelOff (registers regs (calls.flatMap PwmCall.completed)) pwm.channel = pwm.off := by
  induction calls generalizing regs with
  | nil => simp at member
  | cons call rest ih =>
    obtain ⟨different, apart⟩ := List.pairwise_cons.mp apart
    have behind : ∀ call ∈ rest, call.channel < echoNumServos :=
      fun call member => known call (by simp [member])
    rw [List.flatMap_cons, registers_append]
    rcases List.mem_cons.mp member with rfl | later
    · have own := known pwm (by simp)
      have kept := channel_of_others behind own different (registers regs pwm.completed)
      rw [kept.1, kept.2, completed]
      exact channel_bytes regs pwm own on off
    · exact ih behind apart later _

end Calls

section Life
variable {simMode : Bool} {before : Nat → Nat} {created : CreateEnv} {ctx : EchoServoCtx}

/-- A chip that is created has answered its whole initialisation. -/
theorem init_of_created (ok : echoServoCreate false before created = .ok ctx) :
    completed created.init initBytes = initBytes := by
  have passed : ¬ (pca9685InitHw before created.init).2 < 0 := by
    intro failed
    unfold echoServoCreate at ok
    simp only [Bool.false_eq_true, ↓reduceIte, failed] at ok
    by_cases allocated : created.allocated
    swap
    · simp [allocated] at ok
    by_cases adapter : created.adapter
    swap
    · simp [allocated, adapter] at ok
    by_cases client : created.client < 0 <;> simp [allocated, adapter, client] at ok
  rw [pca9685InitHw_eq, answer_neg] at passed
  push Not at passed
  exact completed_all passed

theorem regs_created (ok : echoServoCreate simMode before created = .ok ctx) :
    ctx.simMode = simMode ∧ ctx.regs = registers before (createBytes simMode created) := by
  cases simMode with
  | true => rw [create_simulated ok]; exact ⟨rfl, rfl⟩
  | false =>
    rw [create_hardware ok, pca9685InitHw_eq]
    exact ⟨rfl, (registers_append ..).symm⟩

/-- The bytes on the bus so far, the servos being in `ctx`. -/
structure OnBus (before : Nat → Nat) (ctx : EchoServoCtx) (log : List ByteWrite) : Prop where
  regs : ctx.regs = registers before log
  lawful : Lawful ByteWrite.writes ChipLaw before log
  configured : ctx.simMode = false → Configured ctx.regs
  silent : ctx.simMode = true → log = []

theorem onBus_created (ok : echoServoCreate simMode before created = .ok ctx) :
    OnBus before ctx (createBytes simMode created) := by
  obtain ⟨rfl, regs⟩ := regs_created ok
  cases simulated : ctx.simMode with
  | true =>
    rw [simulated] at regs
    exact ⟨regs, trivial, by simp [simulated], fun _ => rfl⟩
  | false =>
    rw [simulated] at regs ok
    have centring := lawful_calls (centringPwm created)
      (fun pwm member => (mem_centringPwm member).1) (@configured_init before)
    have log : createBytes false created =
        initBytes ++ (centringPwm created).flatMap PwmCall.completed := by
      simp [createBytes, init_of_created ok]
    refine ⟨regs, ?_, fun _ => ?_, by simp [simulated]⟩
    · rw [log]
      exact lawful_append.mpr ⟨lawful_init, centring.1⟩
    · rw [regs, log, registers_append]
      exact centring.2

/-- Further calls for the channels of servos go on lawfully. -/
theorem OnBus.calls {log : List ByteWrite} (onBus : OnBus before ctx log) (calls : List PwmCall)
    (known : ∀ pwm ∈ calls, pwm.channel < echoNumServos)
    (hardware : ctx.simMode = false) (pos : Fin echoNumServos → Nat) :
    OnBus before
      ⟨false, pos, registers ctx.regs (calls.flatMap PwmCall.completed)⟩
      (log ++ calls.flatMap PwmCall.completed) := by
  obtain ⟨lawful, configured⟩ := lawful_calls calls known (onBus.configured hardware)
  refine ⟨?_, ?_, fun _ => configured, by simp⟩
  · rw [onBus.regs, registers_append]
  · rw [onBus.regs] at lawful
    exact lawful_append.mpr ⟨onBus.lawful, lawful⟩

theorem onBus_run {log : List ByteWrite} (onBus : OnBus before ctx log) (call : ServoCall) :
    OnBus before (call.run ctx).1 (log ++ call.bytes ctx.simMode) := by
  cases simulated : ctx.simMode with
  | true =>
    have none : call.bytes true = [] := by simp [ServoCall.bytes, ServoCall.pwm]
    have regs : (call.run ctx).1.regs = ctx.regs := by rw [regs_run, simulated, none]; rfl
    have same : (call.run ctx).1.simMode = true := by rw [simMode_run, simulated]
    rw [none, List.append_nil]
    exact ⟨regs.trans onBus.regs, onBus.lawful, by simp [same], fun _ => onBus.silent simulated⟩
  | false =>
    have onward := onBus.calls (call.pwm false) (fun pwm member => (mem_pwm member).1) simulated
      (call.run ctx).1.pos
    have after : (call.run ctx).1 = ⟨(call.run ctx).1.simMode, (call.run ctx).1.pos,
        (call.run ctx).1.regs⟩ := rfl
    rw [after, simMode_run, regs_run, simulated]
    exact onward

/-- What an action sends over the bus. -/
def State.busBytes (state : State) (action : Action) : List ByteWrite :=
  ((state.servoCall? action).map fun call => call.bytes state.dev.servo.simMode).getD []

def onBus (log : List ByteWrite) (state : State) (action : Action) (_ : State) : List ByteWrite :=
  log ++ state.busBytes action

theorem onBus_next {state after : State} {action : Action} {log : List ByteWrite}
    (held : OnBus before state.dev.servo log) (moved : next state action = some after) :
    OnBus before after.dev.servo (log ++ state.busBytes action) := by
  unfold State.busBytes
  cases makes : state.servoCall? action with
  | none =>
    rw [servo_of_none moved makes]
    simpa using held
  | some call =>
    rw [servo_of_call moved makes]
    exact onBus_run held call

/-- The chip when the servos are destroyed in `ctx`, after the bytes of `log`. -/
structure ChipLife (before : Nat → Nat) (ctx : EchoServoCtx) (log : List ByteWrite)
    (env : DestroyEnv) : Prop where
  running : ctx.regs = registers before log
  ended : ctx.stopped env = registers before (log ++ destroyBytes ctx.simMode env)
  lawful : Lawful ByteWrite.writes ChipLaw before (log ++ destroyBytes ctx.simMode env)
  configured : ctx.simMode = false → Configured ctx.regs ∧ Configured (ctx.stopped env)
  silent : ctx.simMode = true → log ++ destroyBytes ctx.simMode env = []
  stopped : ctx.simMode = false → ∀ servo, (∀ write < 4, 0 ≤ env servo write) →
    channelOn (ctx.stopped env) servo = 0 ∧ channelOff (ctx.stopped env) servo = 0

theorem known_stopCalls {env : DestroyEnv} {pwm : PwmCall} (member : pwm ∈ stopCalls env) :
    pwm.channel < echoNumServos := by
  obtain ⟨servo, -, rfl⟩ := List.mem_map.mp member
  exact servo.isLt

theorem chipLife_of_onBus {log : List ByteWrite} (held : OnBus before ctx log) (env : DestroyEnv) :
    ChipLife before ctx log env := by
  have ended : ctx.stopped env = registers before (log ++ destroyBytes ctx.simMode env) := by
    rw [stopped_eq, held.regs, registers_append]
  cases simulated : ctx.simMode with
  | true =>
    have none : destroyBytes ctx.simMode env = [] := by rw [simulated]; rfl
    have empty : log ++ destroyBytes ctx.simMode env = [] := by
      rw [none, held.silent simulated]; rfl
    exact ⟨held.regs, ended, by rw [empty]; trivial, by simp [simulated], fun _ => empty,
      by simp [simulated]⟩
  | false =>
    have onward := held.calls (stopCalls env) (fun _ => known_stopCalls) simulated ctx.pos
    have regs : ctx.stopped env =
        registers ctx.regs ((stopCalls env).flatMap PwmCall.completed) := by
      rw [stopped_eq, simulated]; rfl
    refine ⟨held.regs, ended, ?_, fun _ => ⟨held.configured simulated, ?_⟩, by simp [simulated], ?_⟩
    · rw [simulated]
      exact onward.lawful
    · rw [regs]
      exact onward.configured rfl
    · intro _ servo answered
      rw [regs]
      have apart : (stopCalls env).Pairwise fun call later => call.channel ≠ later.channel := by
        simp [stopCalls, stopPwm, echoServoPan, echoServoTilt, echoServoTilt2]
      have called : stopPwm env servo ∈ stopCalls env := by
        refine List.mem_map.mpr ⟨servo, ?_, rfl⟩
        rcases pan_tilt_or_tilt2 servo with rfl | rfl | rfl <;> simp
      exact channel_of_calls (fun _ => known_stopCalls) apart called (by simp [stopPwm])
        (by simp [stopPwm]) (completed_all answered) ctx.regs

variable {clock : Nat} {actions : List Action} {state : State} {log : List ByteWrite}

/-- In every run, whatever the bus answers to any byte. -/
theorem chip_lawful (ok : echoServoCreate simMode before created = .ok ctx)
    (run : Run (withHistory next onBus) anyStep
      (State.initial ctx clock, createBytes simMode created) actions (state, log))
    (env : DestroyEnv) : ChipLife before state.dev.servo log env := by
  refine chipLife_of_onBus ?_ env
  exact run.invariant (fun pair => OnBus before pair.1.dev.servo pair.2) (onBus_created ok)
    fun _ pair action after _ held _ moved => by
      obtain ⟨reached, stepped, rfl⟩ := withHistory_next moved
      exact onBus_next held stepped

end Life

/-- A new chip on a working bus. -/
def centredServo : EchoServoCtx :=
  ⟨false, fun _ => echoServoCenter, registers (fun _ => 0) (createBytes false workingEnv)⟩

/-- A tilt whose third byte the bus does not take. -/
def brokenTilt : List Action :=
  [.call (.proc 0) (.write sizeofEchoCmd (some ⟨echoCmdMove, 1, 60, 0⟩)),
    .step (.proc 0) ⟨fun write => if write = 2 then -5 else 0, true, true⟩]

theorem chip_lawful_brokenTilt :
    ∃ ctx pair, echoServoCreate false (fun _ => 0) workingEnv = .ok ctx ∧
      Run (withHistory next onBus) anyStep
        (State.initial ctx 0, createBytes false workingEnv) brokenTilt pair ∧
      pair.2.length = 18 ∧ ∀ env, ChipLife (fun _ => 0) pair.1.dev.servo pair.2 env := by
  have created : echoServoCreate false (fun _ => 0) workingEnv = .ok centredServo := by
    obtain ⟨⟨simMode, pos, regs⟩, ok⟩ :
        ∃ ctx, echoServoCreate false (fun _ => 0) workingEnv = .ok ctx := ⟨_, rfl⟩
    obtain ⟨rfl, rfl⟩ := regs_created ok
    obtain rfl : pos = _ := (pos_created ok).2
    exact ok
  obtain ⟨pair, ran, sent⟩ := exists_run (withHistory next onBus) (fun _ _ => true)
    (State.initial centredServo 0, createBytes false workingEnv) brokenTilt
    (fun pair => pair.2.length == 18) (by decide)
  have onward := ran.mono anyStep fun _ _ _ => trivial
  exact ⟨centredServo, pair, created, onward, by simpa using sent,
    fun env => chip_lawful created onward env⟩

end EchoRobot
