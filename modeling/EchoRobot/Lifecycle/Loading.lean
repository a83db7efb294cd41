import EchoRobot.Lifecycle.Joystick
import EchoRobot.Resources.Stages
import EchoRobot.Servo.Creation

/-! Loading the module, with everything the subsystems ask the kernel for: `echo_init`
with its labels, the functions that create and destroy, and `echo_exit`. -/

namespace EchoRobot.Loading

open Resources

/-- What the module can hold. A context belongs to a subsystem, or is `echo_dev`. -/
inductive Held where
  | ctx (owner : Option Subsystem)
  | adapter
  | client
  | workqueue
  | gpio (number : Int)
  | irq (number : Int) (pin : Nat)
  | chrdevRegion
  | cdev
  | devClass
  | device
  | procEntry
  deriving DecidableEq

abbrev Log := List (LedgerEntry Held)

/-- The fields that `echo_servo_destroy` tests. -/
structure EchoServoCtx where
  simMode : Bool
  client : Bool
  adapter : Bool

/-- The positions and the chip are `EchoRobot.echoServoCreate`'s. -/
def echoServoCreate (simMode : Bool) (regs : Nat → Nat) (env : CreateEnv) :
    Log × Except Int EchoServoCtx :=
  let ctx := Held.ctx (some .servo)
  if !env.allocated then ([], .error (-ENOMEM)) else
  if simMode then ([.acquire ctx], .ok ⟨true, false, false⟩) else
  if !env.adapter then ([.acquire ctx, .release ctx], .error (-ENODEV)) else
  if env.client < 0 then
    ([.acquire ctx, .acquire .adapter, .release .adapter, .release ctx], .error env.client) else
  let init := pca9685InitHw regs env.init
  if init.2 < 0 then
    ([.acquire ctx, .acquire .adapter, .acquire .client, .release .client, .release .adapter,
      .release ctx], .error init.2) else
  ([.acquire ctx, .acquire .adapter, .acquire .client], .ok ⟨false, true, true⟩)

def echoServoDestroy (ctx : EchoServoCtx) : Log :=
  (if ctx.simMode then [] else
    (if ctx.client then [.release .client] else []) ++
      (if ctx.adapter then [.release .adapter] else [])) ++ [.release (.ctx (some .servo))]

def echoBufferCreate (allocated workqueue : Bool) : Log × Except Int Unit :=
  let ctx := Held.ctx (some .buffer)
  if !allocated then ([], .error (-ENOMEM)) else
  if !workqueue then ([.acquire ctx, .release ctx], .error (-ENOMEM)) else
  ([.acquire ctx, .acquire .workqueue], .ok ())

def echoBufferDestroy : Log := [.release .workqueue, .release (.ctx (some .buffer))]

def echoStateCreate (allocated : Bool) : Log × Except Int Unit :=
  if !allocated then ([], .error (-ENOMEM)) else ([.acquire (.ctx (some .state))], .ok ())

def echoStateDestroy : Log := [.release (.ctx (some .state))]

def ofJoystick : Joystick.Held → Held
  | .ctx => .ctx (some .joystick)
  | .gpio number => .gpio number
  | .irq number pin => .irq number pin

def echoNumGpio : Nat := 4

def echoJoystickCreate (gpioPins : Nat → Int) (simMode allocated : Bool)
    (env : Joystick.JoystickEnv) : Log × Except Int Joystick.JoystickCtx :=
  let created := Joystick.echoJoystickCreate echoNumGpio gpioPins simMode allocated env
  (created.1.map (LedgerEntry.map ofJoystick), created.2)

def echoJoystickDestroy (ctx : Joystick.JoystickCtx) : Log :=
  (Joystick.echoJoystickDestroy echoNumGpio ctx).map (LedgerEntry.map ofJoystick)

/-- What the kernel answers to `echo_chardev_create`, negative where it fails. -/
structure ChardevEnv where
  allocated : Bool
  allocRegion : Int
  cdevAdd : Int
  classCreate : Int
  deviceCreate : Int

/-- The fields that `echo_chardev_destroy` tests. -/
structure EchoChardevCtx where
  devClass : Bool
  device : Bool

def failAlloc : Log := [.release (.ctx (some .chardev))]
def failCdev : Log := .release .chrdevRegion :: failAlloc
def failClass : Log := .release .cdev :: failCdev
def failDevice : Log := .release .devClass :: failClass

def echoChardevCreate (env : ChardevEnv) : Log × Except Int EchoChardevCtx :=
  let ctx := Held.ctx (some .chardev)
  if !env.allocated then ([], .error (-ENOMEM)) else
  if env.allocRegion < 0 then (.acquire ctx :: failAlloc, .error env.allocRegion) else
  if env.cdevAdd < 0 then
    ([.acquire ctx, .acquire .chrdevRegion] ++ failCdev, .error env.cdevAdd) else
  if env.classCreate < 0 then
    ([.acquire ctx, .acquire .chrdevRegion, .acquire .cdev] ++ failClass,
      .error env.classCreate) else
  if env.deviceCreate < 0 then
    ([.acquire ctx, .acquire .chrdevRegion, .acquire .cdev, .acquire .devClass] ++ failDevice,
      .error env.deviceCreate) else
  ([.acquire ctx, .acquire .chrdevRegion, .acquire .cdev, .acquire .devClass, .acquire .device],
    .ok ⟨true, true⟩)

def echoChardevDestroy (ctx : EchoChardevCtx) : Log :=
  (if ctx.device then [.release .device] else []) ++
    (if ctx.devClass then [.release .devClass] else []) ++
    [.release .cdev, .release .chrdevRegion, .release (.ctx (some .chardev))]

def echoProcCreate (allocated entry : Bool) : Log × Except Int Unit :=
  let ctx := Held.ctx (some .proc)
  if !allocated then ([], .error (-ENOMEM)) else
  if !entry then ([.acquire ctx, .release ctx], .error (-ENOMEM)) else
  ([.acquire ctx, .acquire .procEntry], .ok ())

def echoProcDestroy : Log := [.release .procEntry, .release (.ctx (some .proc))]

/-- What the kernel answers while the module is loaded. -/
structure LoadEnv where
  device : Bool
  regs : Nat → Nat
  servo : CreateEnv
  buffer : Bool
  workqueue : Bool
  state : Bool
  joystick : Bool
  pins : Joystick.JoystickEnv
  chardev : ChardevEnv
  proc : Bool
  procEntry : Bool

/-- The contexts that `echo_dev` points to, as far as their ends depend on them. -/
structure EchoDev where
  servo : EchoServoCtx
  joystick : Joystick.JoystickCtx
  chardev : EchoChardevCtx

def errFree : Log := [.release (.ctx none)]
def errServo (servo : EchoServoCtx) : Log := echoServoDestroy servo ++ errFree
def errBuffer (servo : EchoServoCtx) : Log := echoBufferDestroy ++ errServo servo
def errState (servo : EchoServoCtx) : Log := echoStateDestroy ++ errBuffer servo
def errJoystick (servo : EchoServoCtx) (joystick : Joystick.JoystickCtx) : Log :=
  echoJoystickDestroy joystick ++ errState servo
def errChardev (dev : EchoDev) : Log :=
  echoChardevDestroy dev.chardev ++ errJoystick dev.servo dev.joystick

/-- Every failure but the first is reported as `-ENODEV`. -/
def echoInit (simMode : Bool) (gpioPins : Nat → Int) (env : LoadEnv) : Log × Except Int EchoDev :=
  if !env.device then ([], .error (-ENOMEM)) else
  let servo := echoServoCreate simMode env.regs env.servo
  let log := .acquire (.ctx none) :: servo.1
  match servo.2 with
  | .error _ => (log ++ errFree, .error (-ENODEV))
  | .ok servoCtx =>
  let buffer := echoBufferCreate env.buffer env.workqueue
  let log := log ++ buffer.1
  match buffer.2 with
  | .error _ => (log ++ errServo servoCtx, .error (-ENODEV))
  | .ok _ =>
  let state := echoStateCreate env.state
  let log := log ++ state.1
  match state.2 with
  | .error _ => (log ++ errBuffer servoCtx, .error (-ENODEV))
  | .ok _ =>
  let joystick := echoJoystickCreate gpioPins simMode env.joystick env.pins
  let log := log ++ joystick.1
  match joystick.2 with
  | .error _ => (log ++ errState servoCtx, .error (-ENODEV))
  | .ok joystickCtx =>
  let chardev := echoChardevCreate env.chardev
  let log := log ++ chardev.1
  match chardev.2 with
  | .error _ => (log ++ errJoystick servoCtx joystickCtx, .error (-ENODEV))
  | .ok chardevCtx =>
  let dev : EchoDev := ⟨servoCtx, joystickCtx, chardevCtx⟩
  let proc := echoProcCreate env.proc env.procEntry
  let log := log ++ proc.1
  match proc.2 with
  | .error _ => (log ++ errChardev dev, .error (-ENODEV))
  | .ok _ => (log, .ok dev)

def echoExit (dev : EchoDev) : Log :=
  echoProcDestroy ++ echoChardevDestroy dev.chardev ++ echoJoystickDestroy dev.joystick ++
    echoStateDestroy ++ echoBufferDestroy ++ echoServoDestroy dev.servo ++ errFree

/-- The servo is created here when it is created with its chip. -/
theorem echoServoCreate_result (simMode : Bool) (regs : Nat → Nat) (env : CreateEnv) :
    (echoServoCreate simMode regs env).2.map (fun _ => ()) =
      (EchoRobot.echoServoCreate simMode regs env).map fun _ => () := by
  unfold echoServoCreate EchoRobot.echoServoCreate
  dsimp only
  split
  · rfl
  split
  · rfl
  split
  · rfl
  split
  · rfl
  split <;> rfl

/-- What the module's own steps show of the ledger. -/
def moduleInstr : LedgerEntry Held → Option ModuleInstr
  | .acquire (.ctx (some subsystem)) => some (.create subsystem)
  | .acquire (.irq _ pin) => (Joystick.gpioAt pin).map .requestIrq
  | .release (.irq _ pin) => (Joystick.gpioAt pin).map .freeIrq
  | .release .workqueue => some .destroyWorkqueue
  | .release (.ctx (some subsystem)) => some (.kfree subsystem)
  | _ => none

/-- The steps that only wait. -/
def waits : ModuleInstr → Bool
  | .timerDeleteSync | .cancelWorkSync => true
  | _ => false

@[simp] theorem echoServoDestroy_module (ctx : EchoServoCtx) :
    (echoServoDestroy ctx).filterMap moduleInstr = [.kfree .servo] := by
  obtain ⟨simMode, client, adapter⟩ := ctx
  cases simMode <;> cases client <;> cases adapter <;> rfl

@[simp] theorem echoJoystickDestroy_module (ctx : Joystick.JoystickCtx) :
    (echoJoystickDestroy ctx).filterMap moduleInstr =
      EchoRobot.echoJoystickDestroy ctx.simMode := by
  obtain ⟨pins, irqs, pinIdx, simMode⟩ := ctx
  cases simMode <;> rfl

@[simp] theorem echoChardevDestroy_module (ctx : EchoChardevCtx) :
    (echoChardevDestroy ctx).filterMap moduleInstr = [.kfree .chardev] := by
  obtain ⟨devClass, device⟩ := ctx
  cases devClass <;> cases device <;> rfl

/-- The module's steps undo what the ledger releases, in its order. -/
theorem errChardev_module (dev : EchoDev) :
    (errChardev dev).filterMap moduleInstr =
      (EchoRobot.errChardev dev.joystick.simMode).filter (!waits ·) := by
  simp only [errChardev, errJoystick, errState, errBuffer, errServo, List.filterMap_append,
    echoServoDestroy_module, echoJoystickDestroy_module, echoChardevDestroy_module]
  cases dev.joystick.simMode <;> rfl

theorem echoExit_module (dev : EchoDev) :
    (echoExit dev).filterMap moduleInstr =
      (EchoRobot.echoExit dev.joystick.simMode).filter (!waits ·) := by
  have exit : echoExit dev = echoProcDestroy ++ errChardev dev := by
    simp [echoExit, errChardev, errJoystick, errState, errBuffer, errServo]
  rw [exit, List.filterMap_append, errChardev_module]
  cases dev.joystick.simMode <;> rfl

/-- What a loaded module holds. -/
def Needs (simMode : Bool) (gpioPins : Nat → Int) (env : LoadEnv) : Held → Prop
  | .adapter | .client => simMode = false
  | .gpio number => simMode = false ∧ ∃ pin < echoNumGpio, gpioPins pin = number
  | .irq number pin => simMode = false ∧ pin < echoNumGpio ∧ env.pins.gpioToIrq pin = number
  | _ => True

/-- A load leaves the module with everything it needs, all of which `echo_exit` gives back,
or with nothing; and nothing is acquired twice. -/
structure LoadsExactly (simMode : Bool) (gpioPins : Nat → Int) (env : LoadEnv)
    (created : Log × Except Int EchoDev) : Prop where
  succeeds : ∀ dev, created.2 = .ok dev → ∃ held, book [] created.1 = some held ∧ held.Nodup ∧
    (∀ resource, resource ∈ held ↔ Needs simMode gpioPins env resource) ∧
    book held (echoExit dev) = some []
  fails : ∀ ret, created.2 = .error ret → book [] created.1 = some [] ∧
    ret = if env.device then -ENODEV else -ENOMEM
  once : ∀ resource, created.1.count (.acquire resource) ≤ 1

/-- The subsystem that acquires a resource, if it is not `echo_init` itself. -/
def Held.owner : Held → Option Subsystem
  | .ctx owner => owner
  | .adapter | .client => some .servo
  | .workqueue => some .buffer
  | .gpio _ | .irq _ _ => some .joystick
  | .chrdevRegion | .cdev | .devClass | .device => some .chardev
  | .procEntry => some .proc

section Stages
variable {simMode : Bool} {gpioPins : Nat → Int} {env : LoadEnv}

/-- The part of one subsystem. -/
def part (simMode : Bool) (gpioPins : Nat → Int) (env : LoadEnv) (own : Option Subsystem)
    (resource : Held) : Prop :=
  resource.owner = own ∧ Needs simMode gpioPins env resource

def deviceCreate (allocated : Bool) : Log × Except Int Unit :=
  if !allocated then ([], .error (-ENOMEM)) else ([.acquire (.ctx none)], .ok ())

/-- `echo_init` in stages, each under the subsystem that it creates. -/
def stages (simMode : Bool) (gpioPins : Nat → Int) (env : LoadEnv) :
    List (Option Subsystem × Phase Held) :=
  [(none, .ofResult (deviceCreate env.device) (fun _ => errFree) (part simMode gpioPins env none)),
    (some .servo, .ofResult (echoServoCreate simMode env.regs env.servo) echoServoDestroy
      (part simMode gpioPins env (some .servo))),
    (some .buffer, .ofResult (echoBufferCreate env.buffer env.workqueue)
      (fun _ => echoBufferDestroy) (part simMode gpioPins env (some .buffer))),
    (some .state, .ofResult (echoStateCreate env.state) (fun _ => echoStateDestroy)
      (part simMode gpioPins env (some .state))),
    (some .joystick, .ofResult (echoJoystickCreate gpioPins simMode env.joystick env.pins)
      echoJoystickDestroy (part simMode gpioPins env (some .joystick))),
    (some .chardev, .ofResult (echoChardevCreate env.chardev) echoChardevDestroy
      (part simMode gpioPins env (some .chardev))),
    (some .proc, .ofResult (echoProcCreate env.proc env.procEntry) (fun _ => echoProcDestroy)
      (part simMode gpioPins env (some .proc)))]

/-- The labels of `echo_init` undo what the stages before the failed one have done. -/
theorem echoInit_stages (simMode : Bool) (gpioPins : Nat → Int) (env : LoadEnv) :
    let whole := loading ((stages simMode gpioPins env).map Prod.snd)
    (echoInit simMode gpioPins env).1 = whole.log ∧
      (∀ ret, (echoInit simMode gpioPins env).2 = .error ret →
        whole.failed = true ∧ ret = if env.device then -ENODEV else -ENOMEM) ∧
      ∀ dev, (echoInit simMode gpioPins env).2 = .ok dev →
        whole.failed = false ∧ echoExit dev = whole.undo := by
  unfold echoInit stages deviceCreate
  cases device : env.device
  · simp [loading, Phase.andThen, Phase.ofResult]
  obtain ⟨servoLog, servo⟩ := echoServoCreate simMode env.regs env.servo
  obtain ⟨bufferLog, buffer⟩ := echoBufferCreate env.buffer env.workqueue
  obtain ⟨stateLog, state⟩ := echoStateCreate env.state
  obtain ⟨joystickLog, joystick⟩ := echoJoystickCreate gpioPins simMode env.joystick env.pins
  obtain ⟨chardevLog, chardev⟩ := echoChardevCreate env.chardev
  obtain ⟨procLog, proc⟩ := echoProcCreate env.proc env.procEntry
  cases servo
  · simp [loading, Phase.andThen, Phase.ofResult]
  cases buffer
  · simp [loading, Phase.andThen, Phase.ofResult, errServo]
  cases state
  · simp [loading, Phase.andThen, Phase.ofResult, errBuffer, errServo]
  cases joystick
  · simp [loading, Phase.andThen, Phase.ofResult, errState, errBuffer, errServo]
  cases chardev
  · simp [loading, Phase.andThen, Phase.ofResult, errJoystick, errState, errBuffer, errServo]
  cases proc
  · simp [loading, Phase.andThen, Phase.ofResult, errChardev, errJoystick, errState, errBuffer,
      errServo]
  · simp [loading, Phase.andThen, Phase.ofResult, Phase.nothing, echoExit]

theorem device_sound :
    (Phase.ofResult (deviceCreate env.device) (fun _ => errFree)
      (part simMode gpioPins env none)).SoundFor Held.owner none := by
  unfold deviceCreate
  cases env.device
  · exact failed_sound rfl List.nodup_nil (by simp [acquired])
  · refine created_sound rfl (fun resource => ?_) rfl (by decide) rfl (by decide)
    cases resource <;> simp [part, Needs, Held.owner]

theorem servo_sound :
    (Phase.ofResult (echoServoCreate simMode env.regs env.servo) echoServoDestroy
      (part simMode gpioPins env (some .servo))).SoundFor Held.owner (some .servo) := by
  unfold echoServoCreate
  cases env.servo.allocated
  · exact failed_sound rfl List.nodup_nil (by simp [acquired])
  cases simMode with
  | true =>
    refine created_sound rfl (fun resource => ?_) rfl (by decide) rfl (by decide)
    cases resource <;> simp [part, Needs, Held.owner]
  | false =>
    simp only [Bool.not_true, Bool.false_eq_true, ↓reduceIte]
    split
    · exact failed_sound rfl (by decide) (by decide)
    split
    · exact failed_sound rfl (by decide) (by decide)
    split
    · exact failed_sound rfl (by decide) (by decide)
    · refine created_sound rfl (fun resource => ?_) rfl (by decide) rfl (by decide)
      cases resource <;> simp [part, Needs, Held.owner]

theorem buffer_sound :
    (Phase.ofResult (echoBufferCreate env.buffer env.workqueue) (fun _ => echoBufferDestroy)
      (part simMode gpioPins env (some .buffer))).SoundFor Held.owner (some .buffer) := by
  unfold echoBufferCreate
  cases env.buffer
  · exact failed_sound rfl List.nodup_nil (by simp [acquired])
  cases env.workqueue
  · exact failed_sound rfl (by decide) (by decide)
  · refine created_sound rfl (fun resource => ?_) rfl (by decide) rfl (by decide)
    cases resource <;> simp [part, Needs, Held.owner]

theorem state_sound :
    (Phase.ofResult (echoStateCreate env.state) (fun _ => echoStateDestroy)
      (part simMode gpioPins env (some .state))).SoundFor Held.owner (some .state) := by
  unfold echoStateCreate
  cases env.state
  · exact failed_sound rfl List.nodup_nil (by simp [acquired])
  · refine created_sound rfl (fun resource => ?_) rfl (by decide) rfl (by decide)
    cases resource <;> simp [part, Needs, Held.owner]

theorem chardev_sound :
    (Phase.ofResult (echoChardevCreate env.chardev) echoChardevDestroy
      (part simMode gpioPins env (some .chardev))).SoundFor Held.owner (some .chardev) := by
  unfold echoChardevCreate
  cases env.chardev.allocated
  · exact failed_sound rfl List.nodup_nil (by simp [acquired])
  simp only [Bool.not_true, Bool.false_eq_true, ↓reduceIte]
  split
  · exact failed_sound rfl (by decide) (by decide)
  split
  · exact failed_sound rfl (by decide) (by decide)
  split
  · exact failed_sound rfl (by decide) (by decide)
  split
  · exact failed_sound rfl (by decide) (by decide)
  · refine created_sound rfl (fun resource => ?_) rfl (by decide) rfl (by decide)
    cases resource <;> simp [part, Needs, Held.owner]

theorem proc_sound :
    (Phase.ofResult (echoProcCreate env.proc env.procEntry) (fun _ => echoProcDestroy)
      (part simMode gpioPins env (some .proc))).SoundFor Held.owner (some .proc) := by
  unfold echoProcCreate
  cases env.proc
  · exact failed_sound rfl List.nodup_nil (by simp [acquired])
  cases env.procEntry
  · exact failed_sound rfl (by decide) (by decide)
  · refine created_sound rfl (fun resource => ?_) rfl (by decide) rfl (by decide)
    cases resource <;> simp [part, Needs, Held.owner]

theorem ofJoystick_injective : Function.Injective ofJoystick := by
  intro first second same
  cases first <;> cases second <;> simp_all [ofJoystick]

theorem acquired_echoJoystickDestroy (ctx : Joystick.JoystickCtx) :
    acquired (echoJoystickDestroy ctx) = [] := by
  obtain ⟨pins, irqs, pinIdx, simMode⟩ := ctx
  cases simMode <;> rfl

/-- The joystick's part, under the names that the driver itself has for it. -/
theorem mem_map_ofJoystick {held : List Joystick.Held}
    (all : Joystick.HoldsAll echoNumGpio gpioPins env.pins held) (resource : Held) :
    resource ∈ held.map ofJoystick ↔ part false gpioPins env (some .joystick) resource := by
  simp only [List.mem_map, all.exact]
  constructor
  · rintro ⟨own, rfl | ⟨pin, inside, rfl | rfl⟩, rfl⟩
    · exact ⟨rfl, trivial⟩
    · exact ⟨rfl, rfl, pin, inside, rfl⟩
    · exact ⟨rfl, rfl, inside, rfl⟩
  · rintro ⟨owner, needs⟩
    cases resource with
    | ctx other =>
      obtain rfl : other = some .joystick := owner
      exact ⟨.ctx, Or.inl rfl, rfl⟩
    | gpio number =>
      obtain ⟨-, pin, inside, rfl⟩ := needs
      exact ⟨_, Or.inr ⟨pin, inside, Or.inl rfl⟩, rfl⟩
    | irq number pin =>
      obtain ⟨-, inside, rfl⟩ := needs
      exact ⟨_, Or.inr ⟨pin, inside, Or.inr rfl⟩, rfl⟩
    | _ => simp [Held.owner] at owner

/-- Outside simulation the loop over the pins is the joystick's part. -/
theorem joystick_sound (distinct : simMode = false → ∀ pin < echoNumGpio, ∀ other < echoNumGpio,
    gpioPins pin = gpioPins other → pin = other) :
    (Phase.ofResult (echoJoystickCreate gpioPins simMode env.joystick env.pins) echoJoystickDestroy
      (part simMode gpioPins env (some .joystick))).SoundFor Held.owner (some .joystick) := by
  have own : ∀ log : Joystick.Log, ∀ resource ∈ acquired (log.map (LedgerEntry.map ofJoystick)),
      resource.owner = some .joystick := by
    intro log resource member
    rw [acquired_map] at member
    obtain ⟨held, -, rfl⟩ := List.mem_map.mp member
    cases held <;> rfl
  cases env.joystick with
  | false => exact failed_sound rfl List.nodup_nil (own [])
  | true =>
  cases simMode with
  | true =>
    refine created_sound rfl (fun resource => ?_) rfl (List.nodup_singleton _) rfl
      (own _)
    cases resource <;> simp [part, Needs, Held.owner, ofJoystick]
  | false =>
    have done : Joystick.LoopDone gpioPins env.pins 0 echoNumGpio
        (Joystick.requestPins env.pins echoNumGpio 0
          ⟨gpioPins, fun _ => 0, fun _ => 0, false⟩) :=
      Joystick.loop_done (distinct rfl) echoNumGpio (Nat.zero_add _)
        ⟨rfl, rfl, fun pin below => absurd below (Nat.not_lt_zero pin),
          fun pin below => absurd below (Nat.not_lt_zero pin)⟩
        fun pin below => absurd below (Nat.not_lt_zero pin)
    have unwinds := Joystick.unwinds_of_loopDone done
    unfold echoJoystickCreate Joystick.echoJoystickCreate
    simp only [↓reduceIte, Bool.false_eq_true]
    generalize Joystick.requestPins env.pins echoNumGpio 0 ⟨gpioPins, fun _ => 0, fun _ => 0, false⟩
      = loop at unwinds ⊢
    obtain ⟨log, result⟩ := loop
    have once : (acquired ((.acquire .ctx :: log).map (LedgerEntry.map ofJoystick))).Nodup := by
      rw [acquired_map]
      refine List.Nodup.map ofJoystick_injective (List.nodup_iff_count_le_one.mpr fun own => ?_)
      rw [count_acquired]
      exact unwinds.once own
    cases result with
    | error ret => 
      exact failed_sound (book_map ofJoystick_injective (unwinds.fails ret rfl).2.1) once (own _)
    | ok ctx =>
      obtain ⟨-, -, -, held, booked, all, undone, -⟩ := unwinds.succeeds ctx rfl
      exact created_sound (book_map ofJoystick_injective booked) (mem_map_ofJoystick all)
        (book_map ofJoystick_injective undone) once (acquired_echoJoystickDestroy ctx)
        (own _)

theorem stage_sound (distinct : simMode = false → ∀ pin < echoNumGpio, ∀ other < echoNumGpio,
    gpioPins pin = gpioPins other → pin = other) :
    ∀ entry ∈ stages simMode gpioPins env, entry.2.SoundFor Held.owner entry.1 := by
  intro entry member
  simp only [stages, List.mem_cons, List.not_mem_nil, or_false] at member
  rcases member with rfl | rfl | rfl | rfl | rfl | rfl | rfl
  · exact device_sound
  · exact servo_sound
  · exact buffer_sound
  · exact state_sound
  · exact joystick_sound distinct
  · exact chardev_sound
  · exact proc_sound

theorem stages_sound (distinct : simMode = false → ∀ pin < echoNumGpio, ∀ other < echoNumGpio,
    gpioPins pin = gpioPins other → pin = other) :
    (loading ((stages simMode gpioPins env).map Prod.snd)).Sound :=
  owned_sound (by simp [stages]) (stage_sound distinct)

/-- The parts of the subsystems make up the whole. -/
theorem stages_needs (resource : Held) :
    (loading ((stages simMode gpioPins env).map Prod.snd)).needs resource ↔
      Needs simMode gpioPins env resource := by
  rw [loading_needs]
  constructor
  · rintro ⟨stage, member, needed⟩
    simp only [stages, List.map_cons, List.map_nil, List.mem_cons, List.not_mem_nil, or_false]
      at member
    rcases member with rfl | rfl | rfl | rfl | rfl | rfl | rfl <;> exact needed.2
  · intro needed
    rcases own : resource.owner with _ | _ | _ | _ | _ | _ | _ <;>
      simp only [stages, List.map_cons, List.map_nil, List.exists_mem_cons_iff, Phase.ofResult,
        part, own, needed, true_and, true_or, or_true]

end Stages

/-- Loading takes what the module needs or nothing, and unloading gives all of it back. -/
theorem loads_exactly (simMode : Bool) (gpioPins : Nat → Int) (env : LoadEnv)
    (distinct : simMode = false → ∀ pin < echoNumGpio, ∀ other < echoNumGpio,
      gpioPins pin = gpioPins other → pin = other) :
    LoadsExactly simMode gpioPins env (echoInit simMode gpioPins env) := by
  obtain ⟨log, error, ok⟩ := echoInit_stages simMode gpioPins env
  have sound := @stages_sound simMode gpioPins env distinct
  refine ⟨fun dev created => ?_, fun ret failed => ?_, fun resource => ?_⟩
  · obtain ⟨succeeded, undo⟩ := ok dev created
    obtain ⟨held, booked, needs, undone⟩ := sound.succeeds succeeded
    rw [log, undo]
    exact ⟨held, booked, book_nodup List.nodup_nil booked,
      fun resource => (needs resource).trans (stages_needs resource), undone⟩
  · obtain ⟨stopped, code⟩ := error ret failed
    rw [log]
    exact ⟨sound.fails stopped, code⟩
  · rw [log, ← count_acquired]
    exact List.nodup_iff_count_le_one.mp sound.once resource

/-- Everything is granted, but the proc entry. -/
def noProcEntry : LoadEnv :=
  ⟨true, fun _ => 0, workingEnv, true, true, true, true,
    ⟨fun _ => 0, fun _ => 0, fun i => 100 + i, fun _ => 0⟩, ⟨true, 0, 0, 0, 0⟩, true, false⟩

/-- The last step fails, and all that came before it is undone. -/
theorem loads_exactly_noProcEntry :
    (echoInit false Joystick.fourPins noProcEntry).1.length = 44 ∧
      book [] (echoInit false Joystick.fourPins noProcEntry).1 = some [] := by
  have fails : (echoInit false Joystick.fourPins noProcEntry).2 = .error (-ENODEV) := rfl
  have loads := loads_exactly false Joystick.fourPins noProcEntry (by decide)
  exact ⟨rfl, (loads.fails _ fails).1⟩

end EchoRobot.Loading
