import EchoRobot.Model.Step
import Mathlib.Data.List.Induction
import Mathlib.Data.List.Perm.Basic

/-! Joystick calls one after the other: what they do to the positions and to the
recording. Calls for different servos can be exchanged. -/

namespace EchoRobot

open Interleaving

def EchoGpio.servo : EchoGpio → Fin echoNumServos
  | .up | .down => echoServoTilt
  | .left | .right => echoServoPan

def EchoGpio.delta : EchoGpio → Int
  | .up | .right => echoAngleStep
  | .down | .left => -echoAngleStep

theorem joyOpDirection_eq (pin : EchoGpio) :
    joyOpDirection pin = echoStateHandleInput pin.servo pin.delta := by
  cases pin <;> rfl

/-- The positions after one call. -/
def EchoGpio.move (pin : EchoGpio) (pos : Fin echoNumServos → Nat) : Fin echoNumServos → Nat :=
  movePos pos pin.servo (clampAngle (pos pin.servo) pin.delta)

theorem servo_cases (pin : EchoGpio) : pin.servo = echoServoTilt ∨ pin.servo = echoServoPan := by
  cases pin <;> simp [EchoGpio.servo]

section Move
variable {pin other : EchoGpio} {pos : Fin echoNumServos → Nat} {angle : Nat}

theorem movePos_tilt :
    movePos pos echoServoTilt angle = Function.update pos echoServoTilt angle := by
  unfold movePos
  rw [if_neg (by decide)]

theorem movePos_pan : movePos pos echoServoPan angle =
    Function.update (Function.update pos echoServoPan angle) echoServoTilt2 angle := by
  unfold movePos
  rw [if_pos rfl]

theorem movePos_own : movePos pos pin.servo angle pin.servo = angle := by
  rcases servo_cases pin with servo | servo
  · rw [servo, movePos_tilt, Function.update_self]
  · rw [servo, movePos_pan, Function.update_of_ne (by decide), Function.update_self]

theorem movePos_other (different : pin.servo ≠ other.servo) :
    movePos pos pin.servo angle other.servo = pos other.servo := by
  rcases servo_cases pin with servo | servo
  · rw [servo, movePos_tilt, Function.update_of_ne (servo ▸ different.symm)]
  · rw [servo, movePos_pan, Function.update_of_ne _, Function.update_of_ne (servo ▸ different.symm)]
    rcases servo_cases other with target | target <;> rw [target] <;> decide

theorem tilt_pan_comm {angle' : Nat} :
    movePos (movePos pos echoServoPan angle') echoServoTilt angle =
      movePos (movePos pos echoServoTilt angle) echoServoPan angle' := by
  have pan : echoServoPan ≠ echoServoTilt := by decide
  have mirror : echoServoTilt2 ≠ echoServoTilt := by decide
  simp only [movePos_tilt, movePos_pan]
  rw [Function.update_comm mirror, Function.update_comm pan]

theorem movePos_comm {angle' : Nat} (different : pin.servo ≠ other.servo) :
    movePos (movePos pos other.servo angle') pin.servo angle =
      movePos (movePos pos pin.servo angle) other.servo angle' := by
  rcases servo_cases pin with own | own <;> rcases servo_cases other with target | target
  · exact absurd (own.trans target.symm) different
  · rw [own, target, tilt_pan_comm]
  · rw [own, target, tilt_pan_comm]
  · exact absurd (own.trans target.symm) different

@[simp] theorem move_own : pin.move pos pin.servo = clampAngle (pos pin.servo) pin.delta :=
  movePos_own

theorem move_other (different : pin.servo ≠ other.servo) :
    pin.move pos other.servo = pos other.servo :=
  movePos_other different

theorem move_comm (different : pin.servo ≠ other.servo) :
    pin.move (other.move pos) = other.move (pin.move pos) := by
  unfold EchoGpio.move
  rw [movePos_other different.symm, movePos_other different]
  exact movePos_comm different

end Move

/-- The positions after the calls in order. -/
def moveAll (pos : Fin echoNumServos → Nat) (pins : List EchoGpio) : Fin echoNumServos → Nat :=
  pins.foldl (fun pos pin => pin.move pos) pos

/-- Callers that have moved but not recorded: each holds the angle that its call
gives when the calls are made in the order of the queue. -/
def AnglesFit (newAngle : Tid → Nat) (pin : Tid → EchoGpio) :
    (Fin echoNumServos → Nat) → List Tid → Prop
  | _, [] => True
  | pos, tid :: rest =>
    newAngle tid = (pin tid).move pos (pin tid).servo ∧
      AnglesFit newAngle pin ((pin tid).move pos) rest

section Queue
variable {newAngle : Tid → Nat} {pin : Tid → EchoGpio} {queue : List Tid}
variable {pos : Fin echoNumServos → Nat}

theorem anglesFit_snoc {tid : Tid} (fits : AnglesFit newAngle pin pos queue)
    (own : newAngle tid =
      (pin tid).move (moveAll pos (queue.map pin)) (pin tid).servo) :
    AnglesFit newAngle pin pos (queue ++ [tid]) := by
  induction queue generalizing pos with
  | nil => exact ⟨own, trivial⟩
  | cons head rest ih => exact ⟨fits.1, ih fits.2 own⟩

theorem anglesFit_congr {newAngle' : Tid → Nat} {pin' : Tid → EchoGpio}
    (fits : AnglesFit newAngle pin pos queue)
    (same : ∀ tid ∈ queue, newAngle' tid = newAngle tid ∧ pin' tid = pin tid) :
    AnglesFit newAngle' pin' pos queue := by
  induction queue generalizing pos with
  | nil => trivial
  | cons head rest ih =>
    obtain ⟨angle, label⟩ := same head (by simp)
    obtain ⟨own, later⟩ := fits
    constructor
    · rw [angle, label]
      exact own
    · rw [label]
      exact ih later fun tid member => same tid (by simp [member])

/-- The oldest call of a servo can be taken out of the queue and made first. -/
theorem serve_oldest {tid : Tid} (fits : AnglesFit newAngle pin pos queue)
    (oldest : queue.find? (fun other => (pin other).servo == (pin tid).servo) = some tid) :
    newAngle tid = (pin tid).move pos (pin tid).servo ∧
      AnglesFit newAngle pin ((pin tid).move pos) (queue.erase tid) ∧
      moveAll pos (queue.map pin) = moveAll ((pin tid).move pos) ((queue.erase tid).map pin) := by
  induction queue generalizing pos with
  | nil => simp at oldest
  | cons head rest ih =>
    obtain ⟨own, later⟩ := fits
    by_cases same : (pin head).servo = (pin tid).servo
    · obtain rfl : head = tid := by simpa [same] using oldest
      rw [List.erase_cons_head]
      exact ⟨own, later, rfl⟩
    · have other : head ≠ tid := by rintro rfl; exact same rfl
      have found : rest.find? (fun other => (pin other).servo == (pin tid).servo) = some tid := by
        rwa [List.find?_cons_of_neg (by simpa using same)] at oldest
      obtain ⟨angle, fit, moved⟩ := ih later found
      rw [List.erase_cons_tail (by simpa using other)]
      refine ⟨?_, ⟨?_, ?_⟩, ?_⟩
      · rw [angle, move_own, move_own, move_other same]
      · rw [own, move_own, move_own, move_other (Ne.symm same)]
      · rwa [move_comm same]
      · rw [List.map_cons, List.map_cons, moveAll, moveAll, List.foldl_cons, List.foldl_cons,
          move_comm same]
        exact moved

end Queue

/-- The positions, and the recording without its delays. -/
@[ext]
structure Outcome where
  pos : Fin echoNumServos → Nat
  recorded : List (Nat × Nat)

def Outcome.input (outcome : Outcome) (pin : EchoGpio) : Outcome :=
  let pos := pin.move outcome.pos
  ⟨pos, echoBufferRecord outcome.recorded (pin.servo.val, pos pin.servo)⟩

def EchoMove.key (move : EchoMove) : Nat × Nat := (move.servoId, move.angle)

def State.outcome (state : State) : Outcome :=
  ⟨state.dev.servo.pos, state.dev.buffer.moveFifo.map EchoMove.key⟩

/-- The last recorded angle of the pin's servo is its position. -/
def Outcome.settled (outcome : Outcome) (pin : EchoGpio) : Prop :=
  ∀ entry, (outcome.recorded.filter fun entry => entry.1 == pin.servo.val).getLast? = some entry →
    entry.2 = outcome.pos pin.servo

theorem settled_input_own {outcome : Outcome} {pin other : EchoGpio}
    (same : other.servo = pin.servo) : (outcome.input other).settled pin := by
  intro entry last
  unfold Outcome.input at *
  simp only [echoBufferRecord, List.filter_append] at last
  rw [← same] at last ⊢
  simp only [List.filter_cons, List.filter_nil, beq_self_eq_true, ↓reduceIte,
    List.getLast?_append, List.getLast?_singleton, Option.some_or, Option.some.injEq] at last
  rw [← last]

/-- What is last after the oldest entry is dropped was last before. -/
theorem getLast?_filter_drop {Entry : Type} {keep : Entry → Bool} {entries : List Entry}
    {entry : Entry} (last : ((entries.drop 1).filter keep).getLast? = some entry) :
    (entries.filter keep).getLast? = some entry := by
  cases entries with
  | nil => exact last
  | cons head rest =>
    simp only [List.drop_succ_cons, List.drop_zero] at last
    rw [List.filter_cons]
    split
    · rw [List.getLast?_cons, last]
      rfl
    · exact last

theorem settled_input_other {outcome : Outcome} {pin other : EchoGpio}
    (different : other.servo ≠ pin.servo) (settled : outcome.settled pin) :
    (outcome.input other).settled pin := by
  intro entry last
  have foreign : (other.servo.val == pin.servo.val) = false := by
    simpa [Fin.val_inj] using different
  simp only [Outcome.input, echoBufferRecord, List.filter_append, List.filter_cons,
    List.filter_nil, foreign, Bool.false_eq_true, ↓reduceIte, List.append_nil] at last
  simp only [Outcome.input, move_other different]
  apply settled
  split at last
  · exact getLast?_filter_drop last
  · exact last

theorem settled_inputs {outcome : Outcome} {pins : List EchoGpio} {pin : EchoGpio}
    (member : pin ∈ pins) : (pins.foldl Outcome.input outcome).settled pin := by
  induction pins using List.reverseRecOn with
  | nil => simp at member
  | append_singleton before last ih =>
    rw [List.foldl_append]
    by_cases same : last.servo = pin.servo
    · exact settled_input_own same
    · apply settled_input_other same
      apply ih
      rcases List.mem_append.mp member with earlier | own
      · exact earlier
      · obtain rfl : pin = last := by simpa using own
        exact absurd rfl same

/-- The interrupt thread 0 makes the calls one after the other. -/
def serially (pins : List EchoGpio) : List Action :=
  pins.flatMap fun pin => .call (.irq 0) (.input pin) :: steps (.irq 0) 10

/-- Past its test, a call that runs alone moves its servo and records the angle. -/
theorem run_accepted {state : State} {pin : EchoGpio} (teach : state.dev.state.mode = .teach)
    (code : state.code (.irq 0) = (echoStateHandleInput pin.servo pin.delta).tail) :
    ∃ after, run next state (steps (.irq 0) 9) = some after ∧
      after.outcome = state.outcome.input pin ∧ after.dev.state.mode = .teach ∧
      after.code (.irq 0) = [] := by
  have angle : echoServoGetAngle state.dev.servo pin.servo = state.dev.servo.pos pin.servo := by
    simp [echoServoGetAngle]
  have moved := pos_echoServoSetAngle state.dev.servo pin.servo Env.good.i2c
    (clampAngle_le (state.dev.servo.pos pin.servo) pin.delta)
  simp only [echoStateHandleInput, notifyReaders, List.cons_append, List.nil_append,
    List.tail_cons] at code
  simp only [run, steps, List.replicate, next, code, exec, Option.map_some, Option.bind_some,
    settle_code, settle_dev, settle_thread, settle_clock]
  refine ⟨_, rfl, ?_, teach, settle_code _ _ _ _⟩
  simp only [State.outcome, settle_dev, Outcome.input, map_echoBufferRecord, EchoMove.key, angle,
    moved, EchoGpio.move, movePos_own]

/-- Outside `REPLAY` the mode test lets the call go on, in mode `TEACH`. -/
theorem next_lockHandleInput {state : State} {tid : Tid} {rest : Code} (env : Env)
    (mode : state.dev.state.mode ≠ .replay) (code : state.code tid = .lockHandleInput :: rest) :
    ∃ after, next state (.step tid env) = some after ∧ after.outcome = state.outcome ∧
      after.dev.state.mode = .teach ∧ after.code tid = rest := by
  simp only [next, code]
  cases kind : state.dev.state.mode with
  | replay => exact absurd kind mode
  | idle =>
    simp only [exec, kind, Option.map_some]
    exact ⟨_, rfl, rfl, rfl, settle_code _ _ _ _⟩
  | teach =>
    simp only [exec, kind, Option.map_some]
    exact ⟨_, rfl, rfl, kind, settle_code _ _ _ _⟩

/-- A call that runs alone. -/
theorem run_input {state : State} (mode : state.dev.state.mode ≠ .replay)
    (idle : state.code (.irq 0) = []) (pin : EchoGpio) :
    ∃ after, run next state (.call (.irq 0) (.input pin) :: steps (.irq 0) 10) = some after ∧
      after.outcome = state.outcome.input pin ∧ after.dev.state.mode = .teach ∧
      after.code (.irq 0) = [] := by
  obtain ⟨entered, enters, before, same, code⟩ : ∃ entered,
      next state (.call (.irq 0) (.input pin)) = some entered ∧
      entered.dev.state = state.dev.state ∧ entered.outcome = state.outcome ∧
      entered.code (.irq 0) = joyOpDirection pin :=
    ⟨_, next_call.mpr ⟨⟨rfl, idle⟩, rfl⟩, rfl, rfl, settle_code _ _ _ _⟩
  rw [joyOpDirection_eq] at code
  obtain ⟨tested, tests, outcome, teach, code⟩ :=
    next_lockHandleInput Env.good (before ▸ mode) code
  obtain ⟨after, ran, result, final, idle⟩ := run_accepted teach code
  refine ⟨after, ?_, ?_, final, idle⟩
  · rw [run, enters, Option.bind_some, steps, List.replicate, run, tests, Option.bind_some]
    exact ran
  · rw [result, outcome, same]

/-- Calls one after the other do to the device what the sequential outcome says. -/
theorem run_serially {state : State} (mode : state.dev.state.mode ≠ .replay)
    (idle : state.code (.irq 0) = []) (pins : List EchoGpio) :
    ∃ after, run next state (serially pins) = some after ∧
      after.outcome = pins.foldl Outcome.input state.outcome := by
  induction pins generalizing state with
  | nil => exact ⟨state, rfl, rfl⟩
  | cons pin rest ih =>
    obtain ⟨middle, first, outcome, teach, idle⟩ := run_input mode idle pin
    obtain ⟨after, later, result⟩ := ih (by simp [teach]) idle
    refine ⟨after, ?_, ?_⟩
    · rw [serially, List.flatMap_cons, run_append, first, Option.bind_some]
      exact later
    · rw [List.foldl_cons, ← outcome]
      exact result

end EchoRobot
