import EchoRobot.Input.Debounce
import EchoRobot.Read.Image
import EchoRobot.Read.Readers

/-! The driver with the joystick that it is shipped with. The handler of an edge returns
before it reports a direction, so that nothing is ever taught. -/

namespace EchoRobot

open Interleaving

structure Shipped (width : Nat) where
  state : State
  joystick : EchoJoystickCtx width

/-- An edge has its interrupt thread `id` run the handler; the rest of the driver goes on
as before, but enters `joy_op_direction` from the handler only. -/
inductive ShippedAction (width : Nat) where
  | base (action : Action)
  | edge (id : Nat) (edge : Edge width)

def Action.reports : Action → Bool
  | .call (.irq _) _ => true
  | _ => false

/-- `get_irq_count` asks the joystick. -/
def State.counted (state : State) (irqCount : Nat) : State :=
  { state with dev := { state.dev with irqCount := irqCount } }

/-- A handler that has reported a direction has called the driver with it. -/
def nextShipped {width : Nat} (debounce : BitVec width) (shipped : Shipped width) :
    ShippedAction width → Option (Shipped width)
  | .base action =>
    if action.reports then none
    else (next shipped.state action).map fun state => { shipped with state := state }
  | .edge id edge =>
    (joystickThreadFn debounce shipped.joystick edge).bind fun joystick =>
      (if joystick.directions = shipped.joystick.directions then some shipped.state
      else next shipped.state (.call (.irq id) (.input edge.pin))).map fun state =>
        ⟨state.counted joystick.irqCount, joystick⟩

/-- What a snapshot tells of a driver that was taught nothing. -/
def EchoSnapshot.Blank (snap : EchoSnapshot) : Prop :=
  snap.bufferCount = 0 ∧ snap.totalMoves = 0 ∧ snap.irqCount = 0

/-- No input is under way or was recorded, the worker has no move before it, and nobody
has seen anything else. -/
structure Untaught (state : State) : Prop where
  inputs : ∀ id, state.code (.irq id) = []
  fifo : state.dev.buffer.moveFifo = []
  moves : state.dev.state.totalMoves = 0
  irqs : state.dev.irqCount = 0
  still : ∀ servoId angle, .setAngle servoId angle ∉ state.code .worker
  gathered : ∀ tid, (state.thread tid).snap.Blank
  delivered : ∀ tid snap, (state.thread tid).delivered = some snap → snap.Blank

section Step
variable {state after : State} {tid : Tid} {env : Env} {instr : Instr} {rest : Code}
variable {done : EchoDevice × Thread} {action : Action}

theorem recordMove_runs {servoId : Nat} (runs : tid.runs (.recordMove servoId) = true) :
    ∃ id, tid = .irq id := by
  cases tid with
  | irq id => exact ⟨id, rfl⟩
  | _ => cases runs

theorem incTotalMoves_runs (runs : tid.runs .incTotalMoves = true) : ∃ id, tid = .irq id := by
  cases tid with
  | irq id => exact ⟨id, rfl⟩
  | _ => cases runs

/-- Nobody but an input records and counts. -/
theorem untaught_device (owned : Owned state) (untaught : Untaught state)
    (moved : next state action = some after) :
    after.dev.buffer.moveFifo = [] ∧ after.dev.state.totalMoves = 0 := by
  rcases next_device moved with ⟨tid, env, instr, rest, done, rfl, code, taken, rfl⟩ | frame
  · have runs : tid.runs instr = true := owned tid instr (by simp [code])
    have frame := exec_frame taken
    rw [settle_dev]
    constructor
    · cases instr with
      | recordMove servoId =>
        obtain ⟨id, rfl⟩ := recordMove_runs runs
        simp [untaught.inputs] at code
      | clearBuffer => cases taken; rfl
      | snapshot =>
        simp only [exec] at taken
        split at taken <;> cases taken
        · simp [untaught.fifo, replayRefill, replaySnapshot]
        · exact untaught.fifo
      | _ =>
        rw [frame.fifo (by simp [Instr.writes])]
        exact untaught.fifo
    · cases instr with
      | incTotalMoves =>
        obtain ⟨id, rfl⟩ := incTotalMoves_runs runs
        simp [untaught.inputs] at code
      | resetTotalMoves => cases taken; rfl
      | _ =>
        rw [frame.totalMoves (by simp [Instr.writes])]
        exact untaught.moves
  · rw [frame.fifo (by simp), frame.totalMoves (by simp)]
    exact ⟨untaught.fifo, untaught.moves⟩

/-- Only the handler of an edge counts one. -/
theorem irqCount_next (silent : action.reports = false) (moved : next state action = some after) :
    after.dev.irqCount = state.dev.irqCount := by
  cases action with
  | call tid request =>
    obtain ⟨⟨may, -⟩, rfl⟩ := next_call.mp moved
    cases tid with
    | proc id => exact congrArg EchoDevice.irqCount (enter_dev state may)
    | irq id => cases silent
    | _ => cases may
  | step tid env =>
    obtain ⟨instr, rest, done, -, taken, rfl⟩ := next_step.mp moved
    exact (exec_frame taken).irqCount (by cases instr <;> simp [Instr.writes])
  | expire =>
    obtain ⟨-, rfl⟩ := next_expire.mp moved
    rfl
  | startWork =>
    obtain ⟨-, rfl⟩ := next_startWork.mp moved
    rfl
  | tick ns =>
    obtain rfl := next_tick.mp moved
    rfl
  | signal tid =>
    obtain ⟨-, rfl⟩ := next_signal.mp moved
    rfl

theorem blank_step (untaught : Untaught state) (taken : exec state tid env instr rest = some done) :
    done.2.snap.Blank := by
  have blank := untaught.gathered tid
  cases stores : instr.fieldStore state.dev with
  | none => rw [exec_gathered stores taken]; exact blank
  | some store =>
    cases instr <;> first | (cases stores; done) | cases taken
    case some.readAngle.refl servo =>
      dsimp only
      split_ifs <;> exact blank
    case some.readCount.refl => exact ⟨by simp [untaught.fifo], blank.2⟩
    case some.readTotalMoves.refl => exact ⟨blank.1, by simp [untaught.moves], blank.2.2⟩
    case some.readIrqCount.refl => exact ⟨blank.1, blank.2.1, by simp [untaught.irqs]⟩
    all_goals exact blank

theorem overlay_zero (size offset width : Nat) : overlay size offset width 0 0 = 0 := by
  simp [overlay]

/-- A blank snapshot over a blank one is blank, however much of it is copied. -/
theorem blank_copied {held : Option EchoSnapshot} {snap : EchoSnapshot} (size : Nat)
    (before : ∀ earlier, held = some earlier → earlier.Blank) (blank : snap.Blank) :
    (EchoSnapshot.copied held size snap).Blank := by
  have under : (held.getD .zero).Blank := by
    cases held with
    | none => exact ⟨rfl, rfl, rfl⟩
    | some earlier => exact before earlier rfl
  obtain ⟨count, moves, irqs⟩ := under
  obtain ⟨count', moves', irqs'⟩ := blank
  simp only [EchoSnapshot.copied, EchoSnapshot.over, EchoSnapshot.Blank, count, moves, irqs,
    count', moves', irqs', overlay_zero, and_self]

theorem delivered_step (untaught : Untaught state)
    (taken : exec state tid env instr rest = some done) {snap : EchoSnapshot}
    (delivered : done.2.delivered = some snap) : snap.Blank := by
  cases instr with
  | copyToUser size =>
    simp only [exec, leave, Thread.leave] at taken
    split at taken <;> cases taken
    · obtain rfl := Option.some.inj delivered
      exact blank_copied size (untaught.delivered tid) (untaught.gathered tid)
    · exact untaught.delivered tid snap delivered
  | _ =>
    rw [exec_delivered rfl taken] at delivered
    exact untaught.delivered tid snap delivered

/-- A step that is no input leaves the driver untaught. -/
theorem untaught_next (owned : Owned state) (untaught : Untaught state)
    (silent : action.reports = false) (moved : next state action = some after) :
    Untaught after := by
  obtain ⟨fifo, counted⟩ := untaught_device owned untaught moved
  have irqs := (irqCount_next silent moved).trans untaught.irqs
  refine ⟨fun id => ?_, fifo, counted, irqs, fun servoId angle ahead => ?_, fun tid => ?_,
    fun tid snap delivered => ?_⟩
  · by_cases actor : action.actor = some (.irq id)
    · cases acts actor moved with
      | call request => cases silent
      | step env instr rest done code => simp [untaught.inputs] at code
      | signal asleep => simp [State.asleep, untaught.inputs] at asleep
    · rw [State.code, thread_next actor moved]
      exact untaught.inputs id
  · rcases ahead_next moved ahead with before | enters
    · exact untaught.still servoId angle before
    · cases enters with
      | request request may => simp [Tid.mayCall] at may
      | worker member =>
        exact absurd member
          (by simp [replayWorker, bufOpReplayDone, signalReplayDone, notifyReaders])
      | loop env rest code member =>
        obtain ⟨move, inside, -, -⟩ := setAngle_replayLoop member
        simp [replaySnapshot, untaught.fifo] at inside
  · by_cases actor : action.actor = some tid
    · cases acts actor moved with
      | step env instr rest done code taken =>
        rw [settle_thread]
        exact blank_step untaught taken
      | _ =>
        rw [settle_thread]
        exact untaught.gathered _
    · rw [thread_next actor moved]
      exact untaught.gathered tid
  · by_cases actor : action.actor = some tid
    · cases acts actor moved with
      | step env instr rest done code taken =>
        rw [settle_thread] at delivered
        exact delivered_step untaught taken delivered
      | _ =>
        rw [settle_thread] at delivered
        exact untaught.delivered _ snap delivered
    · rw [thread_next actor moved] at delivered
      exact untaught.delivered tid snap delivered

end Step

section Run
variable {width : Nat} {debounce : BitVec width} {servo : EchoServoCtx} {clock : Nat}
variable {actions : List (ShippedAction width)}
variable {shipped after : Shipped width} {action : ShippedAction width}

def Shipped.initial (width : Nat) (servo : EchoServoCtx) (clock : Nat) : Shipped width :=
  ⟨State.initial servo clock, .initial width⟩

def ShippedAction.edge? : ShippedAction width → Option (Edge width)
  | .edge _ pushed => some pushed
  | .base _ => none

/-- Every step is one of the driver that is no input, or one of the handler, which leaves
the driver alone. -/
inductive ShippedMoves (debounce : BitVec width) (shipped : Shipped width) :
    ShippedAction width → Shipped width → Prop where
  | base (action : Action) (state : State) (silent : action.reports = false)
      (moved : next shipped.state action = some state) :
      ShippedMoves debounce shipped (.base action) { shipped with state := state }
  | edge (id : Nat) (edge : Edge width) (left : EchoJoystickCtx width)
      (returned : joystickThreadFn debounce shipped.joystick edge = some left) :
      ShippedMoves debounce shipped (.edge id edge) ⟨shipped.state.counted left.irqCount, left⟩

theorem shipped_moves (moved : nextShipped debounce shipped action = some after) :
    ShippedMoves debounce shipped action after := by
  cases action with
  | base action =>
    simp only [nextShipped] at moved
    split at moved
    · cases moved
    · rename_i silent
      obtain ⟨state, stepped, rfl⟩ := Option.map_eq_some_iff.mp moved
      exact .base action state (by simpa using silent) stepped
  | edge id edge =>
    obtain ⟨left, returned, moved⟩ := Option.bind_eq_some_iff.mp moved
    have silent : left.directions = shipped.joystick.directions := by
      rw [joystickThreadFn_silent returned]
    rw [if_pos silent] at moved
    cases moved
    exact .edge id edge left returned

/-- The joystick has run the handlers of all edges in order. -/
theorem joystick_of_run
    (run : Run (nextShipped debounce) anyStep (Shipped.initial width servo clock) actions shipped) :
    joystickThreads debounce (.initial width) (actions.filterMap (·.edge?)) =
      some shipped.joystick := by
  induction run with
  | refl => rfl
  | step before _ moved ih =>
    rw [List.filterMap_append, joystickThreads_append, ih, Option.bind_some]
    cases shipped_moves moved with
    | base action state silent moved => rfl
    | edge id edge left returned =>
      simp [ShippedAction.edge?, joystickThreads, returned]

theorem untaught_initial : Untaught (State.initial servo clock) := by
  refine ⟨fun _ => rfl, rfl, rfl, rfl, ?_, fun _ => ⟨rfl, rfl, rfl⟩, ?_⟩
  · intro servoId angle member
    cases member
  · intro tid snap delivered
    cases delivered

/-- What the handlers have counted the driver is asked for. -/
theorem untaught_counted {state : State} {irqCount : Nat} (untaught : Untaught state)
    (none : irqCount = 0) : Untaught (state.counted irqCount) := by
  have same : state.counted irqCount = state := by
    rw [none, ← untaught.irqs]
    rfl
  rwa [same]

/-- However often the joystick is pushed and whatever the processes do, the shipped driver
is taught nothing: nothing is recorded or counted, no replay moves a servo, and every
snapshot says so. -/
theorem shipped_is_untaught
    (run : Run (nextShipped debounce) anyStep (Shipped.initial width servo clock) actions
      shipped) :
    Untaught shipped.state ∧ shipped.state.dev.irqCount = shipped.joystick.irqCount := by
  have kept : Owned shipped.state ∧ Untaught shipped.state ∧
      shipped.state.dev.irqCount = shipped.joystick.irqCount := by
    refine run.invariant (fun shipped => Owned shipped.state ∧ Untaught shipped.state ∧
      shipped.state.dev.irqCount = shipped.joystick.irqCount)
      ⟨owned_initial servo clock, untaught_initial, rfl⟩ ?_
    rintro actions before action after ran ⟨owned, untaught, same⟩ - moved
    have counted := (joystick_silent (joystick_of_run (.step ran trivial moved))).2
    cases shipped_moves moved with
    | base action state silent stepped =>
      exact ⟨owned_next owned stepped, untaught_next owned untaught silent stepped,
        (irqCount_next silent stepped).trans same⟩
    | edge id edge left returned => exact ⟨owned, untaught_counted untaught counted, rfl⟩
  exact kept.2

end Run

/-- The joystick is pushed while a process has the driver taught. -/
def pushedInTeach : List (ShippedAction 32) :=
  .base (.call (.proc 0) (writeCmd echoCmdTeach)) :: .edge 0 ⟨.up, 1000⟩ ::
    (steps (.proc 0) 9).map .base

theorem shipped_is_untaught_pushedInTeach : ∃ shipped,
    Run (nextShipped 50) anyStep (Shipped.initial 32 simServo 0) pushedInTeach shipped ∧
      shipped.state.dev.state.mode = .teach ∧ shipped.joystick.irqLocked = true ∧
      Untaught shipped.state ∧ shipped.state.dev.irqCount = shipped.joystick.irqCount := by
  obtain ⟨shipped, ran, facts⟩ := exists_run (nextShipped 50) (fun _ _ => true)
    (Shipped.initial 32 simServo 0) pushedInTeach
    (fun shipped => shipped.state.dev.state.mode == .teach && shipped.joystick.irqLocked)
    (by decide)
  simp only [Bool.and_eq_true, beq_iff_eq] at facts
  exact ⟨shipped, ran.any, facts.1, facts.2, shipped_is_untaught ran.any⟩

end EchoRobot
