import EchoRobot.Model.System

/-! What one action can do, field by field. Invariants are proved from these
facts and never unfold the step function. -/

namespace EchoRobot

open Interleaving

variable {state after : State} {tid : Tid} {env : Env} {instr : Instr} {rest : Code}
variable {done : EchoDevice × Thread}

theorem next_call {request : Request} : next state (.call tid request) = some after ↔
    (tid.mayCall request = true ∧ state.code tid = []) ∧
      state.settle tid { state.dev with irqCount := state.dev.irqCount + request.interrupts }
        ((state.thread tid).begin request.code) = after := by
  simp [next, State.idle, State.enter]

theorem next_step : next state (.step tid env) = some after ↔
    ∃ instr rest done, state.code tid = instr :: rest ∧
      exec state tid env instr rest = some done ∧
      state.settle tid done.1 done.2 = after := by
  cases code : state.code tid with
  | nil => simp [next, code]
  | cons instr rest => simp [next, code]

theorem next_expire : next state .expire = some after ↔
    (state.dev.state.timerPending = true ∧ state.code .timer = []) ∧
      state.settle .timer
        { state.dev with state := { state.dev.state with timerPending := false } }
        ((state.thread .timer).begin inactivityTimerFn) = after := by
  simp [next, State.idle]

theorem next_startWork : next state .startWork = some after ↔
    (state.dev.buffer.replayPending = true ∧ state.code .worker = []) ∧
      state.settle .worker
        { state.dev with buffer := { state.dev.buffer with replayPending := false } }
        ((state.thread .worker).begin replayWorker) = after := by
  simp [next, State.idle]

theorem next_tick {ns : Nat} : next state (.tick ns) = some after ↔
    { state with clock := state.clock + ns } = after := by
  simp [next]

theorem next_signal : next state (.signal tid) = some after ↔
    state.asleep tid = true ∧
      state.settle tid state.dev ((state.thread tid).leave (some (-ERESTARTSYS))) = after := by
  simp [next]

/-- A sleeping thread stands at one of the two waits. -/
theorem asleep_cases (asleep : state.asleep tid = true) :
    (∃ rest, state.code tid = .waitReplayDone :: rest ∧ state.dev.replayFinished = false) ∨
      ∃ rest, state.code tid = .waitNewData :: rest ∧ state.dev.newDataAvail = false := by
  unfold State.asleep at asleep
  split at asleep
  · rename_i rest code
    exact Or.inl ⟨rest, code, by simpa using asleep⟩
  · rename_i rest code
    exact Or.inr ⟨rest, code, by simpa using asleep⟩
  · cases asleep

/-- The instruction an action executes. -/
def State.instr? (state : State) : Action → Option Instr
  | .step tid _ => (state.code tid).head?
  | _ => none

theorem instr?_step {rest : Code} (code : state.code tid = instr :: rest) :
    state.instr? (.step tid env) = some instr := by
  simp [State.instr?, code]

theorem code_of_head (head : state.instr? (.step tid env) = some instr) :
    ∃ rest, state.code tid = instr :: rest := by
  cases code : state.code tid with
  | nil => simp [State.instr?, code] at head
  | cons first rest => exact ⟨rest, by simpa [State.instr?, code] using head⟩

/-- An action that executes an instruction is a step of a thread in front of it. -/
theorem next_instr {action : Action} (head : state.instr? action = some instr)
    (moved : next state action = some after) :
    ∃ tid env rest done, action = .step tid env ∧ state.code tid = instr :: rest ∧
      exec state tid env instr rest = some done ∧ state.settle tid done.1 done.2 = after := by
  cases action with
  | step tid env =>
    obtain ⟨instr', rest, done, code, taken, settled⟩ := next_step.mp moved
    obtain rfl : instr' = instr := by simpa [State.instr?, code] using head
    exact ⟨tid, env, rest, done, rfl, code, taken, settled⟩
  | _ => cases head

/-- Instructions after which the thread may be back at its caller. -/
def Instr.mayReturn : Instr → Bool
  | .lockHandleInput | .lockStartReplay | .lockInactivity | .setAngleOrReturn .. => true
  | .testNonblock | .waitNewData | .waitReplayDone | .copyToUser _ | .ret _ => true
  | _ => false

/-- The copy of a snapshot to the caller. -/
def Instr.copies : Instr → Bool
  | .copyToUser _ => true
  | _ => false

/-- Instructions after which something other than the rest may run. -/
def Instr.mayLeave (instr : Instr) : Bool :=
  instr.mayReturn || instr == .shouldStop || instr == .snapshot

/-- The code left after one step. -/
inductive Leaves (state : State) (instr : Instr) (rest : Code) : Code → Prop where
  | next : Leaves state instr rest rest
  | back (returns : instr.mayReturn = true) : Leaves state instr rest []
  | stop (same : instr = .shouldStop) (other : state.dev.state.mode ≠ .replay) :
      Leaves state instr rest bufOpReplayDone
  | unroll (same : instr = .snapshot) :
      Leaves state instr rest (replayLoop (replaySnapshot state.dev.buffer.moveFifo) ++ rest)

theorem exec_code (taken : exec state tid env instr rest = some done) :
    Leaves state instr rest done.2.code := by
  cases instr <;> simp only [exec, leave, Thread.leave] at taken
  all_goals repeat' split at taken
  all_goals first
    | contradiction
    | (cases taken; exact .next)
    | (cases taken; exact .back rfl)
    | (cases taken; exact .unroll rfl)
    | (cases taken; exact .stop rfl (by assumption))

/-- Instructions of the play loop. -/
def Instr.ofLoop : Instr → Bool
  | .incReplayCount | .shouldStop | .testSpeed _ | .divideDelay | .msleep => true
  | .setAngle .. => true
  | .setNewDataAvail true | .wakeUp _ => true
  | _ => false

theorem replayLoop_ofLoop (moves : List EchoMove) :
    ∀ instr ∈ replayLoop moves, instr.ofLoop = true := by
  intro instr member
  rcases List.mem_cons.mp member with rfl | later
  · rfl
  · obtain ⟨move, -, inside⟩ := List.mem_flatMap.mp later
    simp only [replayMove, notifyReaders, List.cons_append, List.nil_append, List.mem_cons,
      List.not_mem_nil, or_false] at inside
    rcases inside with rfl | rfl | rfl | rfl | rfl | rfl | rfl <;> rfl

/-- The moves of the play loop are those of the snapshot. -/
theorem setAngle_replayLoop {moves : List EchoMove} {servoId angle : Nat}
    (member : .setAngle servoId angle ∈ replayLoop moves) :
    ∃ move ∈ moves, move.servoId = servoId ∧ move.angle = angle := by
  have later : .setAngle servoId angle ∈ moves.flatMap replayMove := by
    simpa [replayLoop] using member
  obtain ⟨move, inside, own⟩ := List.mem_flatMap.mp later
  refine ⟨move, inside, ?_⟩
  have same : servoId = move.servoId ∧ angle = move.angle := by
    simpa [replayMove, notifyReaders] using own
  exact ⟨same.1.symm, same.2.symm⟩

theorem Instr.ofLoop_stays (loop : instr.ofLoop = true) : instr.mayReturn = false := by
  cases instr <;> first | rfl | cases loop

theorem replayLoop_stays (moves : List EchoMove) :
    ∀ instr ∈ replayLoop moves, instr.mayReturn = false := fun instr member =>
  Instr.ofLoop_stays (replayLoop_ofLoop moves instr member)

section Loop
variable {before rest : Code}

/-- Whatever the loop's completion is committed to, every point of the loop is. -/
theorem commits_loop {target : Instr → Bool} (loop : ∀ instr ∈ before, instr.ofLoop = true)
    (committed : commits Instr.mayReturn target rest) :
    commits Instr.mayReturn target (before ++ rest) :=
  commits_append_right (fun instr member => Instr.ofLoop_stays (loop instr member)) committed

/-- What may come next after the loop may come next at every point of it, if the
loop itself has only what may come next. -/
theorem head_loop (allowed : Option Instr → Bool) (loop : ∀ instr ∈ before, instr.ofLoop = true)
    (own : ∀ instr : Instr, instr.ofLoop = true → allowed (some instr) = true)
    (head : allowed rest.head? = true) : allowed (before ++ rest).head? = true := by
  cases before with
  | nil => exact head
  | cons first later => exact own first (loop first (by simp))

/-- A rule holds in the play loop if its instructions are content with the rest of
the loop and what comes after it. -/
theorem obeys_replayLoop {rule : Instr → Code → Bool} {moves : List EchoMove}
    (content : ∀ instr before, instr.ofLoop = true → (∀ later ∈ before, later.ofLoop = true) →
      rule instr (before ++ rest) = true)
    (shape : obeys rule rest) : obeys rule (replayLoop moves ++ rest) := by
  refine obeys_append ?_ shape
  intro instr before suffix
  have inside := fun later member =>
    replayLoop_ofLoop moves later (suffix.subset (List.mem_cons_of_mem instr member))
  exact content instr before (replayLoop_ofLoop moves instr (suffix.subset (by simp))) inside

end Loop

/-- Commitments to `target` that only a step in `leaves` can void: it counts
every return, and the jumps of the worker unless these keep the commitment. -/
structure Carries (leaves target : Instr → Bool) : Prop where
  returns : ∀ instr, instr.mayReturn = true → leaves instr = true
  stop : leaves .shouldStop = true ∨ commits leaves target bufOpReplayDone
  unroll : leaves .snapshot = true ∨ ∀ moves, ∀ instr ∈ replayLoop moves, leaves instr = false
  awake : target .waitReplayDone = false ∧ target .waitNewData = false

theorem carries_mayLeave {target : Instr → Bool}
    (awake : target .waitReplayDone = false ∧ target .waitNewData = false) :
    Carries Instr.mayLeave target :=
  ⟨fun instr returns => by simp [Instr.mayLeave, returns], Or.inl rfl, Or.inl rfl, awake⟩

theorem carries_mayReturn {target : Instr → Bool}
    (completion : commits Instr.mayReturn target bufOpReplayDone)
    (awake : target .waitReplayDone = false ∧ target .waitNewData = false) :
    Carries Instr.mayReturn target :=
  ⟨fun _ returns => returns, Or.inr completion, Or.inr replayLoop_stays, awake⟩

theorem Carries.leaves {leaves target : Instr → Bool} {code : Code}
    (carries : Carries leaves target) (left : Leaves state instr rest code)
    (committed : commits leaves target (instr :: rest)) (other : target instr = false) :
    commits leaves target code := by
  obtain ⟨stays, later⟩ := commits_tail committed other
  cases left with
  | next => exact later
  | back returns => simp [carries.returns _ returns] at stays
  | stop same =>
    subst same
    exact carries.stop.resolve_left (by simp [stays])
  | unroll same =>
    subst same
    exact commits_append_right (carries.unroll.resolve_left (by simp [stays]) _) later

/-- The parts of the device that steps write. -/
inductive Field where
  | mode | timer | lastMoveTime | totalMoves
  | fifo | pending | speed | replayCount
  | servo | newData | replayFinished | irqCount
  deriving DecidableEq

def Instr.writes : Instr → List Field
  | .lockHandleInput => [.mode, .lastMoveTime]
  | .lockStartReplay | .lockInactivity | .lockSetMode _ | .lockReplayComplete => [.mode]
  | .seqlockDelay | .setLastMoveTime => [.lastMoveTime]
  | .incTotalMoves | .resetTotalMoves => [.totalMoves]
  | .modTimer | .timerDeleteSync => [.timer]
  | .recordMove _ | .clearBuffer | .snapshot => [.fifo]
  | .queueWork | .cancelWorkSync => [.pending]
  | .incReplayCount => [.replayCount]
  | .setReplaySpeed _ => [.speed]
  | .moveServo _ | .setAngle .. | .setAngleOrReturn .. => [.servo]
  | .setNewDataAvail _ => [.newData]
  | .setReplayFinished _ => [.replayFinished]
  | _ => []

/-- A step leaves what it does not write. -/
structure Frame (before after : EchoDevice) (writes : List Field) : Prop where
  mode : .mode ∉ writes → after.state.mode = before.state.mode
  timer : .timer ∉ writes → after.state.timerPending = before.state.timerPending
  lastMoveTime : .lastMoveTime ∉ writes → after.state.lastMoveTime = before.state.lastMoveTime
  totalMoves : .totalMoves ∉ writes → after.state.totalMoves = before.state.totalMoves
  fifo : .fifo ∉ writes → after.buffer.moveFifo = before.buffer.moveFifo
  pending : .pending ∉ writes → after.buffer.replayPending = before.buffer.replayPending
  speed : .speed ∉ writes → after.buffer.replaySpeed = before.buffer.replaySpeed
  replayCount : .replayCount ∉ writes → after.buffer.replayCount = before.buffer.replayCount
  servo : .servo ∉ writes → after.servo = before.servo
  newData : .newData ∉ writes → after.newDataAvail = before.newDataAvail
  replayFinished : .replayFinished ∉ writes → after.replayFinished = before.replayFinished
  irqCount : .irqCount ∉ writes → after.irqCount = before.irqCount

theorem exec_frame (taken : exec state tid env instr rest = some done) :
    Frame state.dev done.1 instr.writes := by
  cases instr <;> simp only [exec, leave] at taken
  all_goals repeat' split at taken
  all_goals first
    | contradiction
    | (cases taken; constructor <;> simp [Instr.writes])

/-- Instructions that leave the mode, the timer, the work item, the recording and the
servos. -/
def Instr.bystands (instr : Instr) : Bool :=
  instr.writes.all fun field => decide (field ∉ [Field.mode, .timer, .pending, .fifo, .servo])

/-- The device changes in a step of a thread, except for the marks of the timer
and of the work item, and for the count of the interrupts. -/
theorem next_device {action : Action} (moved : next state action = some after) :
    (∃ tid env instr rest done, action = .step tid env ∧ state.code tid = instr :: rest ∧
      exec state tid env instr rest = some done ∧ state.settle tid done.1 done.2 = after) ∨
    Frame state.dev after.dev [.timer, .pending, .irqCount] := by
  cases action with
  | step tid env =>
    obtain ⟨instr, rest, done, code, taken, settled⟩ := next_step.mp moved
    exact Or.inl ⟨tid, env, instr, rest, done, rfl, code, taken, settled⟩
  | call tid request =>
    obtain ⟨-, rfl⟩ := next_call.mp moved
    right; constructor <;> simp
  | expire =>
    obtain ⟨-, rfl⟩ := next_expire.mp moved
    right; constructor <;> simp
  | startWork =>
    obtain ⟨-, rfl⟩ := next_startWork.mp moved
    right; constructor <;> simp
  | tick ns =>
    obtain rfl := next_tick.mp moved
    right; constructor <;> simp
  | signal tid =>
    obtain ⟨-, rfl⟩ := next_signal.mp moved
    right; constructor <;> simp

/-- A step that stands by leaves the mode, the recording and the servos. -/
theorem bystander_next {action : Action} (moved : next state action = some after)
    (stands : ∀ instr, state.instr? action = some instr → instr.bystands = true) :
    after.dev.state.mode = state.dev.state.mode ∧
      after.dev.buffer.moveFifo = state.dev.buffer.moveFifo ∧
      after.dev.servo = state.dev.servo := by
  rcases next_device moved with ⟨tid, env, instr, rest, done, rfl, code, taken, rfl⟩ | frame
  · have outside : ∀ field ∈ instr.writes,
        field ∉ [Field.mode, .timer, .pending, .fifo, .servo] := by
      simpa [Instr.bystands] using stands instr (instr?_step code)
    have frame := exec_frame taken
    exact ⟨frame.mode fun write => absurd (by simp) (outside _ write),
      frame.fifo fun write => absurd (by simp) (outside _ write),
      frame.servo fun write => absurd (by simp) (outside _ write)⟩
  · exact ⟨frame.mode (by simp), frame.fifo (by simp), frame.servo (by simp)⟩

/-- Nothing but an instruction marks the timer or the work item as pending. -/
theorem marks_next {action : Action} (moved : next state action = some after)
    (none : state.instr? action = none) :
    (after.dev.state.timerPending = true → state.dev.state.timerPending = true) ∧
      (after.dev.buffer.replayPending = true → state.dev.buffer.replayPending = true) := by
  cases action with
  | call tid request =>
    obtain ⟨-, rfl⟩ := next_call.mp moved
    exact ⟨id, id⟩
  | step tid env =>
    obtain ⟨instr, rest, done, code, -, -⟩ := next_step.mp moved
    simp [instr?_step code] at none
  | expire =>
    obtain ⟨⟨before, -⟩, rfl⟩ := next_expire.mp moved
    exact ⟨fun _ => before, id⟩
  | startWork =>
    obtain ⟨⟨before, -⟩, rfl⟩ := next_startWork.mp moved
    exact ⟨id, fun _ => before⟩
  | tick ns =>
    obtain rfl := next_tick.mp moved
    exact ⟨id, id⟩
  | signal tid =>
    obtain ⟨-, rfl⟩ := next_signal.mp moved
    exact ⟨id, id⟩

/-- The item is pending because it was, or because it has just been queued. -/
theorem replayPending_of_next {action : Action} (moved : next state action = some after)
    (pending : after.dev.buffer.replayPending = true) :
    state.dev.buffer.replayPending = true ∨ state.instr? action = some .queueWork := by
  cases head : state.instr? action with
  | none => exact Or.inl ((marks_next moved head).2 pending)
  | some instr =>
    obtain ⟨tid, env, rest, done, rfl, code, taken, rfl⟩ := next_instr head moved
    cases instr with
    | queueWork => exact Or.inr rfl
    | cancelWorkSync =>
      simp only [exec] at taken
      split at taken <;> cases taken
      simp at pending
    | _ => exact Or.inl (((exec_frame taken).pending (by simp [Instr.writes])).symm.trans pending)

/-- The timer is pending because it was, or because it has just been armed. -/
theorem timerPending_of_next {action : Action} (moved : next state action = some after)
    (pending : after.dev.state.timerPending = true) :
    state.dev.state.timerPending = true ∨ state.instr? action = some .modTimer := by
  cases head : state.instr? action with
  | none => exact Or.inl ((marks_next moved head).1 pending)
  | some instr =>
    obtain ⟨tid, env, rest, done, rfl, code, taken, rfl⟩ := next_instr head moved
    cases instr with
    | modTimer => exact Or.inr rfl
    | timerDeleteSync =>
      simp only [exec] at taken
      split at taken <;> cases taken
      simp at pending
    | _ => exact Or.inl (((exec_frame taken).timer (by simp [Instr.writes])).symm.trans pending)

/-- The flag for the readers stays set unless it is cleared. -/
theorem newDataAvail_next {action : Action} (set : state.dev.newDataAvail = true)
    (kept : state.instr? action ≠ some (.setNewDataAvail false))
    (moved : next state action = some after) : after.dev.newDataAvail = true := by
  rcases next_device moved with ⟨tid, env, instr, rest, done, rfl, code, taken, rfl⟩ | frame
  · cases instr with
    | setNewDataAvail value =>
      cases value with
      | true => cases taken; rfl
      | false => exact absurd (instr?_step code) kept
    | _ => exact ((exec_frame taken).newData (by simp [Instr.writes])).trans set
  · exact (frame.newData (by simp)).trans set

/-- The step stores `REPLAY` into the mode: an accepted request or the timer. -/
def StartsReplay (state : State) (instr : Instr) : Prop :=
  instr = .lockStartReplay ∧ state.dev.state.mode ≠ .replay ∨
    instr = .lockInactivity ∧ state.dev.state.mode = .teach

/-- The mode after one step. -/
inductive ModeStep (state : State) (instr : Instr) (rest : Code)
    (done : EchoDevice × Thread) : Prop where
  | keep (same : done.1.state.mode = state.dev.state.mode)
  | enter (lock : instr = .lockHandleInput) (before : state.dev.state.mode = .idle)
      (mode : done.1.state.mode = .teach)
  | start (lock : StartsReplay state instr) (mode : done.1.state.mode = .replay)
      (code : done.2.code = rest)
  | set (stored : EchoMode) (lock : instr = .lockSetMode stored)
      (mode : done.1.state.mode = stored)
  | complete (lock : instr = .lockReplayComplete) (mode : done.1.state.mode = .idle)

theorem exec_mode (taken : exec state tid env instr rest = some done) :
    ModeStep state instr rest done := by
  cases instr with
  | lockHandleInput =>
    simp only [exec, leave] at taken
    split at taken <;> cases taken
    · exact .keep rfl
    · rename_i before
      exact .enter rfl before rfl
    · exact .keep rfl
  | lockStartReplay =>
    simp only [exec, leave] at taken
    split at taken <;> cases taken
    · exact .keep rfl
    · rename_i before
      exact .start (Or.inl ⟨rfl, before⟩) rfl rfl
  | lockInactivity =>
    simp only [exec, leave] at taken
    split at taken <;> cases taken
    · rename_i before
      exact .start (Or.inr ⟨rfl, before⟩) rfl rfl
    · exact .keep rfl
  | lockSetMode mode =>
    cases taken
    exact .set mode rfl rfl
  | lockReplayComplete =>
    cases taken
    exact .complete rfl rfl
  | _ => exact .keep ((exec_frame taken).mode (by simp [Instr.writes]))

/-- A start section that makes no transition returns and changes nothing. -/
theorem exec_rejected (lock : instr = .lockStartReplay ∨ instr = .lockInactivity)
    (rejected : ¬ StartsReplay state instr)
    (taken : exec state tid env instr rest = some done) :
    done.1 = state.dev ∧ done.2.code = [] := by
  rcases lock with rfl | rfl
  · have busy : state.dev.state.mode = .replay := by
      by_contra other
      exact rejected (Or.inl ⟨rfl, other⟩)
    simp only [exec, leave, busy, ↓reduceIte] at taken
    cases taken
    exact ⟨rfl, rfl⟩
  · have other : state.dev.state.mode ≠ .teach := fun teach => rejected (Or.inr ⟨rfl, teach⟩)
    simp only [exec, leave, other, ↓reduceIte] at taken
    cases taken
    exact ⟨rfl, rfl⟩

/-- The thread an action moves. -/
def Action.actor : Action → Option Tid
  | .call tid _ | .step tid _ | .signal tid => some tid
  | .expire => some .timer
  | .startWork => some .worker
  | .tick _ => none

theorem thread_next {other : Tid} {action : Action} (idle : action.actor ≠ some other)
    (moved : next state action = some after) : after.thread other = state.thread other := by
  have ne : ∀ tid, action.actor = some tid → other ≠ tid := by
    rintro tid actor rfl
    exact idle actor
  cases action with
  | call tid request =>
    obtain ⟨-, rfl⟩ := next_call.mp moved
    exact settle_thread_of_ne _ _ _ _ _ (ne tid rfl)
  | step tid env =>
    obtain ⟨instr, rest, done, code, taken, rfl⟩ := next_step.mp moved
    exact settle_thread_of_ne _ _ _ _ _ (ne tid rfl)
  | expire =>
    obtain ⟨-, rfl⟩ := next_expire.mp moved
    exact settle_thread_of_ne _ _ _ _ _ (ne .timer rfl)
  | startWork =>
    obtain ⟨-, rfl⟩ := next_startWork.mp moved
    exact settle_thread_of_ne _ _ _ _ _ (ne .worker rfl)
  | tick ns =>
    obtain rfl := next_tick.mp moved
    rfl
  | signal tid =>
    obtain ⟨-, rfl⟩ := next_signal.mp moved
    exact settle_thread_of_ne _ _ _ _ _ (ne tid rfl)

/-- How a thread is moved by an action of its own. -/
inductive Acts (state : State) : Tid → Action → State → Prop where
  | call {tid : Tid} (request : Request) (may : tid.mayCall request = true)
      (idle : state.code tid = []) : Acts state tid (.call tid request)
        (state.settle tid { state.dev with irqCount := state.dev.irqCount + request.interrupts }
          ((state.thread tid).begin request.code))
  | step {tid : Tid} (env : Env) (instr : Instr) (rest : Code) (done : EchoDevice × Thread)
      (code : state.code tid = instr :: rest) (taken : exec state tid env instr rest = some done) :
      Acts state tid (.step tid env) (state.settle tid done.1 done.2)
  | expire (pending : state.dev.state.timerPending = true) (idle : state.code .timer = []) :
      Acts state .timer .expire (state.settle .timer
        { state.dev with state := { state.dev.state with timerPending := false } }
        ((state.thread .timer).begin inactivityTimerFn))
  | startWork (pending : state.dev.buffer.replayPending = true) (idle : state.code .worker = []) :
      Acts state .worker .startWork (state.settle .worker
        { state.dev with buffer := { state.dev.buffer with replayPending := false } }
        ((state.thread .worker).begin replayWorker))
  | signal {tid : Tid} (asleep : state.asleep tid = true) : Acts state tid (.signal tid)
      (state.settle tid state.dev ((state.thread tid).leave (some (-ERESTARTSYS))))

theorem acts {action : Action} (actor : action.actor = some tid)
    (moved : next state action = some after) : Acts state tid action after := by
  cases action with
  | call caller request =>
    obtain rfl : caller = tid := by simpa [Action.actor] using actor
    obtain ⟨⟨may, idle⟩, rfl⟩ := next_call.mp moved
    exact .call request may idle
  | step stepper env =>
    obtain rfl : stepper = tid := by simpa [Action.actor] using actor
    obtain ⟨instr, rest, done, code, taken, rfl⟩ := next_step.mp moved
    exact .step env instr rest done code taken
  | expire =>
    obtain rfl : Tid.timer = tid := by simpa [Action.actor] using actor
    obtain ⟨⟨pending, idle⟩, rfl⟩ := next_expire.mp moved
    exact .expire pending idle
  | startWork =>
    obtain rfl : Tid.worker = tid := by simpa [Action.actor] using actor
    obtain ⟨⟨pending, idle⟩, rfl⟩ := next_startWork.mp moved
    exact .startWork pending idle
  | tick ns => cases actor
  | signal sleeper =>
    obtain rfl : sleeper = tid := by simpa [Action.actor] using actor
    obtain ⟨asleep, rfl⟩ := next_signal.mp moved
    exact .signal asleep

/-- An action puts an instruction before a thread that was not there. -/
inductive Enters (state : State) (instr : Instr) : Tid → Action → Prop where
  | request {tid : Tid} (request : Request) (may : tid.mayCall request = true)
      (member : instr ∈ request.code) : Enters state instr tid (.call tid request)
  | timer (member : instr ∈ inactivityTimerFn) : Enters state instr .timer .expire
  | worker {tid : Tid} {action : Action} (member : instr ∈ replayWorker) :
      Enters state instr tid action
  | loop {tid : Tid} (env : Env) (rest : Code) (code : state.code tid = .snapshot :: rest)
      (member : instr ∈ replayLoop (replaySnapshot state.dev.buffer.moveFifo)) :
      Enters state instr tid (.step tid env)

theorem ahead_next {action : Action} (moved : next state action = some after)
    (ahead : instr ∈ after.code tid) : instr ∈ state.code tid ∨ Enters state instr tid action := by
  by_cases actor : action.actor = some tid
  swap
  · left
    rwa [State.code, thread_next actor moved] at ahead
  cases acts actor moved with
  | call request may => exact Or.inr (.request request may (by simpa using ahead))
  | step env head rest done code taken =>
    rw [settle_code] at ahead
    rw [code]
    generalize done.2.code = left, exec_code taken = leaves at ahead
    cases leaves with
    | next => exact Or.inl (by simp [ahead])
    | back => simp at ahead
    | stop => exact Or.inr (.worker (List.mem_append_right _ ahead))
    | unroll same =>
      subst same
      rcases List.mem_append.mp ahead with loop | later
      · exact Or.inr (.loop env rest code loop)
      · exact Or.inl (by simp [later])
  | expire => exact Or.inr (.timer (by simpa using ahead))
  | startWork => exact Or.inr (.worker (by simpa using ahead))
  | signal => simp at ahead

/-- Only its own step moves a thread that does not stand at a wait. -/
theorem stands_next {action : Action} (code : state.code tid = instr :: rest)
    (awake : instr ≠ .waitReplayDone ∧ instr ≠ .waitNewData)
    (moved : next state action = some after) :
    after.code tid = instr :: rest ∨ ∃ env, action = .step tid env := by
  by_cases actor : action.actor = some tid
  · cases acts actor moved with
    | call request may idle => simp [code] at idle
    | step env => exact Or.inr ⟨env, rfl⟩
    | expire pending idle => simp [code] at idle
    | startWork pending idle => simp [code] at idle
    | signal asleep =>
      rcases asleep_cases asleep with ⟨later, wait, -⟩ | ⟨later, wait, -⟩
      · exact absurd (List.cons.inj (code.symm.trans wait)).1 awake.1
      · exact absurd (List.cons.inj (code.symm.trans wait)).1 awake.2
  · left
    simpa [State.code, thread_next actor moved] using code

/-- A committed thread stays committed until it executes its target. -/
theorem Carries.next {leaves target : Instr → Bool} {action : Action}
    (carries : Carries leaves target) (committed : commits leaves target (state.code tid))
    (moved : next state action = some after) :
    commits leaves target (after.code tid) ∨
      ∃ env instr, action = .step tid env ∧ state.instr? action = some instr ∧
        target instr = true := by
  cases code : state.code tid with
  | nil => simp [code] at committed
  | cons instr rest =>
    rw [code] at committed
    have awake : instr ≠ .waitReplayDone ∧ instr ≠ .waitNewData := by
      constructor <;> rintro rfl
      · simp [carries.awake.1, carries.returns .waitReplayDone rfl] at committed
      · simp [carries.awake.2, carries.returns .waitNewData rfl] at committed
    rcases stands_next code awake moved with still | ⟨env, rfl⟩
    · exact Or.inl (still ▸ committed)
    · by_cases hit : target instr = true
      · exact Or.inr ⟨env, instr, rfl, instr?_step code, hit⟩
      · left
        obtain ⟨instr', rest', done, code', taken, rfl⟩ := next_step.mp moved
        obtain ⟨rfl, rfl⟩ := List.cons.inj (code'.symm.trans code)
        simpa using carries.leaves (exec_code taken) committed (by simpa using hit)

/-- Only the listed threads move. -/
def movesOnly (tids : List Tid) (_ : State) (action : Action) : Bool :=
  decide (action.actor ∈ none :: tids.map some)

/-- A run from the initial state leaves idle every thread it does not move. -/
theorem code_of_run {allowed : State → Action → Prop} {servo : EchoServoCtx} {clock : Nat}
    {actions : List Action} {other : Tid} (tids : List Tid)
    (run : Run next allowed (State.initial servo clock) actions state)
    (listed : ∀ state action, allowed state action → movesOnly tids state action = true)
    (outside : other ∉ tids) : state.code other = [] := by
  refine run.invariant (fun state => state.code other = []) rfl ?_
  rintro - before action after - idle ok moved
  have actor : action.actor ≠ some other := by
    intro same
    have inside := listed before action ok
    simp [movesOnly, same, outside] at inside
  simpa [State.code, thread_next actor moved] using idle

/-- When the listed threads are back at their callers, all are. -/
theorem returned_of_run {allowed : State → Action → Prop} {servo : EchoServoCtx} {clock : Nat}
    {actions : List Action} (tids : List Tid)
    (run : Run next allowed (State.initial servo clock) actions state)
    (listed : ∀ state action, allowed state action → movesOnly tids state action = true)
    (returned : tids.all state.idle = true) (tid : Tid) : state.code tid = [] := by
  by_cases inside : tid ∈ tids
  · simpa [State.idle] using List.all_eq_true.mp returned tid inside
  · exact code_of_run tids run listed inside

end EchoRobot
