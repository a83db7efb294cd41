import EchoRobot.Input.Sequential
import EchoRobot.Model.Threads
import Mathlib.Data.List.Nodup

/-! Concurrent joystick calls. Each reads a position, moves the servo and records
the angle in separate steps; the calls are equivalent to a sequence if these
steps of calls for one servo keep out of each other's way. -/

namespace EchoRobot

open Interleaving

/-- `pin` is what each thread's current call is for; `waiting` lists the callers
that have not moved their servo, `moved` those that have moved but not recorded,
in the order of the moves, and `served` the calls in the order of the records. -/
structure Inputs where
  pin : Tid → EchoGpio
  calls : List EchoGpio
  waiting : List Tid
  moved : List Tid
  served : List EchoGpio

def Inputs.initial : Inputs := ⟨fun _ => .up, [], [], [], []⟩

def Inputs.update (inputs : Inputs) (state : State) (action : Action) (_ : State) : Inputs :=
  match action with
  | .call tid (.input pin) =>
    { inputs with
      pin := Function.update inputs.pin tid pin
      calls := inputs.calls ++ [pin]
      waiting := inputs.waiting ++ [tid] }
  | .step tid _ =>
    match (state.code tid).head? with
    | some (.moveServo _) =>
      { inputs with waiting := inputs.waiting.erase tid, moved := inputs.moved ++ [tid] }
    | some (.recordMove _) =>
      { inputs with
        moved := inputs.moved.erase tid
        served := inputs.served ++ [inputs.pin tid] }
    | _ => inputs
  | _ => inputs

abbrev nextInputs := withHistory next Inputs.update

/-- Interrupt threads handle input, time passes, and nothing else happens. -/
def inputOnly : Action → Bool
  | .call (.irq _) _ | .step (.irq _) _ | .tick _ => true
  | _ => false

/-- The calls have the effect of the same calls one after the other, in some
order; and the last recorded angle of each servo moved is its position. -/
def Serialised (start : State) (calls : List EchoGpio) (final : State) : Prop :=
  (∃ order serial, order.Perm calls ∧ run next start (serially order) = some serial ∧
    serial.outcome = final.outcome) ∧
  ∀ pin ∈ calls, final.outcome.settled pin

/-- A position is read only while no other call stands between its read and its
move of that servo, and the calls for a servo record in the order of their
moves. -/
structure TakesTurns (pair : State × Inputs) (action : Action) : Prop where
  only : inputOnly action = true
  read : ∀ servo delta, pair.1.instr? action = some (.getServo servo delta) →
    ∀ other env, pair.1.instr? (.step other env) ≠ some (.moveServo servo)
  record : ∀ tid env servo, action = .step tid env →
    pair.1.instr? action = some (.recordMove servo) →
    pair.2.moved.find? (fun other => (pair.2.pin other).servo == (pair.2.pin tid).servo) = some tid

def isMove : Instr → Bool
  | .moveServo _ => true
  | _ => false

/-- A read is followed by its move, a move by its record, and nothing else comes
before a move. -/
def inputRule : Instr → Code → Bool
  | .getServo servo _, rest => rest.head? == some (.moveServo servo)
  | .moveServo servo, rest =>
    decide (.moveServo servo ∉ rest ∧ .recordMove servo ∈ rest) && !rest.head?.any isMove
  | .recordMove servo, rest =>
    decide (.moveServo servo ∉ rest ∧ .recordMove servo ∉ rest) && !rest.head?.any isMove
  | _, rest => !rest.head?.any isMove

theorem inputRule_lawful : CodeRule inputRule where
  entry tid code entry := by
    cases entry with
    | read id nonblock count => cases nonblock <;> rfl
    | input id pin => cases pin <;> rfl
    | _ => rfl
  timer := by decide
  worker := by decide
  stop := by decide
  unroll moves rest shape := by
    refine obeys_replayLoop (fun instr before own loop => ?_) (obeys_tail shape)
    have head : (!(before ++ rest).head?.any isMove) = true := by
      refine head_loop (fun head => !head.any isMove) loop ?_ (obeys_head shape)
      intro first own
      cases first <;> first | rfl | cases own
    cases instr <;> first | exact head | cases own

/-- The threads run nothing but their own joystick calls. -/
structure Handling (pair : State × Inputs) : Prop where
  mode : pair.1.dev.state.mode ≠ .replay
  own : ∀ id, ∀ instr ∈ pair.1.code (.irq id), instr ∈ joyOpDirection (pair.2.pin (.irq id))
  others : ∀ tid, (∀ id, tid ≠ .irq id) → pair.1.code tid = []
  shape : Obeys inputRule pair.1

/-- The lists of callers agree with what the callers have before them. -/
structure Queued (pair : State × Inputs) : Prop where
  waiting : ∀ tid, tid ∈ pair.2.waiting ↔
    .moveServo (pair.2.pin tid).servo ∈ pair.1.code tid
  moved : ∀ tid, tid ∈ pair.2.moved ↔
    .moveServo (pair.2.pin tid).servo ∉ pair.1.code tid ∧
      .recordMove (pair.2.pin tid).servo ∈ pair.1.code tid
  waitingOnce : pair.2.waiting.Nodup
  movedOnce : pair.2.moved.Nodup
  calls : pair.2.calls.Perm
    (pair.2.served ++ (pair.2.waiting ++ pair.2.moved).map pair.2.pin)

/-- The device is where the served calls and then the moved ones have brought it,
and each caller that has read its position still finds it. -/
structure Effects (start : State) (pair : State × Inputs) : Prop where
  recorded : pair.1.outcome.recorded =
    (pair.2.served.foldl Outcome.input start.outcome).recorded
  pos : pair.1.outcome.pos =
    moveAll (pair.2.served.foldl Outcome.input start.outcome).pos (pair.2.moved.map pair.2.pin)
  angles : AnglesFit (fun tid => (pair.1.thread tid).newAngle) pair.2.pin
    (pair.2.served.foldl Outcome.input start.outcome).pos pair.2.moved
  read : ∀ tid servo rest, pair.1.code tid = .moveServo servo :: rest →
    (pair.1.thread tid).newAngle =
      clampAngle (pair.1.outcome.pos (pair.2.pin tid).servo) (pair.2.pin tid).delta
  sole : ∀ tid other servo rest later, pair.1.code tid = .moveServo servo :: rest →
    pair.1.code other = .moveServo servo :: later → tid = other

theorem mem_joyOpDirection {pin : EchoGpio} {instr : Instr} (member : instr ∈ joyOpDirection pin) :
    instr.ofInput = true ∧ (∀ servo delta, instr = .getServo servo delta →
      servo = pin.servo.val ∧ delta = pin.delta) ∧
    (∀ servo, instr = .moveServo servo → servo = pin.servo.val) ∧
    ∀ servo, instr = .recordMove servo → servo = pin.servo.val := by
  rw [joyOpDirection_eq] at member
  simp only [echoStateHandleInput, notifyReaders, List.cons_append, List.nil_append,
    List.mem_cons, List.not_mem_nil, or_false] at member
  rcases member with rfl | rfl | rfl | rfl | rfl | rfl | rfl | rfl | rfl | rfl <;>
    simp [Instr.ofInput]

variable {pair after : State × Inputs} {action : Action}

/-- Outside `REPLAY` every step of a joystick call is followed by the next one. -/
theorem input_continues {state : State} {tid : Tid} {env : Env} {instr : Instr} {rest : Code}
    {done : EchoDevice × Thread} (own : instr.ofInput = true)
    (mode : state.dev.state.mode ≠ .replay) (taken : exec state tid env instr rest = some done) :
    done.2.code = rest := by
  cases instr with
  | lockHandleInput =>
    simp only [exec, leave] at taken
    split at taken
    · contradiction
    · cases taken; rfl
    · cases taken; rfl
  | _ => first | (cases taken; rfl) | cases own

/-- What a run of joystick calls does in one action. -/
inductive InputMoves (pair : State × Inputs) : Action → State → Prop where
  | call (id : Nat) (pin : EchoGpio) (idle : pair.1.code (.irq id) = []) :
      InputMoves pair (.call (.irq id) (.input pin)) (pair.1.settle (.irq id)
        { pair.1.dev with irqCount := pair.1.dev.irqCount + 1 }
        ((pair.1.thread (.irq id)).begin (joyOpDirection pin)))
  | step (id : Nat) (env : Env) (instr : Instr) (rest : Code) (done : EchoDevice × Thread)
      (code : pair.1.code (.irq id) = instr :: rest)
      (taken : exec pair.1 (.irq id) env instr rest = some done) (left : done.2.code = rest) :
      InputMoves pair (.step (.irq id) env) (pair.1.settle (.irq id) done.1 done.2)
  | tick (ns : Nat) : InputMoves pair (.tick ns) { pair.1 with clock := pair.1.clock + ns }

theorem input_moves {after : State} (handling : Handling pair) (only : inputOnly action = true)
    (moved : next pair.1 action = some after) : InputMoves pair action after := by
  cases action with
  | call tid request =>
    cases tid with
    | irq id =>
      obtain ⟨⟨may, idle⟩, rfl⟩ := next_call.mp moved
      cases request with
      | input pin => exact .call id pin idle
      | _ => cases may
    | _ => cases only
  | step tid env =>
    cases tid with
    | irq id =>
      obtain ⟨instr, rest, done, code, taken, rfl⟩ := next_step.mp moved
      have own := (mem_joyOpDirection (handling.own id instr (by simp [code]))).1
      exact .step id env instr rest done code taken (input_continues own handling.mode taken)
    | _ => cases only
  | tick ns =>
    obtain rfl := next_tick.mp moved
    exact .tick ns
  | _ => cases only

theorem handling_next (handling : Handling pair) (only : inputOnly action = true)
    (moved : nextInputs pair action = some after) : Handling after := by
  obtain ⟨stepped, history⟩ := withHistory_some.mp moved
  obtain ⟨reached, inputs⟩ := after
  dsimp only at stepped history
  have shape := inputRule_lawful.next handling.shape stepped
  cases input_moves handling only stepped with
  | call id pin idle =>
    subst history
    refine ⟨handling.mode, fun other instr member => ?_, fun tid foreign => ?_, shape⟩
    · by_cases same : other = id
      · subst same
        simpa [Inputs.update] using member
      · have ne : Tid.irq other ≠ .irq id := by simpa using same
        rw [settle_code_of_ne _ _ _ _ _ ne] at member
        simpa [Inputs.update, ne] using handling.own other instr member
    · rw [settle_code_of_ne _ _ _ _ _ (foreign id)]
      exact handling.others tid foreign
  | step id env instr rest done code taken left =>
    have pin : inputs.pin = pair.2.pin := by
      rw [history]
      simp only [Inputs.update]
      split <;> rfl
    have mode : done.1.state.mode ≠ .replay := by
      have own := (mem_joyOpDirection (handling.own id instr (by simp [code]))).1
      cases exec_mode taken with
      | keep same => exact same ▸ handling.mode
      | enter lock before mode => simp [mode]
      | start lock => rcases lock with ⟨rfl, -⟩ | ⟨rfl, -⟩ <;> cases own
      | set stored lock => subst lock; cases own
      | complete lock mode => simp [mode]
    refine ⟨mode, fun other instr' member => ?_, fun tid foreign => ?_, shape⟩
    · rw [pin]
      by_cases same : other = id
      · subst same
        rw [settle_code, left] at member
        exact handling.own other instr' (by simp [code, member])
      · have ne : Tid.irq other ≠ .irq id := by simpa using same
        rw [settle_code_of_ne _ _ _ _ _ ne] at member
        exact handling.own other instr' member
    · rw [settle_code_of_ne _ _ _ _ _ (foreign id)]
      exact handling.others tid foreign
  | tick ns =>
    subst history
    exact ⟨handling.mode, handling.own, handling.others, shape⟩

theorem mem_call {pin : EchoGpio} : .moveServo pin.servo.val ∈ joyOpDirection pin := by
  simp [joyOpDirection_eq, echoStateHandleInput]

theorem queued_call {id : Nat} {pin : EchoGpio} (queued : Queued pair)
    (idle : pair.1.code (.irq id) = []) :
    Queued (pair.1.settle (.irq id)
        { pair.1.dev with irqCount := pair.1.dev.irqCount + 1 }
        ((pair.1.thread (.irq id)).begin (joyOpDirection pin)),
      { pair.2 with
        pin := Function.update pair.2.pin (.irq id) pin
        calls := pair.2.calls ++ [pin]
        waiting := pair.2.waiting ++ [.irq id] }) := by
  have fresh : .irq id ∉ pair.2.waiting := fun member => by
    simpa [idle] using (queued.waiting _).mp member
  have unmoved : .irq id ∉ pair.2.moved := fun member => by
    simpa [idle] using (queued.moved _).mp member
  have same : ∀ tid ∈ pair.2.waiting ++ pair.2.moved,
      Function.update pair.2.pin (.irq id) pin tid = pair.2.pin tid := by
    intro tid member
    apply Function.update_of_ne
    rintro rfl
    rcases List.mem_append.mp member with inside | inside
    · exact fresh inside
    · exact unmoved inside
  constructor
  · intro tid
    by_cases own : tid = .irq id
    · subst own
      simp [mem_call]
    · simp [own, queued.waiting tid, settle_code_of_ne _ _ _ _ _ own]
  · intro tid
    by_cases own : tid = .irq id
    · subst own
      simp [mem_call, unmoved]
    · simp [own, queued.moved tid, settle_code_of_ne _ _ _ _ _ own]
  · exact queued.waitingOnce.append (List.nodup_singleton _) (List.disjoint_singleton.mpr fresh)
  · exact queued.movedOnce
  · have labels : (pair.2.waiting ++ [Tid.irq id] ++ pair.2.moved).map
        (Function.update pair.2.pin (.irq id) pin) =
        pair.2.waiting.map pair.2.pin ++ [pin] ++ pair.2.moved.map pair.2.pin := by
      rw [List.map_append, List.map_append, List.map_singleton, Function.update_self,
        List.map_congr_left fun tid inside => same tid (List.mem_append_left _ inside),
        List.map_congr_left fun tid inside => same tid (List.mem_append_right _ inside)]
    have calls := queued.calls
    rw [List.map_append] at calls
    rw [labels]
    refine (calls.append_right [pin]).trans ?_
    simp only [List.append_assoc]
    exact List.Perm.append_left _ (List.Perm.append_left _ List.perm_append_comm)

/-- The move takes the caller from the one list to the end of the other. -/
theorem queued_move {id : Nat} {dev : EchoDevice} {thread : Thread} {rest : Code}
    (queued : Queued pair) (code : pair.1.code (.irq id) =
      .moveServo (pair.2.pin (.irq id)).servo :: rest) (left : thread.code = rest)
    (past : .moveServo (pair.2.pin (.irq id)).servo.val ∉ rest)
    (ahead : .recordMove (pair.2.pin (.irq id)).servo.val ∈ rest) :
    Queued (pair.1.settle (.irq id) dev thread,
      { pair.2 with
        waiting := pair.2.waiting.erase (.irq id)
        moved := pair.2.moved ++ [.irq id] }) := by
  have listed : .irq id ∈ pair.2.waiting := (queued.waiting _).mpr (by simp [code])
  have unmoved : .irq id ∉ pair.2.moved := fun member => by
    simpa [code] using (queued.moved _).mp member
  constructor
  · intro tid
    by_cases own : tid = .irq id
    · subst own
      simp [queued.waitingOnce.not_mem_erase, left, past]
    · rw [List.mem_erase_of_ne own, settle_code_of_ne _ _ _ _ _ own]
      exact queued.waiting tid
  · intro tid
    by_cases own : tid = .irq id
    · subst own
      simp [left, past, ahead]
    · simp [own, queued.moved tid, settle_code_of_ne _ _ _ _ _ own]
  · exact queued.waitingOnce.erase _
  · exact queued.movedOnce.append (List.nodup_singleton _) (List.disjoint_singleton.mpr unmoved)
  · refine queued.calls.trans (List.Perm.append_left _ (List.Perm.map _ ?_))
    refine ((List.perm_cons_erase listed).append_right _).trans ?_
    rw [List.cons_append, ← List.append_assoc]
    exact (List.perm_append_singleton _ _).symm

/-- The record takes the caller out of the lists. -/
theorem queued_record {id : Nat} {dev : EchoDevice} {thread : Thread} {rest : Code}
    (queued : Queued pair) (code : pair.1.code (.irq id) =
      .recordMove (pair.2.pin (.irq id)).servo :: rest) (left : thread.code = rest)
    (past : .moveServo (pair.2.pin (.irq id)).servo.val ∉ rest)
    (recorded : .recordMove (pair.2.pin (.irq id)).servo.val ∉ rest) :
    Queued (pair.1.settle (.irq id) dev thread,
      { pair.2 with
        moved := pair.2.moved.erase (.irq id)
        served := pair.2.served ++ [pair.2.pin (.irq id)] }) := by
  have listed : .irq id ∈ pair.2.moved := (queued.moved _).mpr (by simp [code, past])
  constructor
  · intro tid
    by_cases own : tid = .irq id
    · subst own
      simp [queued.waiting (.irq id), code, left]
    · rw [settle_code_of_ne _ _ _ _ _ own]
      exact queued.waiting tid
  · intro tid
    by_cases own : tid = .irq id
    · subst own
      simp [queued.movedOnce.not_mem_erase, left, recorded]
    · rw [List.mem_erase_of_ne own, settle_code_of_ne _ _ _ _ _ own]
      exact queued.moved tid
  · exact queued.waitingOnce
  · exact queued.movedOnce.erase _
  · have calls := queued.calls
    rw [List.map_append] at calls ⊢
    refine calls.trans ?_
    rw [List.append_assoc]
    apply List.Perm.append_left
    refine (List.Perm.append_left _ ((List.perm_cons_erase listed).map pair.2.pin)).trans ?_
    rw [List.map_cons]
    exact List.perm_middle

/-- Any other step of a caller leaves the lists as they are. -/
theorem queued_silent {id : Nat} {dev : EchoDevice} {thread : Thread} {instr : Instr} {rest : Code}
    (queued : Queued pair) (code : pair.1.code (.irq id) = instr :: rest)
    (left : thread.code = rest)
    (move : instr ≠ .moveServo (pair.2.pin (.irq id)).servo)
    (record : instr ≠ .recordMove (pair.2.pin (.irq id)).servo) :
    Queued (pair.1.settle (.irq id) dev thread, pair.2) := by
  refine ⟨fun tid => ?_, fun tid => ?_, queued.waitingOnce, queued.movedOnce, queued.calls⟩
  · by_cases own : tid = .irq id
    · subst own
      simp [queued.waiting (.irq id), code, left, move.symm]
    · rw [settle_code_of_ne _ _ _ _ _ own]
      exact queued.waiting tid
  · by_cases own : tid = .irq id
    · subst own
      simp [queued.moved (.irq id), code, left, move.symm, record.symm]
    · rw [settle_code_of_ne _ _ _ _ _ own]
      exact queued.moved tid

theorem Handling.move_servo {tid : Tid} {servo : Nat} {rest : Code} (handling : Handling pair)
    (code : pair.1.code tid = .moveServo servo :: rest) : servo = (pair.2.pin tid).servo := by
  by_cases irq : ∃ id, tid = .irq id
  · obtain ⟨id, rfl⟩ := irq
    exact (mem_joyOpDirection (handling.own id _ (by rw [code]; simp))).2.2.1 servo rfl
  · rw [handling.others tid fun id same => irq ⟨id, same⟩] at code
    cases code

section Effects
variable {start : State} {id : Nat} {thread : Thread} {dev : EchoDevice}

theorem effects_call {pin : EchoGpio} (effects : Effects start pair) (queued : Queued pair)
    (idle : pair.1.code (.irq id) = []) :
    Effects start (pair.1.settle (.irq id)
        { pair.1.dev with irqCount := pair.1.dev.irqCount + 1 }
        ((pair.1.thread (.irq id)).begin (joyOpDirection pin)),
      { pair.2 with
        pin := Function.update pair.2.pin (.irq id) pin
        calls := pair.2.calls ++ [pin]
        waiting := pair.2.waiting ++ [.irq id] }) := by
  have label : ∀ tid, tid ≠ .irq id →
      Function.update pair.2.pin (.irq id) pin tid = pair.2.pin tid :=
    fun tid other => Function.update_of_ne other _ _
  have unmoved : ∀ tid ∈ pair.2.moved, tid ≠ .irq id := by
    rintro tid member rfl
    simpa [idle] using (queued.moved _).mp member
  have standing : ∀ tid servo rest, (pair.1.settle (.irq id)
      { pair.1.dev with irqCount := pair.1.dev.irqCount + 1 }
      ((pair.1.thread (.irq id)).begin (joyOpDirection pin))).code tid = .moveServo servo :: rest →
      tid ≠ .irq id := by
    rintro tid servo rest code rfl
    rw [settle_code, Thread.code_begin, joyOpDirection_eq] at code
    cases code
  refine ⟨effects.recorded, ?_, ?_, ?_, ?_⟩
  · rw [List.map_congr_left fun tid member => label tid (unmoved tid member)]
    exact effects.pos
  · refine anglesFit_congr effects.angles fun tid member => ⟨?_, label tid (unmoved tid member)⟩
    rw [settle_thread_of_ne _ _ _ _ _ (unmoved tid member)]
  · intro tid servo rest code
    have other := standing tid servo rest code
    rw [settle_code_of_ne _ _ _ _ _ other] at code
    rw [settle_thread_of_ne _ _ _ _ _ other]
    simp only [label tid other]
    exact effects.read tid servo rest code
  · intro tid other servo rest later code code'
    have first := standing tid servo rest code
    have second := standing other servo later code'
    rw [settle_code_of_ne _ _ _ _ _ first] at code
    rw [settle_code_of_ne _ _ _ _ _ second] at code'
    exact effects.sole tid other servo rest later code code'

/-- A step that neither moves nor records. -/
theorem effects_silent {rest : Code} (effects : Effects start pair)
    (left : thread.code = rest)
    (outcome : (pair.1.settle (.irq id) dev thread).outcome = pair.1.outcome)
    (angle : .irq id ∈ pair.2.moved → thread.newAngle = (pair.1.thread (.irq id)).newAngle)
    (reads : ∀ servo later, rest = .moveServo servo :: later →
      thread.newAngle = clampAngle (pair.1.outcome.pos (pair.2.pin (.irq id)).servo)
        (pair.2.pin (.irq id)).delta ∧
      ∀ other later, pair.1.code other ≠ .moveServo servo :: later) :
    Effects start (pair.1.settle (.irq id) dev thread, pair.2) := by
  refine ⟨?_, ?_, ?_, ?_, ?_⟩
  · rw [outcome]
    exact effects.recorded
  · rw [outcome]
    exact effects.pos
  · refine anglesFit_congr effects.angles fun tid member => ⟨?_, rfl⟩
    by_cases own : tid = .irq id
    · subst own
      simpa using angle member
    · rw [settle_thread_of_ne _ _ _ _ _ own]
  · intro tid servo later code
    rw [outcome]
    by_cases own : tid = .irq id
    · subst own
      rw [settle_code, left] at code
      simpa using (reads servo later code).1
    · rw [settle_code_of_ne _ _ _ _ _ own] at code
      rw [settle_thread_of_ne _ _ _ _ _ own]
      exact effects.read tid servo later code
  · intro tid other servo first second code code'
    by_cases own : tid = .irq id <;> by_cases own' : other = .irq id
    · rw [own, own']
    · subst own
      rw [settle_code, left] at code
      rw [settle_code_of_ne _ _ _ _ _ own'] at code'
      exact absurd code' ((reads servo first code).2 other second)
    · subst own'
      rw [settle_code, left] at code'
      rw [settle_code_of_ne _ _ _ _ _ own] at code
      exact absurd code ((reads servo second code').2 tid first)
    · rw [settle_code_of_ne _ _ _ _ _ own] at code
      rw [settle_code_of_ne _ _ _ _ _ own'] at code'
      exact effects.sole tid other servo first second code code'

/-- The move of a caller that still finds the position it has read. -/
theorem effects_move {rest : Code} (effects : Effects start pair) (handling : Handling pair)
    (code : pair.1.code (.irq id) = .moveServo (pair.2.pin (.irq id)).servo :: rest)
    (left : thread.code = rest) (head : rest.head?.any isMove = false)
    (angle : thread.newAngle = (pair.1.thread (.irq id)).newAngle)
    (recorded : (pair.1.settle (.irq id) dev thread).outcome.recorded = pair.1.outcome.recorded)
    (pos : dev.servo.pos = (pair.2.pin (.irq id)).move pair.1.outcome.pos) :
    Effects start (pair.1.settle (.irq id) dev thread,
      { pair.2 with
        waiting := pair.2.waiting.erase (.irq id)
        moved := pair.2.moved ++ [.irq id] }) := by
  have angles : ∀ tid, ((pair.1.settle (.irq id) dev thread).thread tid).newAngle =
      (pair.1.thread tid).newAngle := by
    intro tid
    by_cases own : tid = .irq id
    · subst own
      simpa using angle
    · rw [settle_thread_of_ne _ _ _ _ _ own]
  have standing : ∀ tid servo later,
      (pair.1.settle (.irq id) dev thread).code tid = .moveServo servo :: later →
      tid ≠ .irq id ∧ pair.1.code tid = .moveServo servo :: later := by
    intro tid servo later code
    have other : tid ≠ .irq id := by
      rintro rfl
      rw [settle_code, left] at code
      simp [code, isMove] at head
    rw [settle_code_of_ne _ _ _ _ _ other] at code
    exact ⟨other, code⟩
  refine ⟨recorded.trans effects.recorded, ?_, ?_, ?_, ?_⟩
  · rw [List.map_append, moveAll, List.foldl_append]
    exact pos.trans (congrArg _ effects.pos)
  · apply anglesFit_snoc
    · exact anglesFit_congr effects.angles fun tid member => ⟨angles tid, rfl⟩
    · rw [angles, effects.read _ _ _ code, ← effects.pos, move_own]
  · intro tid servo later code'
    obtain ⟨other, before⟩ := standing tid servo later code'
    have different : (pair.2.pin (.irq id)).servo ≠ (pair.2.pin tid).servo := by
      intro same
      rw [handling.move_servo before, ← same] at before
      exact other (effects.sole _ _ _ _ _ before code)
    rw [angles, effects.read tid servo later before]
    show _ = clampAngle (dev.servo.pos (pair.2.pin tid).servo) _
    rw [pos, move_other different]
  · intro tid other servo first second code code'
    exact effects.sole tid other servo first second (standing _ _ _ code).2 (standing _ _ _ code').2

/-- The record of the oldest move of its servo. -/
theorem effects_record {rest : Code} {move : EchoMove} (effects : Effects start pair)
    (left : thread.code = rest) (head : rest.head?.any isMove = false)
    (angle : thread.newAngle = (pair.1.thread (.irq id)).newAngle)
    (oldest : pair.2.moved.find?
      (fun other => (pair.2.pin other).servo == (pair.2.pin (.irq id)).servo) = some (.irq id))
    (key : move.key = ((pair.2.pin (.irq id)).servo.val, (pair.1.thread (.irq id)).newAngle))
    (servo : dev.servo = pair.1.dev.servo)
    (fifo : dev.buffer.moveFifo = echoBufferRecord pair.1.dev.buffer.moveFifo move) :
    Effects start (pair.1.settle (.irq id) dev thread,
      { pair.2 with
        moved := pair.2.moved.erase (.irq id)
        served := pair.2.served ++ [pair.2.pin (.irq id)] }) := by
  obtain ⟨own, fits, moved⟩ := serve_oldest effects.angles oldest
  have pos : dev.servo.pos = pair.1.outcome.pos := congrArg EchoServoCtx.pos servo
  have angles : ∀ tid, ((pair.1.settle (.irq id) dev thread).thread tid).newAngle =
      (pair.1.thread tid).newAngle := by
    intro tid
    by_cases own : tid = .irq id
    · subst own
      simpa using angle
    · rw [settle_thread_of_ne _ _ _ _ _ own]
  have standing : ∀ tid servo later,
      (pair.1.settle (.irq id) dev thread).code tid = .moveServo servo :: later →
      pair.1.code tid = .moveServo servo :: later := by
    intro tid servo later code
    have other : tid ≠ .irq id := by
      rintro rfl
      rw [settle_code, left] at code
      simp [code, isMove] at head
    rwa [settle_code_of_ne _ _ _ _ _ other] at code
  refine ⟨?_, ?_, ?_, ?_, ?_⟩
  · rw [List.foldl_append]
    show dev.buffer.moveFifo.map EchoMove.key = echoBufferRecord _ _
    have recorded : pair.1.dev.buffer.moveFifo.map EchoMove.key =
        (pair.2.served.foldl Outcome.input start.outcome).recorded := effects.recorded
    rw [fifo, map_echoBufferRecord, key, own, recorded]
  · rw [List.foldl_append]
    exact pos.trans (effects.pos.trans moved)
  · rw [List.foldl_append]
    exact anglesFit_congr fits fun tid member => ⟨angles tid, rfl⟩
  · intro tid servo later code
    rw [angles, effects.read tid servo later (standing _ _ _ code)]
    show _ = clampAngle (dev.servo.pos (pair.2.pin tid).servo) _
    rw [pos]
  · intro tid other servo first second code code'
    exact effects.sole tid other servo first second (standing _ _ _ code) (standing _ _ _ code')

end Effects

/-- A step that touches neither positions, recording nor read angle. -/
theorem exec_silent {state : State} {tid : Tid} {env : Env} {instr : Instr} {rest : Code}
    {done : EchoDevice × Thread} (own : instr.ofInput = true)
    (move : ∀ servo, instr ≠ .moveServo servo) (record : ∀ servo, instr ≠ .recordMove servo)
    (get : ∀ servo delta, instr ≠ .getServo servo delta)
    (taken : exec state tid env instr rest = some done) :
    done.1.servo = state.dev.servo ∧ done.1.buffer.moveFifo = state.dev.buffer.moveFifo ∧
      done.2.newAngle = (state.thread tid).newAngle := by
  have frame := exec_frame taken
  have servo : Field.servo ∉ instr.writes := by
    cases instr <;> simp_all [Instr.writes, Instr.ofInput]
  have fifo : Field.fifo ∉ instr.writes := by
    cases instr <;> simp_all [Instr.writes, Instr.ofInput]
  refine ⟨frame.servo servo, frame.fifo fifo, ?_⟩
  cases instr with
  | lockHandleInput =>
    simp only [exec, leave] at taken
    split at taken <;> cases taken <;> rfl
  | getServo servoId delta => exact absurd rfl (get servoId delta)
  | _ => first | (cases taken; rfl) | cases own

section Serving

variable {start : State} {id : Nat} {env : Env} {instr : Instr} {rest : Code}
  {done : EchoDevice × Thread}

/-- A call moves its own servo to the angle it computed from the last move. -/
theorem serving_move {servo : Nat} (own : (pair.2.pin (.irq id)).servo.val = servo)
    (queued : Queued pair) (effects : Effects start pair)
    (handling : Handling pair)
    (code : pair.1.code (.irq id) = .moveServo servo :: rest)
    (rule : inputRule (.moveServo servo) rest = true)
    (taken : exec pair.1 (.irq id) env (.moveServo servo) rest = some done)
    (left : done.2.code = rest) :
    let after := (pair.1.settle (.irq id) done.1 done.2,
      { pair.2 with
        waiting := pair.2.waiting.erase (.irq id)
        moved := pair.2.moved ++ [.irq id] })
    Queued after ∧ Effects start after := by
  subst own
  simp only [inputRule, Bool.and_eq_true, decide_eq_true_eq, Bool.not_eq_true'] at rule
  have bounded : (pair.1.thread (.irq id)).newAngle ≤ echoServoMax := by
    rw [effects.read _ _ _ code]
    exact clampAngle_le _ _
  cases taken
  refine ⟨queued_move queued code left rule.1.1 rule.1.2,
    effects_move effects handling code left rule.2 rfl rfl ?_⟩
  rw [pos_echoServoSetAngle _ _ _ bounded, effects.read _ _ _ code]
  rfl

/-- A call that records is served. -/
theorem serving_record {servo : Nat} (own : (pair.2.pin (.irq id)).servo.val = servo)
    (queued : Queued pair) (effects : Effects start pair)
    (ok : TakesTurns pair (.step (.irq id) env))
    (code : pair.1.code (.irq id) = .recordMove servo :: rest)
    (rule : inputRule (.recordMove servo) rest = true)
    (taken : exec pair.1 (.irq id) env (.recordMove servo) rest = some done)
    (left : done.2.code = rest) :
    let after := (pair.1.settle (.irq id) done.1 done.2,
      { pair.2 with
        moved := pair.2.moved.erase (.irq id)
        served := pair.2.served ++ [pair.2.pin (.irq id)] })
    Queued after ∧ Effects start after := by
  subst own
  simp only [inputRule, Bool.and_eq_true, decide_eq_true_eq, Bool.not_eq_true'] at rule
  have oldest := ok.record _ env _ rfl (instr?_step code)
  cases taken
  exact ⟨queued_record queued code left rule.1.1 rule.1.2,
    effects_record effects left rule.2 rfl oldest rfl rfl rfl⟩

/-- A call reads its own servo while no other call is about to move it. -/
theorem effects_read {servo : Nat} {delta : Int}
    (own : (pair.2.pin (.irq id)).servo.val = servo ∧ (pair.2.pin (.irq id)).delta = delta)
    (queued : Queued pair) (effects : Effects start pair)
    (ok : TakesTurns pair (.step (.irq id) env))
    (code : pair.1.code (.irq id) = .getServo servo delta :: rest)
    (rule : inputRule (.getServo servo delta) rest = true)
    (taken : exec pair.1 (.irq id) env (.getServo servo delta) rest = some done)
    (left : done.2.code = rest) :
    Effects start (pair.1.settle (.irq id) done.1 done.2, pair.2) := by
  obtain ⟨rfl, rfl⟩ := own
  simp only [inputRule, beq_iff_eq] at rule
  cases taken
  apply effects_silent effects left rfl
  · intro moved
    have past := ((queued.moved _).mp moved).1
    rw [code] at past
    exact absurd (List.mem_cons_of_mem _ (List.mem_of_head? rule)) past
  · rintro servo later rfl
    obtain rfl : (pair.2.pin (.irq id)).servo.val = servo := by simpa using rule.symm
    refine ⟨by simp [echoServoGetAngle, State.outcome], fun other later standing => ?_⟩
    exact ok.read _ _ (instr?_step code) other env (instr?_step standing)

/-- Only a move and a record change the queue of the calls. -/
theorem update_silent (code : pair.1.code (.irq id) = instr :: rest)
    (move : ∀ servo, instr ≠ .moveServo servo) (record : ∀ servo, instr ≠ .recordMove servo) :
    pair.2.update pair.1 (.step (.irq id) env) (pair.1.settle (.irq id) done.1 done.2) =
      pair.2 := by
  simp only [Inputs.update, code, List.head?_cons]
  split
  · rename_i servo same
    exact absurd (Option.some.inj same) (move servo)
  · rename_i servo same
    exact absurd (Option.some.inj same) (record servo)
  · rfl

theorem serving_step (handling : Handling pair) (queued : Queued pair)
    (effects : Effects start pair) (ok : TakesTurns pair (.step (.irq id) env))
    (code : pair.1.code (.irq id) = instr :: rest)
    (taken : exec pair.1 (.irq id) env instr rest = some done) (left : done.2.code = rest) :
    let after := (pair.1.settle (.irq id) done.1 done.2,
      pair.2.update pair.1 (.step (.irq id) env) (pair.1.settle (.irq id) done.1 done.2))
    Queued after ∧ Effects start after := by
  intro after
  have member := mem_joyOpDirection (handling.own id instr (by simp [code]))
  have rule := obeys_head (code ▸ handling.shape (.irq id))
  by_cases move : ∃ servo, instr = .moveServo servo
  · obtain ⟨servo, rfl⟩ := move
    simp only [after, Inputs.update, code, List.head?_cons]
    exact serving_move (member.2.2.1 servo rfl).symm queued effects handling code rule taken left
  by_cases record : ∃ servo, instr = .recordMove servo
  · obtain ⟨servo, rfl⟩ := record
    simp only [after, Inputs.update, code, List.head?_cons]
    exact serving_record (member.2.2.2 servo rfl).symm queued effects ok code rule taken left
  have moves : ∀ servo, instr ≠ .moveServo servo := fun servo same => move ⟨servo, same⟩
  have records : ∀ servo, instr ≠ .recordMove servo := fun servo same => record ⟨servo, same⟩
  simp only [after, update_silent code moves records]
  refine ⟨queued_silent queued code left (moves _) (records _), ?_⟩
  by_cases get : ∃ servo delta, instr = .getServo servo delta
  · obtain ⟨servo, delta, rfl⟩ := get
    obtain ⟨ownServo, ownDelta⟩ := member.2.1 servo delta rfl
    exact effects_read ⟨ownServo.symm, ownDelta.symm⟩ queued effects ok code rule taken left
  obtain ⟨servo, fifo, angle⟩ := exec_silent member.1 moves records
    (fun servo delta same => get ⟨servo, delta, same⟩) taken
  apply effects_silent effects left
  · simp only [State.outcome, settle_dev, servo, fifo]
  · exact fun _ => angle
  · rintro servo later rfl
    cases instr <;> simp [inputRule, isMove] at rule get

end Serving

theorem serving_next {start : State} (handling : Handling pair) (queued : Queued pair)
    (effects : Effects start pair) (ok : TakesTurns pair action)
    (moved : nextInputs pair action = some after) : Queued after ∧ Effects start after := by
  obtain ⟨reached, stepped, rfl⟩ := withHistory_next moved
  cases input_moves handling ok.only stepped with
  | call id pin idle => exact ⟨queued_call queued idle, effects_call effects queued idle⟩
  | step id env instr rest done code taken left =>
    exact serving_step handling queued effects ok code taken left
  | tick ns =>
    exact ⟨⟨queued.waiting, queued.moved, queued.waitingOnce, queued.movedOnce, queued.calls⟩,
      ⟨effects.recorded, effects.pos, effects.angles, effects.read, effects.sole⟩⟩

variable {start : State} {actions : List Action}

/-- In every run of joystick calls that read, move and record in turns, the calls
have, once all have returned, the effect of a sequence of the same calls. -/
theorem inputs_serialised (mode : start.dev.state.mode ≠ .replay)
    (idle : ∀ tid, start.code tid = [])
    (run : Run nextInputs TakesTurns (start, Inputs.initial) actions pair)
    (returned : ∀ tid, pair.1.code tid = []) : Serialised start pair.2.calls pair.1 := by
  have serving : Handling pair ∧ Queued pair ∧ Effects start pair := by
    refine run.invariant (fun pair => Handling pair ∧ Queued pair ∧ Effects start pair) ?_ ?_
    · refine ⟨⟨mode, ?_, fun tid _ => idle tid, fun tid => ?_⟩, ⟨?_, ?_, ?_, ?_, ?_⟩,
        ⟨rfl, rfl, trivial, ?_, ?_⟩⟩ <;> simp [idle, Inputs.initial]
    · rintro - before action after - ⟨handling, queued, effects⟩ ok moved
      exact ⟨handling_next handling ok.only moved, serving_next handling queued effects ok moved⟩
  obtain ⟨-, queued, effects⟩ := serving
  have waiting : pair.2.waiting = [] := List.eq_nil_iff_forall_not_mem.mpr fun tid member => by
    simpa [returned] using (queued.waiting tid).mp member
  have unrecorded : pair.2.moved = [] := List.eq_nil_iff_forall_not_mem.mpr fun tid member => by
    simpa [returned] using (queued.moved tid).mp member
  have calls : pair.2.calls.Perm pair.2.served := by
    simpa [waiting, unrecorded] using queued.calls
  have outcome : pair.1.outcome = pair.2.served.foldl Outcome.input start.outcome := by
    apply Outcome.ext
    · rw [effects.pos, unrecorded]
      rfl
    · exact effects.recorded
  refine ⟨?_, fun pin member => ?_⟩
  · obtain ⟨serial, ran, result⟩ := run_serially mode (idle _) pair.2.served
    exact ⟨pair.2.served, serial, calls.symm, ran, result.trans outcome.symm⟩
  · rw [outcome]
    exact settled_inputs (calls.mem_iff.mp member)

/-- Two calls for different servos, interleaved step by step. -/
def upBesideLeft : List Action :=
  [.call (.irq 0) (.input .up), .call (.irq 1) (.input .left)] ++
  (List.range 10).flatMap fun _ => [.step (.irq 0) Env.good, .step (.irq 1) Env.good]

/-- The test of `TakesTurns` where only the listed threads run. -/
def takesTurns (tids : List Tid) (pair : State × Inputs) (action : Action) : Bool :=
  inputOnly action && match pair.1.instr? action with
  | some (.getServo servo _) => tids.all fun other =>
    pair.1.instr? (.step other Env.good) != some (.moveServo servo)
  | some (.recordMove _) => action.actor.all fun tid => pair.2.moved.find? (fun other =>
    (pair.2.pin other).servo == (pair.2.pin tid).servo) == some tid
  | _ => true

theorem takesTurns_sound {tids : List Tid} (idle : ∀ tid, tid ∉ tids → pair.1.code tid = [])
    (passed : takesTurns tids pair action = true) : TakesTurns pair action := by
  simp only [takesTurns, Bool.and_eq_true] at passed
  refine ⟨passed.1, fun servo delta head other env standing => ?_, ?_⟩
  · by_cases listed : other ∈ tids
    · simp only [head, List.all_eq_true, bne_iff_ne] at passed
      exact passed.2 other listed standing
    · simp [State.instr?, idle other listed] at standing
  · rintro tid env servo rfl head
    simpa [head, Action.actor] using passed.2

theorem inputs_serialised_upBesideLeft :
    ∃ pair, run nextInputs (State.initial simServo 0, Inputs.initial) upBesideLeft = some pair ∧
      pair.2.calls = [.up, .left] ∧
      Serialised (State.initial simServo 0) pair.2.calls pair.1 := by
  obtain ⟨pair, ran, facts⟩ := exists_run nextInputs
    (fun pair action => movesOnly [.irq 0, .irq 1] pair.1 action &&
      takesTurns [.irq 0, .irq 1] pair action)
    (State.initial simServo 0, Inputs.initial) upBesideLeft
    (fun pair => [Tid.irq 0, .irq 1].all pair.1.idle && pair.2.calls == [.up, .left]) (by decide)
  simp only [Bool.and_eq_true, beq_iff_eq] at facts ran
  have turns := ran.strengthen TakesTurns fun earlier pair action before passed =>
    takesTurns_sound (fun tid => code_of_run _ before.forget fun _ _ ⟨_, listed, _⟩ => listed)
      passed.2
  have returned := returned_of_run _ ran.forget (fun _ _ ⟨_, listed, _⟩ => listed) facts.1
  exact ⟨pair, ran.execution, facts.2,
    inputs_serialised (by decide) (fun _ => rfl) turns returned⟩

/-- Two calls for one servo both read the position before either moves. -/
def upAcrossDown : List Action :=
  [.call (.irq 0) (.input .up), .call (.irq 1) (.input .down)] ++
  steps (.irq 0) 2 ++ steps (.irq 1) 2 ++ steps (.irq 0) 8 ++ steps (.irq 1) 8

theorem upAcrossDown_loses :
    ∃ pair, run nextInputs (State.initial simServo 0, Inputs.initial) upAcrossDown = some pair ∧
      (∀ tid, pair.1.code tid = []) ∧
      ¬ Serialised (State.initial simServo 0) pair.2.calls pair.1 := by
  obtain ⟨pair, ran, facts⟩ := exists_run nextInputs
    (fun pair action => movesOnly [.irq 0, .irq 1] pair.1 action)
    (State.initial simServo 0, Inputs.initial) upAcrossDown
    (fun pair => [Tid.irq 0, .irq 1].all pair.1.idle && pair.2.calls == [.up, .down] &&
      pair.1.outcome.pos echoServoTilt == 85) (by decide)
  simp only [Bool.and_eq_true, beq_iff_eq] at facts
  obtain ⟨⟨returned, calls⟩, final⟩ := facts
  refine ⟨pair, ran.execution, ?_, ?_⟩
  · exact returned_of_run [.irq 0, .irq 1] ran.forget (fun _ _ ⟨_, listed⟩ => listed) returned
  · rintro ⟨⟨order, serial, same, ran, outcome⟩, -⟩
    rw [calls] at same
    have start : (State.initial simServo 0).dev.state.mode ≠ .replay := by decide
    obtain ⟨after, ran', result⟩ := run_serially start rfl order
    obtain rfl : serial = after := Option.some.inj (ran.symm.trans ran')
    rw [← outcome, result] at final
    obtain ⟨first, second, rfl⟩ := List.length_eq_two.mp same.length_eq
    have firstKind : first = .up ∨ first = .down := by simpa using same.mem_iff.mp (by simp)
    have secondKind : second = .up ∨ second = .down := by simpa using same.mem_iff.mp (by simp)
    rcases firstKind with rfl | rfl <;> rcases secondKind with rfl | rfl <;>
      exact absurd final (by decide)

end EchoRobot
