import EchoRobot.Input.Serial
import EchoRobot.Logs.Window

/-! A teach session: joystick calls one after the other. What it leaves in the
recording is the window of its last moves. -/

namespace EchoRobot

open Interleaving Logs

/-- The moves that calls make one after the other. -/
def movesOf (pos : Fin echoNumServos → Nat) : List EchoGpio → List (Nat × Nat)
  | [] => []
  | pin :: rest => (pin.servo.val, pin.move pos pin.servo) :: movesOf (pin.move pos) rest

section Moves
variable {pos : Fin echoNumServos → Nat} {pins : List EchoGpio} {pin : EchoGpio}

theorem movesOf_snoc : movesOf pos (pins ++ [pin]) =
    movesOf pos pins ++ [(pin.servo.val, pin.move (moveAll pos pins) pin.servo)] := by
  induction pins generalizing pos with
  | nil => rfl
  | cons head rest ih =>
    rw [List.cons_append, movesOf, ih]
    rfl

/-- The calls lead to the last position of each servo and to the window of the moves. -/
theorem foldl_input :
    pins.foldl Outcome.input ⟨pos, []⟩ =
      ⟨moveAll pos pins, window echoFifoSize (movesOf pos pins)⟩ := by
  induction pins using List.reverseRecOn with
  | nil => simp [moveAll, movesOf, window]
  | append_singleton before last ih =>
    have moved : moveAll pos (before ++ [last]) = last.move (moveAll pos before) :=
      List.foldl_append ..
    rw [List.foldl_append, ih, movesOf_snoc, window_snoc (by decide), moved]
    simp only [List.foldl_cons, List.foldl_nil, Outcome.input, echoBufferRecord]

end Moves

/-- The calls made so far. -/
def recordCalls (pins : List EchoGpio) (_ : State) (action : Action) (_ : State) : List EchoGpio :=
  match action with
  | .call _ (.input pin) => pins ++ [pin]
  | _ => pins

abbrev nextCalls := withHistory next recordCalls

/-- No thread has a step before it that concerns the mode, the timer, the work item, the
recording or the servos. -/
def StandBy (state : State) : Prop := ∀ tid, ∀ instr ∈ state.code tid, instr.bystands = true

/-- A joystick call begins when the one before is over, and nothing else begins. -/
def InTurn (pair : State × List EchoGpio) (action : Action) : Prop :=
  match action with
  | .call _ (.input _) => StandBy pair.1
  | .step .. | .tick _ | .signal _ => True
  | _ => False

/-- A state that a session can begin in. -/
structure Ready (state : State) : Prop where
  mode : state.dev.state.mode ≠ .replay
  recording : state.dev.buffer.moveFifo = []
  work : ¬ state.workBusy
  owned : Owned state
  standBy : StandBy state

/-- The call of `pin` under way, `before` being the outcome of those before it. -/
structure CallUnderWay (before : Outcome) (pin : EchoGpio) (tid : Tid) (state : State) : Prop where
  suffix : state.code tid <:+ joyOpDirection pin
  pos : state.dev.servo.pos =
    if .moveServo pin.servo ∈ state.code tid then before.pos else pin.move before.pos
  angle : .getServo pin.servo pin.delta ∉ state.code tid →
    .recordMove pin.servo ∈ state.code tid →
    (state.thread tid).newAngle = pin.move before.pos pin.servo
  recorded : state.dev.buffer.moveFifo.map EchoMove.key =
    if .recordMove pin.servo ∈ state.code tid then before.recorded
    else (before.input pin).recorded

/-- Where a session stands: between two calls, or within one. -/
inductive Taught (start : Outcome) : State × List EchoGpio → Prop
  | between {state : State} {pins : List EchoGpio} (standBy : StandBy state)
      (outcome : state.outcome = pins.foldl Outcome.input start) : Taught start (state, pins)
  | within {state : State} (pins : List EchoGpio) (pin : EchoGpio) (id : Nat)
      (others : ∀ other, other ≠ .irq id → ∀ instr ∈ state.code other, instr.bystands = true)
      (underWay : CallUnderWay (pins.foldl Outcome.input start) pin (.irq id) state) :
      Taught start (state, pins ++ [pin])

section Call
variable {pin : EchoGpio} {rest : Code}

/-- The position is read before it is moved, and the move recorded after that. -/
def callRule (pin : EchoGpio) : Instr → Code → Bool
  | .getServo .., rest => decide (.getServo pin.servo pin.delta ∉ rest ∧
      .moveServo pin.servo ∈ rest ∧ .recordMove pin.servo ∈ rest)
  | .moveServo _, rest => decide (.getServo pin.servo pin.delta ∉ rest ∧
      .moveServo pin.servo ∉ rest ∧ .recordMove pin.servo ∈ rest)
  | .recordMove _, rest => decide (.getServo pin.servo pin.delta ∉ rest ∧
      .moveServo pin.servo ∉ rest ∧ .recordMove pin.servo ∉ rest)
  | _, _ => true

theorem callRule_head {instr : Instr} (suffix : instr :: rest <:+ joyOpDirection pin) :
    callRule pin instr rest = true := by
  have whole : obeys (callRule pin) (joyOpDirection pin) = true := by cases pin <;> decide
  exact obeys_head (obeys_suffix suffix whole)

variable {before : Outcome} {tid : Tid} {state : State}

theorem callUnderWay_initial (outcome : state.outcome = before)
    (code : state.code tid = joyOpDirection pin) : CallUnderWay before pin tid state := by
  have ahead : .getServo pin.servo pin.delta ∈ joyOpDirection pin ∧
      .moveServo pin.servo ∈ joyOpDirection pin ∧
      .recordMove pin.servo ∈ joyOpDirection pin := by
    simp [joyOpDirection_eq, echoStateHandleInput]
  rw [← code] at ahead
  refine ⟨code ▸ List.suffix_rfl, ?_, fun past => absurd ahead.1 past, ?_⟩
  · rw [if_pos ahead.2.1, ← outcome]
    rfl
  · rw [if_pos ahead.2.2, ← outcome]
    rfl

/-- A call that is over has had its effect. -/
theorem CallUnderWay.outcome (underWay : CallUnderWay before pin tid state)
    (standsBy : ∀ instr ∈ state.code tid, instr.bystands = true) :
    state.outcome = before.input pin := by
  have move : .moveServo pin.servo ∉ state.code tid := fun ahead => by cases standsBy _ ahead
  have record : .recordMove pin.servo ∉ state.code tid := fun ahead => by cases standsBy _ ahead
  apply Outcome.ext
  · exact underWay.pos.trans (if_neg move)
  · exact underWay.recorded.trans (if_neg record)

section Steps
variable {env : Env} {instr : Instr} {done : EchoDevice × Thread}

theorem callUnderWay_getServo (underWay : CallUnderWay before pin tid state)
    (code : state.code tid = .getServo pin.servo pin.delta :: rest)
    (later : rest <:+ joyOpDirection pin)
    (rule : callRule pin (.getServo pin.servo pin.delta) rest = true)
    (taken : exec state tid env (.getServo pin.servo pin.delta) rest = some done) :
    CallUnderWay before pin tid (state.settle tid done.1 done.2) := by
  obtain ⟨-, move, record⟩ := of_decide_eq_true rule
  obtain ⟨-, pos, -, recorded⟩ := underWay
  simp only [code, List.mem_cons, reduceCtorEq, false_or, if_pos move, if_pos record]
    at pos recorded
  cases taken
  refine ⟨by simpa using later, ?_, fun _ _ => ?_, ?_⟩
  · simpa [move] using pos
  · simp only [settle_thread, move_own, echoServoGetAngle, Fin.is_lt, ↓reduceDIte, Fin.eta]
    exact congrArg (clampAngle · pin.delta) (congrFun pos pin.servo)
  · simpa [record] using recorded

theorem callUnderWay_moveServo (underWay : CallUnderWay before pin tid state)
    (code : state.code tid = .moveServo pin.servo :: rest)
    (later : rest <:+ joyOpDirection pin) (rule : callRule pin (.moveServo pin.servo) rest = true)
    (taken : exec state tid env (.moveServo pin.servo) rest = some done) :
    CallUnderWay before pin tid (state.settle tid done.1 done.2) := by
  obtain ⟨get, past, record⟩ := of_decide_eq_true rule
  obtain ⟨-, pos, angle, recorded⟩ := underWay
  have target := angle (by simp [code, get]) (by simp [code, record])
  have bounded : (state.thread tid).newAngle ≤ echoServoMax := by
    rw [target, move_own]
    exact clampAngle_le _ _
  have moved := pos_echoServoSetAngle state.dev.servo pin.servo env.i2c bounded
  simp only [code, List.mem_cons, true_or, ↓reduceIte, reduceCtorEq, false_or, if_pos record]
    at pos recorded
  cases taken
  refine ⟨by simpa using later, ?_, fun _ _ => by simpa using target, ?_⟩
  · simp only [settle_dev, settle_code, if_neg past, moved]
    rw [target, pos, move_own]
    rfl
  · simpa [record] using recorded

theorem callUnderWay_recordMove (underWay : CallUnderWay before pin tid state)
    (code : state.code tid = .recordMove pin.servo :: rest)
    (later : rest <:+ joyOpDirection pin) (rule : callRule pin (.recordMove pin.servo) rest = true)
    (taken : exec state tid env (.recordMove pin.servo) rest = some done) :
    CallUnderWay before pin tid (state.settle tid done.1 done.2) := by
  obtain ⟨get, move, past⟩ := of_decide_eq_true rule
  obtain ⟨-, pos, angle, recorded⟩ := underWay
  have target := angle (by simp [code, get]) (by simp [code])
  simp only [code, List.mem_cons, true_or, ↓reduceIte, reduceCtorEq, false_or, if_neg move]
    at pos recorded
  cases taken
  refine ⟨by simpa using later, ?_, fun _ ahead => absurd (by simpa using ahead) past, ?_⟩
  · simpa [move] using pos
  · simp only [settle_dev, settle_code, if_neg past, map_echoBufferRecord, recorded]
    simp only [EchoMove.key, target, Outcome.input]

/-- Past its mode test a call does its own steps, whatever stands by beside it. -/
theorem callUnderWay_step (underWay : CallUnderWay before pin tid state)
    (code : state.code tid = instr :: rest)
    (taken : exec state tid env instr rest = some done) (left : done.2.code = rest) :
    CallUnderWay before pin tid (state.settle tid done.1 done.2) := by
  have suffix : instr :: rest <:+ joyOpDirection pin := code ▸ underWay.suffix
  have later : rest <:+ joyOpDirection pin := (List.suffix_cons instr rest).trans suffix
  have rule := callRule_head suffix
  obtain ⟨own, ownGet, ownMove, ownRecord⟩ :=
    mem_joyOpDirection (suffix.subset (List.mem_cons_self ..))
  by_cases get : ∃ servo delta, instr = .getServo servo delta
  · obtain ⟨servo, delta, rfl⟩ := get
    obtain ⟨rfl, rfl⟩ := ownGet servo delta rfl
    exact callUnderWay_getServo underWay code later rule taken
  by_cases move : ∃ servo, instr = .moveServo servo
  · obtain ⟨servo, rfl⟩ := move
    obtain rfl := ownMove servo rfl
    exact callUnderWay_moveServo underWay code later rule taken
  by_cases record : ∃ servo, instr = .recordMove servo
  · obtain ⟨servo, rfl⟩ := record
    obtain rfl := ownRecord servo rfl
    exact callUnderWay_recordMove underWay code later rule taken
  have gets : ∀ servo delta, instr ≠ .getServo servo delta := fun servo delta same =>
    get ⟨servo, delta, same⟩
  have moves : ∀ servo, instr ≠ .moveServo servo := fun servo same => move ⟨servo, same⟩
  have records : ∀ servo, instr ≠ .recordMove servo := fun servo same => record ⟨servo, same⟩
  obtain ⟨servo, fifo, same⟩ := exec_silent own moves records gets taken
  obtain ⟨-, pos, angle, recorded⟩ := underWay
  simp only [code, List.mem_cons, (gets _ _).symm, (moves _).symm, (records _).symm, false_or]
    at pos angle recorded
  refine ⟨?_, ?_, ?_, ?_⟩
  · simpa [left] using later
  · simpa [left, servo] using pos
  · simpa [left, same] using angle
  · simpa [left, fifo] using recorded

end Steps

end Call

section Next
variable {start : Outcome} {pair after : State × List EchoGpio} {action : Action}

/-- Between calls the effect is that of the calls made. -/
theorem Taught.outcome (taught : Taught start pair) (standBy : StandBy pair.1) :
    pair.1.outcome = pair.2.foldl Outcome.input start := by
  cases taught with
  | between standBy outcome => exact outcome
  | within pins pin id others underWay =>
    rw [List.foldl_append]
    exact underWay.outcome (standBy (.irq id))

/-- A session under way: no replay comes up, and the calls have their effect. -/
structure Teaching (start : Outcome) (pair : State × List EchoGpio) : Prop where
  owned : Owned pair.1
  mode : pair.1.dev.state.mode ≠ .replay
  work : pair.1.dev.buffer.replayPending = false ∧ pair.1.code .worker = []
  taught : Taught start pair

/-- What is before a thread in a session is of its call, or stands by. -/
theorem Teaching.ahead (teaching : Teaching start pair) {tid : Tid} {instr : Instr}
    (ahead : instr ∈ pair.1.code tid) : instr.ofInput = true ∨ instr.bystands = true := by
  obtain ⟨-, -, -, taught⟩ := teaching
  cases taught with
  | between standBy => exact Or.inr (standBy tid instr ahead)
  | within pins pin id others underWay =>
    by_cases own : tid = .irq id
    · subst own
      exact Or.inl (mem_joyOpDirection (underWay.suffix.subset ahead)).1
    · exact Or.inr (others tid own instr ahead)

theorem teaching_mode (teaching : Teaching start pair) (moved : next pair.1 action = some after.1) :
    after.1.dev.state.mode ≠ .replay := by
  intro replay
  rcases next_device moved with ⟨tid, env, instr, rest, done, rfl, code, taken, settled⟩ | frame
  · have kind := teaching.ahead (show instr ∈ pair.1.code tid by simp [code])
    rw [← settled, settle_dev] at replay
    cases exec_mode taken with
    | keep same => exact teaching.mode (same.symm.trans replay)
    | enter lock before mode => simp [mode] at replay
    | start lock =>
      rcases lock with ⟨rfl, -⟩ | ⟨rfl, -⟩ <;> rcases kind with own | own <;> cases own
    | set stored lock =>
      subst lock
      rcases kind with own | own <;> cases own
    | complete lock mode => simp [mode] at replay
  · exact teaching.mode ((frame.mode (by simp)).symm.trans replay)

theorem teaching_work (teaching : Teaching start pair) (moved : next pair.1 action = some after.1) :
    after.1.dev.buffer.replayPending = false ∧ after.1.code .worker = [] := by
  refine ⟨?_, worker_rests teaching.owned teaching.work.2 teaching.work.1 moved⟩
  by_contra pending
  rcases replayPending_of_next moved (by simpa using pending) with before | queues
  · simp [teaching.work.1] at before
  · obtain ⟨tid, env, rest, done, rfl, code, -, -⟩ := next_instr queues moved
    rcases teaching.ahead (show .queueWork ∈ pair.1.code tid by simp [code]) with own | own <;>
      cases own

/-- A thread that stands by does so after an action that is no call and no expiry. -/
theorem standsBy_inTurn (teaching : Teaching start pair) {tid : Tid}
    (stands : ∀ instr ∈ pair.1.code tid, instr.bystands = true) (ok : InTurn pair action)
    (calls : ∀ request, action ≠ .call tid request) (moved : next pair.1 action = some after.1) :
    ∀ instr ∈ after.1.code tid, instr.bystands = true := by
  by_cases worker : tid = .worker
  · subst worker
    simp [(teaching_work teaching moved).2]
  · refine standsBy_next teaching.owned worker stands calls ?_ moved
    rintro - rfl
    exact ok

theorem taught_call {id : Nat} {pin : EchoGpio} (teaching : Teaching start pair)
    (standBy : StandBy pair.1) (moved : next pair.1 (.call (.irq id) (.input pin)) = some after.1) :
    Taught start (after.1, pair.2 ++ [pin]) := by
  obtain ⟨-, settled⟩ := next_call.mp moved
  have outcome : after.1.outcome = pair.2.foldl Outcome.input start := by
    rw [← teaching.taught.outcome standBy, ← settled]
    rfl
  refine .within pair.2 pin id (fun other different => ?_) (callUnderWay_initial outcome ?_)
  · rw [← settled, settle_code_of_ne _ _ _ _ _ different]
    exact standBy other
  · rw [← settled, settle_code]
    rfl

/-- Whoever is not within a joystick call leaves the call's effect alone. -/
theorem callUnderWay_other {before : Outcome} {pin : EchoGpio} {tid : Tid} {state reached : State}
    (underWay : CallUnderWay before pin tid state) (actor : action.actor ≠ some tid)
    (stands : ∀ instr, state.instr? action = some instr → instr.bystands = true)
    (moved : next state action = some reached) : CallUnderWay before pin tid reached := by
  obtain ⟨-, fifo, servo⟩ := bystander_next moved stands
  have same := thread_next actor moved
  have code : reached.code tid = state.code tid := congrArg Thread.code same
  obtain ⟨suffix, pos, angle, recorded⟩ := underWay
  constructor
  · rwa [code]
  · rwa [code, servo]
  · rwa [code, same]
  · rwa [code, fifo]

theorem taught_next (teaching : Teaching start pair) (ok : InTurn pair action)
    (plain : ∀ tid request, action ≠ .call tid request)
    (moved : next pair.1 action = some after.1) : Taught start (after.1, pair.2) := by
  obtain ⟨state, pins⟩ := pair
  obtain ⟨owned, mode, work, taught⟩ := id teaching
  cases taught with
  | between standBy outcome =>
    have stands : ∀ instr, state.instr? action = some instr → instr.bystands = true := by
      intro instr head
      obtain ⟨tid, env, rest, done, rfl, code, -, -⟩ := next_instr head moved
      exact standBy tid instr (by simp [code])
    obtain ⟨-, fifo, servo⟩ := bystander_next moved stands
    refine .between (fun tid => standsBy_inTurn teaching (standBy tid) ok (plain tid) moved) ?_
    rw [← outcome, State.outcome, fifo, servo]
    rfl
  | within pins pin id others underWay =>
    have others' : ∀ other, other ≠ .irq id → ∀ instr ∈ after.1.code other,
        instr.bystands = true := fun other different =>
      standsBy_inTurn teaching (others other different) ok (plain other) moved
    have inputs : ∀ instr ∈ state.code (.irq id), instr.ofInput = true := fun instr ahead =>
      (mem_joyOpDirection (underWay.suffix.subset ahead)).1
    refine .within pins pin id others' ?_
    by_cases actor : action.actor = some (.irq id)
    · obtain ⟨reached, history⟩ := after
      cases acts actor moved with
      | call request => exact absurd rfl (plain _ request)
      | step env instr rest done code taken =>
        have own := inputs instr (by simp [code])
        exact callUnderWay_step underWay code taken (input_continues own mode taken)
      | signal asleep =>
        rcases asleep_cases asleep with ⟨rest, code, -⟩ | ⟨rest, code, -⟩
        · cases inputs .waitReplayDone (by simp [code])
        · cases inputs .waitNewData (by simp [code])
    · refine callUnderWay_other underWay actor (fun instr head => ?_) moved
      obtain ⟨tid, env, rest, done, rfl, code, -, -⟩ := next_instr head moved
      exact others tid (fun same => actor (congrArg some same)) instr (by simp [code])

theorem teaching_next (teaching : Teaching start pair) (ok : InTurn pair action)
    (moved : nextCalls pair action = some after) : Teaching start after := by
  obtain ⟨stepped, history⟩ := withHistory_some.mp moved
  refine ⟨owned_next teaching.owned stepped, teaching_mode teaching stepped,
    teaching_work teaching stepped, ?_⟩
  obtain ⟨reached, pins⟩ := after
  dsimp only at history
  subst history
  by_cases call : ∃ tid request, action = .call tid request
  · obtain ⟨tid, request, rfl⟩ := call
    cases request with
    | input pin =>
      cases tid with
      | irq id => exact taught_call teaching ok stepped
      | _ => cases (next_call.mp stepped).1.1
    | _ => cases ok
  · have plain : ∀ tid request, action ≠ .call tid request := fun tid request same =>
      call ⟨tid, request, same⟩
    have same : recordCalls pair.2 pair.1 action reached = pair.2 := by
      cases action with
      | call tid request => exact absurd rfl (plain tid request)
      | _ => rfl
    rw [same]
    exact taught_next teaching ok plain stepped

theorem teaching_of_run {begin : State} {actions : List Action} (ready : Ready begin)
    (run : Run nextCalls InTurn (begin, []) actions pair) : Teaching begin.outcome pair := by
  refine run.invariant (Teaching begin.outcome) ?_ ?_
  · have work := ready.work
    simp only [State.workBusy, not_or, Bool.not_eq_true, Bool.not_eq_false, State.idle,
      List.isEmpty_iff] at work
    exact ⟨ready.owned, ready.mode, work, .between ready.standBy rfl⟩
  · intro earlier before action after _ teaching ok moved
    exact teaching_next teaching ok moved

/-- After a session the servos are where its moves lead, and the recording holds the
window of its moves. -/
theorem outcome_of_teaching {begin : State} {actions : List Action} (ready : Ready begin)
    (run : Run nextCalls InTurn (begin, []) actions pair) (standBy : StandBy pair.1) :
    pair.1.outcome = ⟨moveAll begin.dev.servo.pos pair.2,
      window echoFifoSize (movesOf begin.dev.servo.pos pair.2)⟩ := by
  have empty : begin.outcome = ⟨begin.dev.servo.pos, []⟩ := by
    rw [State.outcome, ready.recording]
    rfl
  rw [(teaching_of_run ready run).taught.outcome standBy, empty, foldl_input]

end Next

end EchoRobot
