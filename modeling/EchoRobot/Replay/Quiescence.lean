import EchoRobot.Replay.Recording
import EchoRobot.Servo.Moves
import EchoRobot.Servo.Programming

/-! A stop beside the timer callback and the replay worker. It stores `IDLE`, deletes
the timer and cancels the work in this order, so that what each step rules out is not
brought back by what is still under way; `RESET` clears and centres after that. -/

namespace EchoRobot

open Interleaving

/-- The request is a stop or a `RESET`. -/
def Request.stops : Request → Bool
  | .write count (some cmd) => decide (sizeofEchoCmd ≤ count ∧ cmd.command = echoCmdStop)
  | .ioctl .reset | .ioctl (.setMode (some 0)) => true
  | _ => false

/-- Threads that enter by calls. -/
def Tid.calls : Tid → Bool
  | .proc _ | .irq _ => true
  | _ => false

/-- The other callers are at most waiting or reading. -/
def OthersStandBy (tid : Tid) (state : State) : Prop :=
  ∀ other, other.calls = true → other ≠ tid → ∀ instr ∈ state.code other, instr.bystands = true

/-- No thread enters the driver. -/
def NoCall (_ : State) (action : Action) : Prop := ∀ tid request, action ≠ .call tid request

/-- Nothing of a teach session or of a replay is left, and the worker moves no servo
before a later start. -/
structure Quiescent (state : State) : Prop where
  mode : state.dev.state.mode = .idle
  timer : state.dev.state.timerPending = false ∧ state.code .timer = []
  work : state.dev.buffer.replayPending = false ∧ state.code .worker = []
  later : ∀ actions final,
    Run next (fun state action => startsReplay state action = false) state actions final →
      ∀ env, final.servoCall? (.step .worker env) = none

/-- The recording is empty and the servos are centred. -/
structure Cleared (dev : EchoDevice) : Prop where
  recording : dev.buffer.moveFifo = []
  centred : ∀ servo, dev.servo.pos servo = echoServoCenter

/-- Instructions of a stop and of a `RESET`. -/
def Instr.ofStop : Instr → Bool
  | .lockSetMode .idle | .timerDeleteSync | .cancelWorkSync | .setReplayFinished true => true
  | .setNewDataAvail true | .wakeUp _ | .clearBuffer | .ret _ => true
  | .setAngle _ angle => angle == echoServoCenter
  | _ => false

/-- The mode is stored before the timer is deleted, that before the work is cancelled,
and that before `RESET` clears and centres. -/
def stopRule (reset : Bool) : Instr → Code → Bool
  | .lockSetMode _, rest => rest.contains .timerDeleteSync
  | .timerDeleteSync, rest => rest.contains .cancelWorkSync
  | .cancelWorkSync, rest => !reset || (rest.contains .clearBuffer &&
      [echoServoPan, echoServoTilt, echoServoTilt2].all fun servo =>
        rest.contains (.setAngle servo echoServoCenter))
  | .ret _, rest => rest.isEmpty
  | _, _ => true

theorem code_of_stops {request : Request} (stops : request.stops = true) :
    (∃ value, request.code = echoStateStop ++ [.ret value]) ∧ request ≠ .ioctl .reset ∨
      request = .ioctl .reset := by
  cases request with
  | write count copied =>
    cases copied with
    | none => cases stops
    | some cmd =>
      obtain ⟨size, command⟩ := of_decide_eq_true stops
      refine Or.inl ⟨⟨count, ?_⟩, by simp⟩
      simp [Request.code, echoWrite, Nat.not_lt.mpr size, command, echoCmdTeach, echoCmdReplay,
        echoCmdStop]
  | ioctl ioc =>
    cases ioc with
    | reset => exact Or.inr rfl
    | setMode copied =>
      obtain rfl : copied = some 0 := by
        rcases copied with _ | _ | _ | _ | mode <;> simp [Request.stops] at stops ⊢
      exact Or.inl ⟨⟨0, rfl⟩, by simp⟩
    | _ => cases stops
  | _ => cases stops

section Code
variable {request : Request}

theorem stops_ofStop (stops : request.stops = true) :
    ∀ instr ∈ request.code, instr.ofStop = true := by
  rcases code_of_stops stops with ⟨⟨value, code⟩, -⟩ | rfl
  · rw [code]
    simp [echoStateStop, stateOpCancelReplay, signalReplayDone, notifyReaders, Instr.ofStop]
  · decide

theorem stops_obeys (stops : request.stops = true) :
    obeys (stopRule (request == .ioctl .reset)) request.code = true := by
  rcases code_of_stops stops with ⟨⟨value, code⟩, plain⟩ | rfl
  · rw [code, beq_eq_false_iff_ne.mpr plain]
    rfl
  · decide

end Code

/-- A stop under way: what it has passed is settled. -/
structure Stopping (tid : Tid) (request : Request) (state : State) : Prop where
  suffix : state.code tid <:+ request.code
  others : OthersStandBy tid state
  mode : .lockSetMode .idle ∉ state.code tid → state.dev.state.mode = .idle
  timer : .timerDeleteSync ∉ state.code tid →
    state.dev.state.timerPending = false ∧ state.code .timer = []
  work : .cancelWorkSync ∉ state.code tid →
    state.dev.buffer.replayPending = false ∧ state.code .worker = []
  recording : request = .ioctl .reset → .clearBuffer ∉ state.code tid →
    state.dev.buffer.moveFifo = []
  centred : request = .ioctl .reset → ∀ servo : Fin echoNumServos,
    .setAngle servo echoServoCenter ∉ state.code tid →
    ∀ other ∈ movedServos servo, state.dev.servo.pos other = echoServoCenter

/-- Whose step an instruction is while a stop is under way. -/
inductive StopStep (tid : Tid) (instr : Instr) : Tid → Prop where
  | caller (own : instr.ofStop = true) : StopStep tid instr tid
  | timer (own : instr.ofTimer = true) : StopStep tid instr .timer
  | worker (own : instr.ofWorker = true) : StopStep tid instr .worker
  | other {actor : Tid} (own : instr.bystands = true) : StopStep tid instr actor

section Step
variable {tid : Tid} {request : Request} {state after : State} {action : Action}

theorem stopStep (owned : Owned state) (stops : request.stops = true)
    (stopping : Stopping tid request state) {actor : Tid} {instr : Instr} {rest : Code}
    (code : state.code actor = instr :: rest) : StopStep tid instr actor := by
  by_cases caller : actor = tid
  · subst caller
    exact .caller (stops_ofStop stops instr (stopping.suffix.subset (by simp [code])))
  have own := owned actor instr (by simp [code])
  cases actor with
  | timer => exact .timer own
  | worker => exact .worker own
  | proc id => exact .other (stopping.others _ rfl caller instr (by simp [code]))
  | irq id => exact .other (stopping.others _ rfl caller instr (by simp [code]))

/-- The caller goes on with its code, one step after the other. -/
theorem caller_next (calls : tid.calls = true) (stops : request.stops = true)
    (stopping : Stopping tid request state) (quiet : NoCall state action)
    (moved : next state action = some after) :
    after.code tid = state.code tid ∨
      ∃ env instr rest, action = .step tid env ∧ state.code tid = instr :: rest ∧
        after.code tid = rest := by
  by_cases actor : action.actor = some tid
  swap
  · left
    rw [State.code, thread_next actor moved]
    rfl
  have own : ∀ instr ∈ state.code tid, instr.ofStop = true := fun instr ahead =>
    stops_ofStop stops instr (stopping.suffix.subset ahead)
  cases acts actor moved with
  | call request' may => exact absurd rfl (quiet tid request')
  | step env instr rest done code taken =>
    right
    refine ⟨env, instr, rest, rfl, code, ?_⟩
    have kind := own instr (by simp [code])
    rw [settle_code]
    generalize done.2.code = left, exec_code taken = leaves
    cases leaves with
    | next => rfl
    | back returns =>
      have rule := obeys_suffix (code ▸ stopping.suffix) (stops_obeys stops)
      cases instr with
      | ret value => exact (List.isEmpty_iff.mp (obeys_head rule)).symm
      | _ =>
        first | exact absurd kind Bool.false_ne_true | exact absurd returns Bool.false_ne_true
    | stop same => subst same; cases kind
    | unroll same => subst same; cases kind
  | expire => cases calls
  | startWork => cases calls
  | signal asleep =>
    rcases asleep_cases asleep with ⟨rest, code, -⟩ | ⟨rest, code, -⟩
    · cases own .waitReplayDone (by simp [code])
    · cases own .waitNewData (by simp [code])

/-- What the caller has passed now it had passed before, or is passing. -/
theorem passed_next (calls : tid.calls = true) (stops : request.stops = true)
    (stopping : Stopping tid request state) (quiet : NoCall state action)
    (moved : next state action = some after) (target : Instr) (passed : target ∉ after.code tid) :
    target ∉ state.code tid ∨
      ∃ env rest, action = .step tid env ∧ state.code tid = target :: rest := by
  rcases caller_next calls stops stopping quiet moved with
    same | ⟨env, instr, rest, rfl, code, left⟩
  · exact Or.inl (same ▸ passed)
  · rw [left] at passed
    by_cases now : target = instr
    · subst now
      exact Or.inr ⟨env, rest, rfl, code⟩
    · exact Or.inl (by simp [code, now, passed])

/-- Nobody but the caller stores a mode other than `IDLE` over it. -/
theorem idle_next (owned : Owned state) (stops : request.stops = true)
    (stopping : Stopping tid request state) (moved : next state action = some after)
    (idle : state.dev.state.mode = .idle) : after.dev.state.mode = .idle := by
  rcases next_device moved with ⟨actor, env, instr, rest, done, rfl, code, taken, rfl⟩ | frame
  · have kind := stopStep owned stops stopping code
    cases exec_mode taken with
    | keep same => exact same.trans idle
    | enter lock =>
      subst lock
      cases kind <;> rename_i own <;> cases own
    | start lock =>
      rcases lock with ⟨rfl, -⟩ | ⟨-, teach⟩
      · cases kind <;> rename_i own <;> cases own
      · simp [idle] at teach
    | set stored lock mode =>
      subst lock
      cases stored with
      | idle => exact mode
      | _ => cases kind <;> rename_i own <;> cases own
    | complete lock mode => exact mode
  · rw [frame.mode (by simp), idle]

/-- A deleted timer stays deleted. -/
theorem deleted_next (owned : Owned state) (stops : request.stops = true)
    (stopping : Stopping tid request state) (moved : next state action = some after)
    (deleted : state.dev.state.timerPending = false ∧ state.code .timer = []) :
    after.dev.state.timerPending = false ∧ after.code .timer = [] := by
  constructor
  · by_contra pending
    rcases timerPending_of_next moved (by simpa using pending) with before | head
    · simp [deleted.1] at before
    · obtain ⟨actor, env, rest, done, rfl, code, -, -⟩ := next_instr head moved
      cases stopStep owned stops stopping code <;> rename_i own <;> cases own
  · by_cases actor : action.actor = some .timer
    · cases acts actor moved with
      | call request may => cases may
      | step env instr rest done code => simp [deleted.2] at code
      | expire pending => simp [deleted.1] at pending
      | signal asleep => simp [State.asleep, deleted.2] at asleep
    · rw [State.code, thread_next actor moved]
      exact deleted.2

/-- Cancelled work stays cancelled once the timer is deleted. -/
theorem cancelled_next (owned : Owned state) (stops : request.stops = true)
    (stopping : Stopping tid request state) (moved : next state action = some after)
    (timer : state.code .timer = [])
    (cancelled : state.dev.buffer.replayPending = false ∧ state.code .worker = []) :
    after.dev.buffer.replayPending = false ∧ after.code .worker = [] := by
  constructor
  · by_contra pending
    rcases replayPending_of_next moved (by simpa using pending) with before | head
    · simp [cancelled.1] at before
    · obtain ⟨actor, env, rest, done, rfl, code, -, -⟩ := next_instr head moved
      cases stopStep owned stops stopping code with
      | timer => simp [timer] at code
      | _ own => cases own
  · exact worker_rests owned cancelled.2 cancelled.1 moved

/-- Without the worker nobody records. -/
theorem cleared_recording_next (owned : Owned state) (stops : request.stops = true)
    (stopping : Stopping tid request state) (moved : next state action = some after)
    (worker : state.code .worker = []) (empty : state.dev.buffer.moveFifo = []) :
    after.dev.buffer.moveFifo = [] := by
  rcases next_device moved with ⟨actor, env, instr, rest, done, rfl, code, taken, rfl⟩ | frame
  · rw [settle_dev]
    have kind := stopStep owned stops stopping code
    cases instr with
    | clearBuffer =>
      cases taken
      rfl
    | recordMove => cases kind <;> rename_i own <;> cases own
    | snapshot =>
      cases kind with
      | worker => simp [worker] at code
      | _ own => cases own
    | _ => rw [(exec_frame taken).fifo (by simp [Instr.writes]), empty]
  · rw [frame.fifo (by simp), empty]

/-- Without the worker every servo move is a centring move. -/
theorem target_of_stop (owned : Owned state) (stops : request.stops = true)
    (stopping : Stopping tid request state) (worker : state.code .worker = [])
    {call : ServoCall} (makes : state.servoCall? action = some call) :
    call.target = echoServoCenter := by
  obtain ⟨actor, env, instr, rest, rfl, code, moves⟩ := movesServo_of makes
  have kind := stopStep owned stops stopping code
  cases moves with
  | plain servoId angle =>
    cases kind with
    | caller own =>
      obtain rfl : angle = echoServoCenter := by simpa [Instr.ofStop] using own
      rfl
    | worker => simp [worker] at code
    | _ own => cases own
  | _ => cases kind <;> rename_i own <;> cases own

theorem centre_next (owned : Owned state) (stops : request.stops = true)
    (stopping : Stopping tid request state) (moved : next state action = some after)
    (worker : state.code .worker = []) {servo : Fin echoNumServos}
    (centre : state.dev.servo.pos servo = echoServoCenter) :
    after.dev.servo.pos servo = echoServoCenter := by
  cases makes : state.servoCall? action with
  | none => rw [servo_of_none moved makes, centre]
  | some call =>
    have target := target_of_stop owned stops stopping worker makes
    rw [servo_of_call moved makes]
    by_cases known : call.servoId < echoNumServos
    · rw [pos_run known, movePos_apply, target, centre, ite_self]
    · rw [run_unknown (by omega), centre]

/-- The timer is deleted before the work is cancelled. -/
theorem deleted_of_cancelled (stops : request.stops = true)
    (stopping : Stopping tid request state) (cancelled : .cancelWorkSync ∉ state.code tid) :
    state.code .timer = [] := by
  refine (stopping.timer fun ahead => ?_).2
  obtain ⟨rest, ending, rule⟩ := obeys_mem (obeys_suffix stopping.suffix (stops_obeys stops)) ahead
  have later : .cancelWorkSync ∈ rest := by simpa [stopRule] using rule
  exact cancelled (ending.subset (List.mem_cons_of_mem _ later))

/-- The work is cancelled before `RESET` clears and centres. -/
theorem cancelled_of_reset (reset : request = .ioctl .reset)
    (stopping : Stopping tid request state)
    (past : .clearBuffer ∉ state.code tid ∨
      ∃ servo : Fin echoNumServos, .setAngle servo echoServoCenter ∉ state.code tid) :
    state.code .worker = [] := by
  subst reset
  refine (stopping.work fun ahead => ?_).2
  obtain ⟨rest, ending, rule⟩ := obeys_mem (obeys_suffix stopping.suffix (stops_obeys rfl)) ahead
  have inside : ∀ instr ∈ rest, instr ∈ state.code tid := fun instr member =>
    ending.subset (List.mem_cons_of_mem _ member)
  simp [stopRule] at rule
  obtain ⟨clears, pan, tilt, tilt2⟩ := rule
  rcases past with past | ⟨servo, past⟩
  · exact past (inside _ clears)
  · rcases pan_tilt_or_tilt2 servo with rfl | rfl | rfl <;> exact past (inside _ (by assumption))

/-- The caller executes its instruction itself. -/
theorem executes {env : Env} {instr : Instr} {rest : Code} (code : state.code tid = instr :: rest)
    (moved : next state (.step tid env) = some after) :
    ∃ done, exec state tid env instr rest = some done ∧ state.settle tid done.1 done.2 = after := by
  obtain ⟨instr', rest', done, code', taken, settled⟩ := next_step.mp moved
  obtain ⟨rfl, rfl⟩ := List.cons.inj (code'.symm.trans code)
  exact ⟨done, taken, settled⟩

theorem timerDeleteSync_next {env : Env} {rest : Code} (calls : tid.calls = true)
    (code : state.code tid = .timerDeleteSync :: rest)
    (moved : next state (.step tid env) = some after) :
    after.dev.state.timerPending = false ∧ after.code .timer = [] := by
  obtain ⟨done, taken, rfl⟩ := executes code moved
  have other : Tid.timer ≠ tid := by
    rintro rfl
    cases calls
  simp only [exec, State.idle, List.isEmpty_iff] at taken
  split at taken <;> cases taken
  rename_i idle
  exact ⟨rfl, (settle_code_of_ne _ _ _ _ _ other).trans idle⟩

theorem cancelWorkSync_next {env : Env} {rest : Code} (calls : tid.calls = true)
    (code : state.code tid = .cancelWorkSync :: rest)
    (moved : next state (.step tid env) = some after) :
    after.dev.buffer.replayPending = false ∧ after.code .worker = [] := by
  obtain ⟨done, taken, rfl⟩ := executes code moved
  have other : Tid.worker ≠ tid := by
    rintro rfl
    cases calls
  simp only [exec, State.idle, List.isEmpty_iff] at taken
  split at taken <;> cases taken
  rename_i idle
  exact ⟨rfl, (settle_code_of_ne _ _ _ _ _ other).trans idle⟩

theorem centring_next {env : Env} {rest : Code} {servo : Fin echoNumServos}
    (code : state.code tid = .setAngle servo echoServoCenter :: rest)
    (moved : next state (.step tid env) = some after) :
    ∀ other ∈ movedServos servo, after.dev.servo.pos other = echoServoCenter := by
  intro other member
  obtain ⟨done, taken, rfl⟩ := executes code moved
  cases taken
  rw [settle_dev, pos_echoServoSetAngle _ _ _ (by decide), movePos_apply, if_pos member]

/-- The others, left alone, come no further than to a wait or through a read. -/
theorem othersStandBy_next (owned : Owned state) (others : OthersStandBy tid state)
    (quiet : NoCall state action) (moved : next state action = some after) :
    OthersStandBy tid after := by
  intro other own different
  have caller : other ≠ .worker ∧ other ≠ .timer := by
    constructor <;> rintro rfl <;> cases own
  exact standsBy_next owned caller.1 (others other own different) (quiet other)
    (fun timer => absurd timer caller.2) moved

theorem stopping_next (calls : tid.calls = true) (owned : Owned state)
    (stops : request.stops = true) (stopping : Stopping tid request state)
    (quiet : NoCall state action) (moved : next state action = some after) :
    Stopping tid request after where
  suffix := by
    rcases caller_next calls stops stopping quiet moved with
      same | ⟨env, instr, rest, rfl, code, left⟩
    · exact same ▸ stopping.suffix
    · rw [left]
      exact (code ▸ List.suffix_cons instr rest).trans stopping.suffix
  others := othersStandBy_next owned stopping.others quiet moved
  mode past := by
    rcases passed_next calls stops stopping quiet moved _ past with before | ⟨env, rest, rfl, code⟩
    · exact idle_next owned stops stopping moved (stopping.mode before)
    · obtain ⟨done, taken, rfl⟩ := executes code moved
      cases taken
      rfl
  timer past := by
    rcases passed_next calls stops stopping quiet moved _ past with before | ⟨env, rest, rfl, code⟩
    · exact deleted_next owned stops stopping moved (stopping.timer before)
    · exact timerDeleteSync_next calls code moved
  work past := by
    rcases passed_next calls stops stopping quiet moved _ past with before | ⟨env, rest, rfl, code⟩
    · exact cancelled_next owned stops stopping moved
        (deleted_of_cancelled stops stopping before) (stopping.work before)
    · exact cancelWorkSync_next calls code moved
  recording reset past := by
    rcases passed_next calls stops stopping quiet moved _ past with before | ⟨env, rest, rfl, code⟩
    · exact cleared_recording_next owned stops stopping moved
        (cancelled_of_reset reset stopping (Or.inl before)) (stopping.recording reset before)
    · obtain ⟨done, taken, rfl⟩ := executes code moved
      cases taken
      rfl
  centred reset servo past other member := by
    rcases passed_next calls stops stopping quiet moved _ past with before | ⟨env, rest, rfl, code⟩
    · exact centre_next owned stops stopping moved
        (cancelled_of_reset reset stopping (Or.inr ⟨servo, before⟩))
        (stopping.centred reset servo before other member)
    · exact centring_next code moved other member

/-- Once nothing of a replay is left, the worker rests until a later start. -/
theorem replayOver_of_run {start : State} {actions : List Action} (owned : Owned start)
    (shape : Obeys startRule start) (past : ReplayOver start) (worker : start.code .worker = [])
    (run : Run next (fun state action => startsReplay state action = false) start actions state) :
    state.code .worker = [] := by
  have kept : (Owned state ∧ Obeys startRule state) ∧
      ReplayOver state ∧ state.code .worker = [] := by
    refine run.invariant (fun state => (Owned state ∧ Obeys startRule state) ∧
      ReplayOver state ∧ state.code .worker = []) ⟨⟨owned, shape⟩, past, worker⟩ ?_
    rintro - before action after - ⟨⟨owned, shape⟩, past, worker⟩ quiet moved
    refine ⟨⟨owned_next owned moved, startRule_lawful.next shape moved⟩,
      replayOver_next owned shape past (fun instr head lock => ?_) moved,
      worker_rests owned worker past.pending moved⟩
    simp [startsReplay_of head lock] at quiet
  exact kept.2.2

/-- When the call is back, nobody is left that could queue the work. -/
theorem replayOver_of_returned (stopping : Stopping tid request state)
    (returned : state.code tid = []) : ReplayOver state where
  pending := (stopping.work (by simp [returned])).1
  playing := by simp [State.playing, (stopping.work (by simp [returned])).2]
  starting := by
    rintro ⟨other, starting⟩
    have member := queueWork_of_commits starting
    by_cases own : other = tid
    · simp [own, returned] at member
    · have stands : other.calls = true → False := fun calls =>
        absurd (stopping.others other calls own .queueWork member) (by decide)
      cases other with
      | proc id => exact stands rfl
      | irq id => exact stands rfl
      | timer => simp [(stopping.timer (by simp [returned])).2] at member
      | worker => simp [(stopping.work (by simp [returned])).2] at member

theorem quiescent_of_returned (owned : Owned state) (shape : Obeys startRule state)
    (stopping : Stopping tid request state) (returned : state.code tid = []) : Quiescent state where
  mode := stopping.mode (by simp [returned])
  timer := stopping.timer (by simp [returned])
  work := stopping.work (by simp [returned])
  later actions final run env := by
    have rests := replayOver_of_run owned shape (replayOver_of_returned stopping returned)
      (stopping.work (by simp [returned])).2 run
    simp [State.servoCall?, rests]

theorem cleared_of_returned (reset : request = .ioctl .reset)
    (stopping : Stopping tid request state) (returned : state.code tid = []) :
    Cleared state.dev where
  recording := stopping.recording reset (by simp [returned])
  centred servo := by
    refine stopping.centred reset servo (by simp [returned]) servo ?_
    rcases pan_tilt_or_tilt2 servo with rfl | rfl | rfl <;> decide

/-- A stop that has just been entered has passed nothing. -/
theorem stopping_initial (stops : request.stops = true) (others : OthersStandBy tid state)
    (enters : next state (.call tid request) = some after) : Stopping tid request after := by
  obtain ⟨-, rfl⟩ := next_call.mp enters
  have code := enter_code state tid request
  unfold State.enter at code
  have ahead : (.lockSetMode .idle ∈ request.code ∧ .timerDeleteSync ∈ request.code ∧
      .cancelWorkSync ∈ request.code) ∧ (request = .ioctl .reset → .clearBuffer ∈ request.code ∧
        ∀ servo : Fin echoNumServos, .setAngle servo echoServoCenter ∈ request.code) := by
    rcases code_of_stops stops with ⟨⟨value, own⟩, plain⟩ | rfl
    · rw [own]
      simp [echoStateStop, stateOpCancelReplay, plain]
    · decide
  rw [← code] at ahead
  obtain ⟨⟨mode, timer, work⟩, resets⟩ := ahead
  refine ⟨by rw [code], ?_, absurd mode, absurd timer, absurd work,
    fun reset => absurd (resets reset).1, fun reset servo => absurd ((resets reset).2 servo)⟩
  intro other calls different instr member
  rw [settle_code_of_ne _ _ _ _ _ different] at member
  exact others other calls different instr member

end Step

section Reached
variable {servo : EchoServoCtx} {clock : Nat} {earlier actions : List Action}
variable {start entered final : State} {tid : Tid} {request : Request}

/-- A stop or a `RESET` that runs beside the timer and the worker, from any state
reached, has ended the session and the replay when it returns. -/
theorem stop_reaches_quiescence
    (before : Run next anyStep (State.initial servo clock) earlier start)
    (stops : request.stops = true) (others : OthersStandBy tid start)
    (enters : next start (.call tid request) = some entered)
    (run : Run next NoCall entered actions final) (returned : final.code tid = []) :
    Quiescent final ∧ (request = .ioctl .reset → Cleared final.dev) := by
  have reached : Run next anyStep (State.initial servo clock) (earlier ++ [.call tid request])
      entered := .step before trivial enters
  have calls : tid.calls = true := by
    obtain ⟨⟨may, -⟩, -⟩ := next_call.mp enters
    cases tid <;> first | rfl | cases may
  have stopping : Stopping tid request final := by
    refine run.invariant (Stopping tid request) (stopping_initial stops others enters) ?_
    intro done state action after ran stopping quiet moved
    exact stopping_next calls (owned_of_run (reached.trans ran.any)) stops stopping quiet moved
  have whole := reached.trans run.any
  exact ⟨quiescent_of_returned (owned_of_run whole) (startRule_lawful.of_run whole) stopping
    returned, fun reset => cleared_of_returned reset stopping returned⟩

end Reached

/-- `RESET` is called while the worker sleeps before the recorded move, which the
worker still makes. -/
def resetDuringReplay : List Action :=
  steps (.proc 0) 2 ++ steps .worker 9 ++ steps (.proc 0) 14

theorem stop_reaches_quiescence_resetDuringReplay :
    ∃ start entered final, run next (State.initial simServo 0) replayingOneMove = some start ∧
      next start (.call (.proc 0) (.ioctl .reset)) = some entered ∧
      run next entered resetDuringReplay = some final ∧
      start.dev.buffer.moveFifo ≠ [] ∧ start.code .worker ≠ [] ∧
      Quiescent final ∧ Cleared final.dev := by
  obtain ⟨start, earlier, facts⟩ := exists_run next
    (movesOnly [.proc 0, .proc 1, .irq 0, .worker]) (State.initial simServo 0) replayingOneMove
    (fun start => !start.dev.buffer.moveFifo.isEmpty && !start.idle .worker &&
      start.idle (.irq 0) && (start.code (.proc 1)).all Instr.bystands &&
      (next start (.call (.proc 0) (.ioctl .reset))).any fun entered =>
        (run (guarded (fun _ _ => true) next) entered resetDuringReplay).any (·.idle (.proc 0)))
    (by decide)
  simp only [Bool.and_eq_true, Bool.not_eq_true', List.isEmpty_eq_false_iff, State.idle,
    List.isEmpty_iff, List.all_eq_true, Option.any_eq_true] at facts
  obtain ⟨⟨⟨⟨recorded, playing⟩, input⟩, waiting⟩, entered, enters, final, ran, returned⟩ := facts
  have others : OthersStandBy (.proc 0) start := by
    intro other calls different instr member
    by_cases listed : other ∈ [.proc 0, .proc 1, .irq 0, .worker]
    · simp only [List.mem_cons, List.not_mem_nil, or_false] at listed
      rcases listed with rfl | rfl | rfl | rfl
      · exact absurd rfl different
      · exact waiting instr member
      · simp [input] at member
      · cases calls
    · simp [code_of_run _ earlier (fun _ _ passed => passed) listed] at member
  have alone : Run next NoCall entered resetDuringReplay final := by
    refine Run.ofExecution (Run.ofGuarded ran).execution fun action member _ tid request => ?_
    simp only [resetDuringReplay, steps, List.mem_append, List.mem_replicate] at member
    rcases member with (⟨-, rfl⟩ | ⟨-, rfl⟩) | ⟨-, rfl⟩ <;> simp
  obtain ⟨quiescent, cleared⟩ :=
    stop_reaches_quiescence earlier.any (by rfl) others enters alone returned
  exact ⟨start, entered, final, earlier.execution, enters, alone.execution, recorded, playing,
    quiescent, cleared rfl⟩

end EchoRobot
