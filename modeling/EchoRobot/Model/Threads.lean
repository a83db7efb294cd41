import EchoRobot.Model.Step

/-! Which code a call can enter, and which instructions each kind of thread can
ever have before it. -/

namespace EchoRobot

open Interleaving

/-- The code a thread enters by a call, up to constants. -/
inductive Entry : Tid → Code → Prop where
  | reject (id : Nat) (value : Int) : Entry (.proc id) [.ret value]
  | read (id : Nat) (nonblock : Bool) (count : Nat) : Entry (.proc id) (echoRead nonblock count)
  | teach (id : Nat) (value : Int) : Entry (.proc id) (echoStateSetMode .teach ++ [.ret value])
  | replayWrite (id : Nat) (value : Int) : Entry (.proc id)
      ([.setReplayFinished false] ++ echoStateStartReplay ++ [.waitReplayDone, .ret value])
  | start (id : Nat) (value : Int) : Entry (.proc id) (echoStateStartReplay ++ [.ret value])
  | stop (id : Nat) (value : Int) : Entry (.proc id) (echoStateStop ++ [.ret value])
  | move (id servoId angle : Nat) (value : Int) : Entry (.proc id)
      ([.setAngleOrReturn servoId angle] ++ notifyReaders ++ [.ret value])
  | setSpeed (id speed : Nat) : Entry (.proc id) [.setReplaySpeed speed, .ret 0]
  | reset (id : Nat) : Entry (.proc id) echoIocReset
  | getState (id : Nat) : Entry (.proc id)
      (buildSnapshot ++ [.copyToUser sizeofEchoSnapshot, .ret 0])
  | input (id : Nat) (pin : EchoGpio) : Entry (.irq id) (joyOpDirection pin)

theorem echoWrite_entry (id count : Nat) (copied : Option EchoCmd) :
    Entry (.proc id) (echoWrite count copied) := by
  unfold echoWrite
  split
  · exact .reject id _
  · cases copied with
    | none => exact .reject id _
    | some cmd =>
      dsimp only
      split
      · exact .teach id _
      · split
        · exact .replayWrite id _
        · split
          · exact .stop id _
          · split
            · exact .move id _ _ _
            · exact .reject id _

theorem echoIoctl_entry (id : Nat) (ioc : EchoIoc) : Entry (.proc id) (echoIoctl ioc) := by
  unfold echoIoctl
  split
  · exact .reject id _
  · split
    · exact .reject id _
    · exact .setSpeed id _
  · exact .reset id
  · exact .getState id
  · exact .reject id _
  · exact .stop id _
  · exact .teach id _
  · exact .start id _
  · exact .reject id _
  · exact .reject id _

theorem entry_of_mayCall {tid : Tid} {request : Request} (may : tid.mayCall request = true) :
    Entry tid request.code := by
  cases tid with
  | proc id =>
    cases request with
    | read nonblock count => exact .read id nonblock count
    | write count copied => exact echoWrite_entry id count copied
    | ioctl ioc => exact echoIoctl_entry id ioc
    | input pin => simp [Tid.mayCall] at may
  | irq id =>
    cases request with
    | input pin => exact .input id pin
    | _ => simp [Tid.mayCall] at may
  | _ => simp [Tid.mayCall] at may

/-- Instructions of a joystick step. -/
def Instr.ofInput : Instr → Bool
  | .lockHandleInput | .getServo .. | .moveServo _ | .ktimeGet | .seqlockDelay => true
  | .recordMove _ | .incTotalMoves | .modTimer | .setNewDataAvail true | .wakeUp _ => true
  | _ => false

/-- Instructions of the timer callback. -/
def Instr.ofTimer : Instr → Bool
  | .lockInactivity | .queueWork | .setNewDataAvail true | .wakeUp _ => true
  | _ => false

/-- Instructions of the replay worker. -/
def Instr.ofWorker : Instr → Bool
  | .snapshot | .incReplayCount | .shouldStop | .testSpeed _ | .divideDelay => true
  | .msleep | .setAngle .. => true
  | .lockReplayComplete | .setReplayFinished true => true
  | .setNewDataAvail true | .wakeUp _ => true
  | _ => false

/-- Instructions of the system calls. -/
def Instr.ofSyscall : Instr → Bool
  | .lockHandleInput | .lockInactivity | .lockReplayComplete | .getServo .. => false
  | .moveServo _ | .seqlockDelay | .recordMove _ | .incTotalMoves => false
  | .snapshot | .incReplayCount | .shouldStop | .testSpeed _ | .divideDelay => false
  | .msleep => false
  | _ => true

def Tid.runs : Tid → Instr → Bool
  | .proc _ => Instr.ofSyscall
  | .irq _ => Instr.ofInput
  | .timer => Instr.ofTimer
  | .worker => Instr.ofWorker

theorem Entry.runs {tid : Tid} {code : Code} (entry : Entry tid code) :
    ∀ instr ∈ code, tid.runs instr = true := by
  cases entry with
  | input id pin =>
    cases pin <;>
      simp [joyOpDirection, echoStateHandleInput, notifyReaders, Tid.runs, Instr.ofInput]
  | read id nonblock count =>
    cases nonblock <;> simp [echoRead, buildSnapshot, Tid.runs, Instr.ofSyscall]
  | _ =>
    simp [echoStateSetMode, echoStateStartReplay, echoStateStop, stateOpStartReplay,
      stateOpCancelReplay, signalReplayDone, notifyReaders, echoIocReset, buildSnapshot,
      Tid.runs, Instr.ofSyscall]

/-- An instruction that no system call has is one of a joystick call. -/
theorem input_of_request {tid : Tid} {request : Request} {instr : Instr}
    (may : tid.mayCall request = true) (member : instr ∈ request.code)
    (foreign : instr.ofSyscall = false) : ∃ pin, instr ∈ joyOpDirection pin := by
  have own := (entry_of_mayCall may).runs instr member
  cases tid with
  | proc id => simp [Tid.runs, foreign] at own
  | irq id =>
    cases request with
    | input pin => exact ⟨pin, member⟩
    | _ => cases may
  | _ => cases may

/-- The requests that copy a snapshot. -/
def Request.snapshots : Request → Bool
  | .read .. | .ioctl .getState => true
  | _ => false

def Request.toCopy : Request → Nat
  | .read _ count => min count sizeofEchoSnapshot
  | _ => sizeofEchoSnapshot

/-- No other request copies anything to its caller, and these copy `toCopy` bytes. -/
theorem mem_copyToUser_iff {request : Request} {size : Nat} :
    .copyToUser size ∈ request.code ↔ request.snapshots = true ∧ size = request.toCopy := by
  cases request with
  | read nonblock count =>
    cases nonblock <;>
      simp [Request.code, echoRead, buildSnapshot, Request.snapshots, Request.toCopy]
  | write count copied =>
    simp only [Request.code, echoWrite, Request.snapshots, Bool.false_eq_true, false_and, iff_false]
    repeat' split
    all_goals simp [echoStateSetMode, echoStateStartReplay, echoStateStop, stateOpStartReplay,
      stateOpCancelReplay, signalReplayDone, notifyReaders]
  | ioctl ioc =>
    by_cases getState : ioc = .getState
    · subst getState
      simp [Request.code, echoIoctl, buildSnapshot, Request.snapshots, Request.toCopy]
    · have other : (Request.ioctl ioc).snapshots = false := by
        cases ioc <;> first | rfl | exact absurd rfl getState
      simp only [other, Bool.false_eq_true, false_and, iff_false, Request.code, echoIoctl]
      repeat' split
      all_goals first
        | exact absurd rfl getState
        | simp [echoStateSetMode, echoStateStartReplay, echoStateStop, stateOpStartReplay,
            stateOpCancelReplay, signalReplayDone, notifyReaders, echoIocReset]
  | input pin => cases pin <;> simp [Request.code, joyOpDirection, echoStateHandleInput,
      notifyReaders, Request.snapshots]

theorem inactivityTimerFn_runs : ∀ instr ∈ inactivityTimerFn, instr.ofTimer = true := by
  decide

theorem replayWorker_runs : ∀ instr ∈ replayWorker, instr.ofWorker = true := by
  decide

/-- The worker has no instruction that returns to its caller. -/
theorem Instr.ofWorker_stays {instr : Instr} (own : instr.ofWorker = true) :
    instr.mayReturn = false := by
  cases instr <;> first | rfl | cases own

theorem bufOpReplayDone_runs : ∀ instr ∈ bufOpReplayDone, instr.ofWorker = true := by
  decide

theorem replayLoop_runs (moves : List EchoMove) :
    ∀ instr ∈ replayLoop moves, instr.ofWorker = true := by
  intro instr member
  have loop := replayLoop_ofLoop moves instr member
  cases instr with
  | setNewDataAvail value => cases value <;> first | rfl | cases loop
  | _ => first | rfl | cases loop

/-- Every thread has only instructions of its own kind before it. -/
def Owned (state : State) : Prop :=
  ∀ tid, ∀ instr ∈ state.code tid, tid.runs instr = true

theorem owned_settle {state : State} {tid : Tid} {dev : EchoDevice} {thread : Thread}
    (owned : Owned state) (own : ∀ instr ∈ thread.code, tid.runs instr = true) :
    Owned (state.settle tid dev thread) := by
  intro other instr member
  by_cases same : other = tid
  · subst other
    exact own instr (by simpa using member)
  · rw [settle_code_of_ne _ _ _ _ _ same] at member
    exact owned other instr member

/-- The loop and the completion belong to the worker, which alone jumps to them. -/
theorem Leaves.runs {state : State} {tid : Tid} {instr : Instr} {rest code : Code}
    (leaves : Leaves state instr rest code)
    (own : ∀ instr' ∈ instr :: rest, tid.runs instr' = true) :
    ∀ instr' ∈ code, tid.runs instr' = true := by
  have head := own instr (by simp)
  have tail : ∀ instr' ∈ rest, tid.runs instr' = true :=
    fun instr' inside => own instr' (by simp [inside])
  cases leaves with
  | next => exact tail
  | back => simp
  | stop same =>
    subst same
    cases tid <;> simp [Tid.runs, Instr.ofSyscall, Instr.ofInput, Instr.ofTimer] at head
    exact bufOpReplayDone_runs
  | unroll same =>
    subst same
    cases tid <;> simp [Tid.runs, Instr.ofSyscall, Instr.ofInput, Instr.ofTimer] at head
    intro instr' inside
    rcases List.mem_append.mp inside with loop | later
    · exact replayLoop_runs _ instr' loop
    · exact tail instr' later

theorem owned_next {state after : State} {action : Action} (owned : Owned state)
    (moved : next state action = some after) : Owned after := by
  cases action with
  | call tid request =>
    obtain ⟨⟨may, -⟩, rfl⟩ := next_call.mp moved
    exact owned_settle owned (entry_of_mayCall may).runs
  | step tid env =>
    obtain ⟨instr, rest, done, code, taken, rfl⟩ := next_step.mp moved
    exact owned_settle owned ((exec_code taken).runs (code ▸ owned tid))
  | expire =>
    obtain ⟨-, rfl⟩ := next_expire.mp moved
    exact owned_settle owned inactivityTimerFn_runs
  | startWork =>
    obtain ⟨-, rfl⟩ := next_startWork.mp moved
    exact owned_settle owned replayWorker_runs
  | tick ns =>
    obtain rfl := next_tick.mp moved
    exact owned
  | signal tid =>
    obtain ⟨-, rfl⟩ := next_signal.mp moved
    exact owned_settle owned (by simp)

theorem owned_initial (servo : EchoServoCtx) (clock : Nat) :
    Owned (State.initial servo clock) := by
  intro tid instr member
  simp [State.code, State.initial, Thread.initial] at member

/-- How one action moves a thread other than the worker. -/
inductive Moves (state : State) (tid : Tid) : Action → State → Prop where
  | still {action : Action} {after : State} (other : action.actor ≠ some tid)
      (same : after.thread tid = state.thread tid) : Moves state tid action after
  | call {after : State} (request : Request) (may : tid.mayCall request = true)
      (code : after.code tid = request.code) : Moves state tid (.call tid request) after
  | expire {after : State} (timer : tid = .timer) (code : after.code tid = inactivityTimerFn) :
      Moves state tid .expire after
  | back {action : Action} {after : State} (actor : action.actor = some tid)
      (code : after.code tid = []) : Moves state tid action after
  | step (env : Env) (instr : Instr) (rest : Code) (done : EchoDevice × Thread)
      (code : state.code tid = instr :: rest) (taken : exec state tid env instr rest = some done)
      (left : done.2.code = rest) : Moves state tid (.step tid env) (state.settle tid done.1 done.2)

theorem moves {state after : State} {action : Action} {tid : Tid} (owned : Owned state)
    (other : tid ≠ .worker) (moved : next state action = some after) :
    Moves state tid action after := by
  by_cases actor : action.actor = some tid
  · cases acts actor moved with
    | call request may => exact .call request may (by simp)
    | step env instr rest done code taken =>
      have own : tid.runs instr = true := owned tid instr (by simp [code])
      generalize reached : done.2.code = left, exec_code taken = leaves
      cases leaves with
      | next => exact .step env instr rest done code taken reached
      | back => exact .back actor (by simp [reached])
      | stop same =>
        subst same
        cases tid <;> first | exact absurd rfl other | cases own
      | unroll same =>
        subst same
        cases tid <;> first | exact absurd rfl other | cases own
    | expire => exact .expire rfl (by simp)
    | startWork => exact absurd rfl other
    | signal => exact .back actor (by simp)
  · exact .still actor (thread_next actor moved)

/-- A thread that stands by goes on standing by while it enters nothing. -/
theorem standsBy_next {state after : State} {action : Action} {tid : Tid} (owned : Owned state)
    (other : tid ≠ .worker) (stands : ∀ instr ∈ state.code tid, instr.bystands = true)
    (calls : ∀ request, action ≠ .call tid request) (expires : tid = .timer → action ≠ .expire)
    (moved : next state action = some after) :
    ∀ instr ∈ after.code tid, instr.bystands = true := by
  cases moves owned other moved with
  | still _ same => rwa [State.code, same]
  | call request => exact absurd rfl (calls request)
  | expire timer => exact absurd rfl (expires timer)
  | back actor code => simp [code]
  | step env instr rest done code taken left =>
    rw [settle_code, left]
    exact fun later member => stands later (by simp [code, member])

/-- How one action moves the worker, which only jumps within its own function. -/
inductive WorkerMoves (state : State) : Action → State → Prop where
  | still {action : Action} {after : State} (other : action.actor ≠ some .worker)
      (same : after.thread .worker = state.thread .worker) : WorkerMoves state action after
  | start {after : State} (pending : state.dev.buffer.replayPending = true)
      (code : after.code .worker = replayWorker) : WorkerMoves state .startWork after
  | step (env : Env) (instr : Instr) (rest : Code) (done : EchoDevice × Thread)
      (code : state.code .worker = instr :: rest)
      (taken : exec state .worker env instr rest = some done) (own : instr.ofWorker = true)
      (left : Leaves state instr rest done.2.code) :
      WorkerMoves state (.step .worker env) (state.settle .worker done.1 done.2)

theorem worker_moves {state after : State} {action : Action} (owned : Owned state)
    (moved : next state action = some after) : WorkerMoves state action after := by
  by_cases actor : action.actor = some .worker
  · cases acts actor moved with
    | call request may => simp [Tid.mayCall] at may
    | step env instr rest done code taken =>
      exact .step env instr rest done code taken (owned .worker instr (by simp [code]))
        (exec_code taken)
    | startWork pending => exact .start pending (by simp)
    | signal asleep =>
      rcases asleep_cases asleep with ⟨rest, code, -⟩ | ⟨rest, code, -⟩
      · exact absurd (owned .worker .waitReplayDone (by simp [code])) (by decide)
      · exact absurd (owned .worker .waitNewData (by simp [code])) (by decide)
  · exact .still actor (thread_next actor moved)

/-- Without a work item the worker rests. -/
theorem worker_rests {state after : State} {action : Action} (owned : Owned state)
    (idle : state.code .worker = []) (item : state.dev.buffer.replayPending = false)
    (moved : next state action = some after) : after.code .worker = [] := by
  cases worker_moves owned moved with
  | still other same => exact (congrArg Thread.code same).trans idle
  | start pending => simp [item] at pending
  | step env instr rest done code => simp [idle] at code

/-- What is left of the function that a thread other than the worker is in. -/
inductive Serves : Tid → Code → Prop where
  | idle (tid : Tid) : Serves tid []
  | request {tid : Tid} {code : Code} (request : Request) (may : tid.mayCall request = true)
      (suffix : code <:+ request.code) : Serves tid code
  | timer {code : Code} (suffix : code <:+ inactivityTimerFn) : Serves .timer code

theorem Serves.tail {tid : Tid} {instr : Instr} {rest : Code}
    (serves : Serves tid (instr :: rest)) : Serves tid rest := by
  generalize whole : instr :: rest = code at serves
  cases serves with
  | idle => cases whole
  | request request may suffix =>
    subst whole
    exact .request request may ((List.suffix_cons instr rest).trans suffix)
  | timer suffix =>
    subst whole
    exact .timer ((List.suffix_cons instr rest).trans suffix)

theorem serves_next {state after : State} {action : Action} {tid : Tid} (owned : Owned state)
    (other : tid ≠ .worker) (serves : Serves tid (state.code tid))
    (moved : next state action = some after) : Serves tid (after.code tid) := by
  cases moves owned other moved with
  | still _ same => rwa [State.code, same]
  | call request may code => exact code ▸ .request request may List.suffix_rfl
  | expire timer code =>
    subst timer
    exact code ▸ .timer List.suffix_rfl
  | back actor code => exact code ▸ .idle tid
  | step env instr rest done code taken left =>
    rw [settle_code, left]
    exact (code ▸ serves).tail

/-- The worker is on its way to its snapshot, in its loop or in its completion. -/
inductive WorkerCode : Code → Prop where
  | tail {code : Code} (suffix : code <:+ replayWorker) : WorkerCode code
  | loop (moves : List EchoMove) (left : Code) (suffix : left <:+ replayLoop moves) :
      WorkerCode (left ++ bufOpReplayDone)

theorem bufOpReplayDone_suffix : bufOpReplayDone <:+ replayWorker :=
  List.suffix_append _ _

theorem WorkerCode.tail_loop {instr : Instr} {rest : Code} (shape : WorkerCode (instr :: rest)) :
    WorkerCode rest := by
  generalize whole : instr :: rest = code at shape
  cases shape with
  | tail suffix => exact .tail ((whole ▸ List.suffix_cons instr rest).trans suffix)
  | loop moves left suffix =>
    cases left with
    | nil =>
      have inside : rest <:+ bufOpReplayDone := by
        rw [List.nil_append] at whole
        exact whole ▸ List.suffix_cons instr rest
      exact .tail (inside.trans bufOpReplayDone_suffix)
    | cons head left =>
      obtain ⟨rfl, rfl⟩ := List.cons.inj whole
      exact .loop moves left ((List.suffix_cons instr left).trans suffix)

theorem WorkerCode.of_snapshot {rest : Code} (shape : WorkerCode (.snapshot :: rest)) :
    rest = bufOpReplayDone := by
  generalize whole : Instr.snapshot :: rest = code at shape
  cases shape with
  | tail suffix =>
    subst whole
    rcases List.suffix_cons_iff.mp suffix with same | inside
    · exact (List.cons.inj same).2
    · exact absurd (inside.subset (by simp : Instr.snapshot ∈ .snapshot :: rest)) (by decide)
  | loop moves left suffix =>
    cases left with
    | nil => cases whole
    | cons head left =>
      obtain ⟨rfl, -⟩ := List.cons.inj whole
      exact absurd (replayLoop_ofLoop moves .snapshot (suffix.subset (by simp))) (by decide)

theorem WorkerCode.of_complete {rest : Code} (shape : WorkerCode (.lockReplayComplete :: rest)) :
    rest = signalReplayDone := by
  generalize whole : Instr.lockReplayComplete :: rest = code at shape
  cases shape with
  | tail suffix =>
    subst whole
    rcases List.suffix_cons_iff.mp suffix with same | inside
    · cases same
    · rcases List.suffix_cons_iff.mp inside with same | later
      · exact (List.cons.inj same).2
      · exact absurd (later.subset (by simp : Instr.lockReplayComplete ∈ _ :: rest)) (by decide)
  | loop moves left suffix =>
    cases left with
    | nil => exact (List.cons.inj whole).2
    | cons head left =>
      obtain ⟨rfl, -⟩ := List.cons.inj whole
      exact absurd (replayLoop_ofLoop moves .lockReplayComplete (suffix.subset (by simp)))
        (by decide)

/-- Behind a question whether to go on stands the completion. -/
theorem WorkerCode.of_shouldStop {rest : Code} (shape : WorkerCode (.shouldStop :: rest)) :
    bufOpReplayDone <:+ rest := by
  generalize whole : Instr.shouldStop :: rest = code at shape
  cases shape with
  | tail suffix =>
    subst whole
    exact absurd (suffix.subset (by simp : Instr.shouldStop ∈ _ :: rest)) (by decide)
  | loop moves left suffix =>
    cases left with
    | nil => cases whole
    | cons head left =>
      obtain ⟨-, rfl⟩ := List.cons.inj whole
      exact List.suffix_append left bufOpReplayDone

/-- The worker takes its snapshot first. -/
theorem WorkerCode.snapshot_first {instr : Instr} {rest : Code}
    (shape : WorkerCode (instr :: rest)) : .snapshot ∉ rest := by
  generalize whole : instr :: rest = code at shape
  cases shape with
  | tail suffix =>
    subst whole
    rcases List.suffix_cons_iff.mp suffix with same | inside
    · rw [(List.cons.inj same).2]
      decide
    · exact fun ahead => absurd (inside.subset (List.mem_cons_of_mem instr ahead)) (by decide)
  | loop moves left suffix =>
    have outside : .snapshot ∉ left ++ bufOpReplayDone := by
      rw [List.mem_append]
      rintro (loop | later)
      · exact absurd (replayLoop_ofLoop moves .snapshot (suffix.subset loop)) (by decide)
      · exact absurd later (by decide)
    exact fun ahead => outside (whole ▸ List.mem_cons_of_mem instr ahead)

theorem workerCode_next {state after : State} {action : Action} (owned : Owned state)
    (shape : WorkerCode (state.code .worker)) (moved : next state action = some after) :
    WorkerCode (after.code .worker) := by
  cases worker_moves owned moved with
  | still other same => simpa [State.code, same] using shape
  | start pending code => exact code ▸ .tail List.suffix_rfl
  | step env instr rest done code taken own left =>
    rw [code] at shape
    rw [settle_code]
    generalize done.2.code = reached at left
    cases left with
    | next => exact shape.tail_loop
    | back returns => exact .tail (List.nil_suffix)
    | stop => exact .tail bufOpReplayDone_suffix
    | unroll same =>
      subst same
      rw [shape.of_snapshot]
      exact .loop _ _ List.suffix_rfl

/-- A demand on continuations that all code of the driver meets. -/
structure CodeRule (rule : Instr → Code → Bool) : Prop where
  entry : ∀ tid code, Entry tid code → obeys rule code
  timer : obeys rule inactivityTimerFn
  worker : obeys rule replayWorker
  stop : obeys rule bufOpReplayDone
  unroll : ∀ moves rest, obeys rule (.snapshot :: rest) → obeys rule (replayLoop moves ++ rest)

def Obeys (rule : Instr → Code → Bool) (state : State) : Prop :=
  ∀ tid, obeys rule (state.code tid)

theorem obeys_settle {rule : Instr → Code → Bool} {state : State} {tid : Tid}
    {dev : EchoDevice} {thread : Thread} (shape : Obeys rule state)
    (own : obeys rule thread.code) : Obeys rule (state.settle tid dev thread) := by
  intro other
  by_cases same : other = tid
  · subst other
    simpa using own
  · rw [settle_code_of_ne _ _ _ _ _ same]
    exact shape other

theorem CodeRule.next {rule : Instr → Code → Bool} (lawful : CodeRule rule)
    {state after : State} {action : Action} (shape : Obeys rule state)
    (moved : EchoRobot.next state action = some after) : Obeys rule after := by
  cases action with
  | call tid request =>
    obtain ⟨⟨may, -⟩, rfl⟩ := next_call.mp moved
    exact obeys_settle shape (lawful.entry tid _ (entry_of_mayCall may))
  | step tid env =>
    obtain ⟨instr, rest, done, code, taken, rfl⟩ := next_step.mp moved
    have own : obeys rule (instr :: rest) := code ▸ shape tid
    refine obeys_settle shape ?_
    generalize done.2.code = left, exec_code taken = leaves
    cases leaves with
    | next => exact obeys_tail own
    | back => rfl
    | stop => exact lawful.stop
    | unroll same =>
      subst same
      exact lawful.unroll _ rest own
  | expire =>
    obtain ⟨-, rfl⟩ := next_expire.mp moved
    exact obeys_settle shape lawful.timer
  | startWork =>
    obtain ⟨-, rfl⟩ := next_startWork.mp moved
    exact obeys_settle shape lawful.worker
  | tick ns =>
    obtain rfl := next_tick.mp moved
    exact shape
  | signal tid =>
    obtain ⟨-, rfl⟩ := next_signal.mp moved
    exact obeys_settle shape rfl

section Reached
variable {servo : EchoServoCtx} {clock : Nat} {actions : List Action} {state : State}

/-- From the initial state on, threads keep to their own instructions. -/
theorem owned_of_run (run : Run next anyStep (State.initial servo clock) actions state) :
    Owned state :=
  run.invariant Owned (owned_initial servo clock) fun _ _ _ _ _ owned _ moved =>
    owned_next owned moved

theorem workerCode_of_run (run : Run next anyStep (State.initial servo clock) actions state) :
    WorkerCode (state.code .worker) :=
  run.invariant (fun state => WorkerCode (state.code .worker)) (.tail List.nil_suffix)
    fun _ _ _ _ before shape _ moved => workerCode_next (owned_of_run before) shape moved

theorem serves_of_run {tid : Tid} (other : tid ≠ .worker)
    (run : Run next anyStep (State.initial servo clock) actions state) :
    Serves tid (state.code tid) :=
  run.invariant (fun state => Serves tid (state.code tid)) (.idle tid)
    fun _ _ _ _ before serves _ moved => serves_next (owned_of_run before) other serves moved

theorem CodeRule.of_run {rule : Instr → Code → Bool} (lawful : CodeRule rule)
    (run : Run EchoRobot.next anyStep (State.initial servo clock) actions state) :
    Obeys rule state :=
  run.invariant (Obeys rule) (fun _ => rfl) fun _ _ _ _ _ shape _ moved => lawful.next shape moved

end Reached

end EchoRobot
