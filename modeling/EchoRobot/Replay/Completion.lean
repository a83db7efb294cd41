import EchoRobot.Replay.WakeUp

/-! Which replay a blocking write has waited for. All writers share one flag:
it is cleared before the replay is queued and set by every completion. -/

namespace EchoRobot

open Interleaving

/-- What became of the replay that a thread's current call has queued. It has
finished once its completion signal is out. -/
inductive ReplayRun where
  | none | queued | running | finished
  | cancelled (byLater : Bool)
  deriving DecidableEq, Repr

/-- `later caller other` says that the current call of `other` started after
the current call of `caller`. -/
structure Requests where
  own : Tid → ReplayRun
  later : Tid → Tid → Bool

def Requests.initial : Requests := ⟨fun _ => .none, fun _ _ => false⟩

def ReplayRun.start : ReplayRun → ReplayRun
  | .queued => .running
  | own => own

def ReplayRun.cancel (byLater : Bool) : ReplayRun → ReplayRun
  | .queued => .cancelled byLater
  | own => own

def ReplayRun.finish : ReplayRun → ReplayRun
  | .running => .finished
  | own => own

def Requests.update (requests : Requests) (state : State) (action : Action) (_ : State) :
    Requests :=
  match action with
  | .call tid _ =>
    ⟨Function.update requests.own tid .none,
      fun caller other => if caller = tid then false
        else if other = tid then true else requests.later caller other⟩
  | .startWork => { requests with own := fun tid => (requests.own tid).start }
  | .step tid _ =>
    match state.instr? action with
    | some .queueWork => { requests with own := Function.update requests.own tid .queued }
    | some .cancelWorkSync =>
      { requests with own := fun caller =>
          (requests.own caller).cancel (requests.later caller tid) }
    | some (.setReplayFinished true) =>
      if tid = .worker then { requests with own := fun caller => (requests.own caller).finish }
      else requests
    | _ => requests
  | _ => requests

abbrev nextRequests := withHistory next Requests.update

/-- The replay has finished, or a stop that was issued later has cancelled it. -/
def ReplayRun.past : ReplayRun → Bool
  | .finished | .cancelled true => true
  | _ => false

/-- A writer that gets past its wait, to return its byte count, has its own
replay behind it. -/
def NoEarlyReturn (pair : State × Requests) : Prop :=
  ∀ tid env after, pair.1.instr? (.step tid env) = some .waitReplayDone →
    next pair.1 (.step tid env) = some after → (pair.2.own tid).past = true

/-- The writer's request has been accepted, and it has not returned. -/
def State.accepted (state : State) (tid : Tid) : Prop :=
  .waitReplayDone ∈ state.code tid ∧ .lockStartReplay ∉ state.code tid

/-- A `REPLAY` write is accepted only with its flag still cleared and no completion
signal under way, and until it has queued its item no item is picked up and none
is cancelled. -/
structure CompletesOwn (state : State) (action : Action) : Prop where
  accept : ∀ tid env, action = .step tid env → state.checking tid →
    state.dev.state.mode ≠ .replay →
    state.dev.replayFinished = false ∧ ∀ other, .setReplayFinished true ∉ state.code other
  start : action = .startWork → ∀ tid, state.accepted tid → .queueWork ∉ state.code tid
  cancel : state.instr? action = some .cancelWorkSync →
    ∀ tid, state.accepted tid → .queueWork ∉ state.code tid

/-- A stop signals once, after it has cancelled; every stretch of the worker ends
in its signal. -/
def signalRule : Instr → Code → Bool
  | .setReplayFinished true, rest => decide (.cancelWorkSync ∉ rest)
  | .shouldStop, rest | .snapshot, rest => decide (.setReplayFinished true ∈ rest)
  | _, _ => true

theorem signalRule_lawful : CodeRule signalRule where
  entry tid code entry := by
    cases entry with
    | read id nonblock count => cases nonblock <;> rfl
    | input id pin => cases pin <;> rfl
    | _ => rfl
  timer := by decide
  worker := by decide
  stop := by decide
  unroll moves rest shape := by
    have signals : .setReplayFinished true ∈ rest := by
      simpa [signalRule] using obeys_head shape
    refine obeys_replayLoop (fun instr before own loop => ?_) (obeys_tail shape)
    cases instr with
    | shouldStop => simp [signalRule, signals]
    | setReplayFinished value => cases own
    | snapshot => cases own
    | _ => rfl

/-- A call that signals is a stop, which cancels first. -/
theorem Entry.cancels {tid : Tid} {code : Code} (entry : Entry tid code)
    (signals : .setReplayFinished true ∈ code) : .cancelWorkSync ∈ code := by
  cases entry with
  | read id nonblock count =>
    cases nonblock <;> exact absurd signals (by simp [echoRead, buildSnapshot])
  | input id pin => cases pin <;> exact absurd signals (by decide)
  | stop | reset => simp [echoStateStop, echoIocReset, stateOpCancelReplay]
  | _ =>
    simp [echoStateSetMode, echoStateStartReplay, stateOpStartReplay, notifyReaders,
      buildSnapshot] at signals

/-- The flag is cleared, and outside the worker only stops are going to set it that
were called after the writer and have the cancellation still before them. -/
structure Unsignalled (pair : State × Requests) (tid : Tid) : Prop where
  flag : pair.1.dev.replayFinished = false
  stops : ∀ other, other ≠ .worker → .setReplayFinished true ∈ pair.1.code other →
    .cancelWorkSync ∈ pair.1.code other ∧ pair.2.later tid other = true

/-- The writer's item comes before any completion signal of the worker, or the
worker runs it, or its replay is behind it. -/
inductive Attended (pair : State × Requests) (tid : Tid) : Prop where
  | ahead (cleared : Unsignalled pair tid) (worker : .setReplayFinished true ∉ pair.1.code .worker)
      (item : .queueWork ∈ pair.1.code tid)
  | queued (cleared : Unsignalled pair tid) (worker : .setReplayFinished true ∉ pair.1.code .worker)
      (past : .queueWork ∉ pair.1.code tid) (own : pair.2.own tid = .queued)
  | running (cleared : Unsignalled pair tid) (worker : pair.1.signalling .worker)
      (past : .queueWork ∉ pair.1.code tid) (own : pair.2.own tid = .running)
  | ended (past : .queueWork ∉ pair.1.code tid) (own : (pair.2.own tid).past = true)

@[simp] theorem past_start (own : ReplayRun) : own.start.past = own.past := by
  cases own <;> rfl

theorem past_cancel {own : ReplayRun} (past : own.past = true) (byLater : Bool) :
    (own.cancel byLater).past = true := by
  cases own <;> first | exact past | cases past

theorem past_finish {own : ReplayRun} (past : own.past = true) : own.finish.past = true := by
  cases own <;> first | exact past | cases past

/-- What becomes of a thread's replay in a step that is not its own. -/
inductive OwnMoves (pair : State × Requests) (tid : Tid) : Action → ReplayRun → Prop where
  | keep (action : Action) : OwnMoves pair tid action (pair.2.own tid)
  | start : OwnMoves pair tid .startWork (pair.2.own tid).start
  | cancel (stopper : Tid) (env : Env)
      (head : pair.1.instr? (.step stopper env) = some .cancelWorkSync) :
      OwnMoves pair tid (.step stopper env) ((pair.2.own tid).cancel (pair.2.later tid stopper))
  | finish (env : Env)
      (head : pair.1.instr? (.step .worker env) = some (.setReplayFinished true)) :
      OwnMoves pair tid (.step .worker env) (pair.2.own tid).finish

variable {pair after : State × Requests} {action : Action} {tid : Tid}

theorem own_still (other : action.actor ≠ some tid) :
    OwnMoves pair tid action ((pair.2.update pair.1 action after.1).own tid) := by
  cases action with
  | call caller request =>
    have ne : tid ≠ caller := by rintro rfl; exact other rfl
    simp only [Requests.update, ne, not_false_eq_true, Function.update_of_ne, ne_eq]
    exact .keep _
  | startWork => exact .start
  | step stepper env =>
    have ne : tid ≠ stepper := by rintro rfl; exact other rfl
    simp only [Requests.update]
    split
    · simp only [ne, not_false_eq_true, Function.update_of_ne, ne_eq]
      exact .keep _
    · rename_i head
      exact .cancel stepper env head
    · rename_i head
      split
      · rename_i worker
        subst worker
        exact .finish env head
      · exact .keep _
    · exact .keep _
  | _ => exact .keep _

theorem later_still {other : Tid} {requests : Requests} {state reached : State}
    (stays : ∀ request, action ≠ .call tid request) (later : requests.later tid other = true) :
    (requests.update state action reached).later tid other = true := by
  cases action with
  | call caller request =>
    have ne : tid ≠ caller := by rintro rfl; exact stays request rfl
    simp [Requests.update, ne, later]
  | step stepper env =>
    simp only [Requests.update]
    split
    · exact later
    · exact later
    · split <;> exact later
    · exact later
  | _ => exact later

/-- Stops that come in are called later; nobody else gets a signal before it. -/
theorem unsignalled_next (owned : Owned pair.1) (cleared : Unsignalled pair tid)
    (stays : ∀ request, action ≠ .call tid request)
    (silent : pair.1.instr? action ≠ some (.setReplayFinished true))
    (keeps : pair.1.instr? action ≠ some .cancelWorkSync)
    (moved : nextRequests pair action = some after) : Unsignalled after tid := by
  obtain ⟨moved, history⟩ := withHistory_some.mp moved
  have later : ∀ other, pair.2.later tid other = true → after.2.later tid other = true :=
    fun other before => history ▸ later_still stays before
  constructor
  · rcases replayFinished_next moved with same | store
    · exact same.trans cleared.flag
    · cases value : after.1.dev.replayFinished with
      | false => rfl
      | true => exact absurd (value ▸ store) silent
  · intro other ne signals
    obtain ⟨reached, requests⟩ := after
    dsimp only at moved history later signals ⊢
    cases moves owned ne moved with
    | still _ same =>
      have code : reached.code other = pair.1.code other := by simp [State.code, same]
      obtain ⟨cancels, called⟩ := cleared.stops other ne (code ▸ signals)
      exact ⟨code ▸ cancels, later other called⟩
    | call request may code =>
      refine ⟨code ▸ (entry_of_mayCall may).cancels (code ▸ signals), ?_⟩
      have writer : tid ≠ other := by rintro rfl; exact stays request rfl
      simp [history, Requests.update, writer]
    | expire timer code =>
      rw [code] at signals
      exact absurd signals (by decide)
    | back actor code => simp [code] at signals
    | step env instr rest done code taken left =>
      rw [settle_code, left] at signals
      obtain ⟨cancels, called⟩ := cleared.stops other ne (by simp [code, signals])
      refine ⟨?_, later other called⟩
      rw [settle_code, left]
      exact (List.mem_cons.mp (code ▸ cancels)).resolve_left fun same =>
        keeps (same ▸ instr?_step code)

/-- The worker comes to a signal only in a new run. -/
theorem worker_silent {state reached : State} (owned : Owned state)
    (shape : Obeys signalRule state) (worker : .setReplayFinished true ∉ state.code .worker)
    (pick : action ≠ .startWork) (moved : next state action = some reached) :
    .setReplayFinished true ∉ reached.code .worker := by
  cases worker_moves owned moved with
  | still other same => simpa [State.code, same] using worker
  | start => exact absurd rfl pick
  | step env instr rest done code taken own left =>
    rw [settle_code]
    rw [code] at worker
    have rule := obeys_head (code ▸ shape .worker)
    have later : .setReplayFinished true ∉ rest := fun inside =>
      worker (List.mem_cons_of_mem instr inside)
    generalize done.2.code = reached at left
    cases left with
    | next => exact later
    | back => simp
    | stop same =>
      subst same
      exact absurd (by simpa [signalRule] using rule) later
    | unroll same =>
      subst same
      exact absurd (by simpa [signalRule] using rule) later

/-- Before the writer's item is picked up nobody stands at a signal. -/
theorem unsignalled_silent (shape : Obeys signalRule pair.1) (cleared : Unsignalled pair tid)
    (worker : .setReplayFinished true ∉ pair.1.code .worker) :
    pair.1.instr? action ≠ some (.setReplayFinished true) := by
  intro head
  cases action with
  | step setter env =>
    obtain ⟨rest, code⟩ := code_of_head head
    have other : setter ≠ .worker := by
      rintro rfl
      simp [code] at worker
    have cancels := (cleared.stops setter other (by simp [code])).1
    have rule := obeys_head (code ▸ shape setter)
    simp only [signalRule, decide_eq_true_eq] at rule
    exact rule (by simpa [code] using cancels)
  | _ => cases head

/-- While the worker runs the item, the signal to come is its own. -/
theorem running_signal (shape : Obeys signalRule pair.1) (cleared : Unsignalled pair tid)
    (head : pair.1.instr? action = some (.setReplayFinished true)) :
    ∃ env, action = .step .worker env := by
  cases action with
  | step setter env =>
    by_cases other : setter = .worker
    · exact ⟨env, other ▸ rfl⟩
    obtain ⟨rest, code⟩ := code_of_head head
    have cancels := (cleared.stops setter other (by simp [code])).1
    have rule := obeys_head (code ▸ shape setter)
    simp only [signalRule, decide_eq_true_eq] at rule
    exact absurd (by simpa [code] using cancels) rule
  | _ => cases head

/-- Neither a cancellation nor the work queue gets past a running worker. -/
theorem running_busy {state reached : State} (signalling : state.signalling .worker)
    (moved : next state action = some reached) :
    state.instr? action ≠ some .cancelWorkSync ∧ action ≠ .startWork := by
  have busy : state.code .worker ≠ [] := by
    intro idle
    simp [State.signalling, idle] at signalling
  constructor
  · intro head
    obtain ⟨stopper, env, rest, done, rfl, code, taken, rfl⟩ := next_instr head moved
    simp [exec, State.idle, busy] at taken
  · rintro rfl
    exact busy (next_startWork.mp moved).1.2

/-- A step of another thread, before the worker has picked up the item. -/
theorem queued_still (owned : Owned pair.1) (rules : Obeys signalRule pair.1)
    (shape : Obeys waitRule pair.1) (cleared : Unsignalled pair tid)
    (worker : .setReplayFinished true ∉ pair.1.code .worker)
    (past : .queueWork ∉ pair.1.code tid) (queued : pair.2.own tid = .queued)
    (moved : nextRequests pair action = some after) (other : action.actor ≠ some tid)
    (same : after.1.code tid = pair.1.code tid) : Attended after tid := by
  have silent : pair.1.instr? action ≠ some (.setReplayFinished true) :=
    unsignalled_silent rules cleared worker
  have stays : ∀ request, action ≠ .call tid request := by rintro request rfl; exact other rfl
  obtain ⟨moved', history⟩ := withHistory_some.mp moved
  by_cases cancel : pair.1.instr? action = some .cancelWorkSync
  · obtain ⟨stopper, env, rest, done, rfl, code, -, -⟩ := next_instr cancel moved'
    have ne : stopper ≠ .worker := by
      rintro rfl
      exact absurd (owned .worker .cancelWorkSync (by simp [code])) (by decide)
    have rule := obeys_head (code ▸ shape stopper)
    simp only [waitRule, Bool.and_eq_true] at rule
    have signals : .setReplayFinished true ∈ pair.1.code stopper := by
      obtain ⟨instr, member, hit⟩ := commits_mem rule.1
      obtain rfl : instr = .setReplayFinished true := by simpa [isSignal] using hit
      simp [code, member]
    have called := (cleared.stops stopper ne signals).2
    refine .ended (same ▸ past) ?_
    simp [history, Requests.update, cancel, queued, called, ReplayRun.cancel, ReplayRun.past]
  have cleared' := unsignalled_next owned cleared stays silent cancel moved
  by_cases start : action = .startWork
  · subst start
    obtain ⟨-, settled⟩ := next_startWork.mp moved'
    refine .running cleared' ?_ (same ▸ past) ?_
    · rw [State.signalling, ← settled]
      simp only [settle_code, Thread.code_begin]
      decide
    · simp [history, Requests.update, queued, ReplayRun.start]
  · have own : OwnMoves pair tid action (after.2.own tid) := history ▸ own_still other
    refine .queued cleared' (worker_silent owned rules worker start moved') (same ▸ past) ?_
    generalize after.2.own tid = became at own
    cases own with
    | keep => exact queued
    | start => exact absurd rfl start
    | cancel stopper env head => exact absurd head cancel
    | finish env head => exact absurd head silent

/-- A step of another thread, while the worker runs the item. -/
theorem running_still (owned : Owned pair.1) (rules : Obeys signalRule pair.1)
    (cleared : Unsignalled pair tid) (worker : pair.1.signalling .worker)
    (past : .queueWork ∉ pair.1.code tid) (runs : pair.2.own tid = .running)
    (moved : nextRequests pair action = some after) (other : action.actor ≠ some tid)
    (same : after.1.code tid = pair.1.code tid) : Attended after tid := by
  have stays : ∀ request, action ≠ .call tid request := by rintro request rfl; exact other rfl
  obtain ⟨moved', history⟩ := withHistory_some.mp moved
  by_cases signal : pair.1.instr? action = some (.setReplayFinished true)
  · obtain ⟨env, rfl⟩ := running_signal rules cleared signal
    refine .ended (same ▸ past) ?_
    simp [history, Requests.update, signal, runs, ReplayRun.finish, ReplayRun.past]
  · obtain ⟨cancel, start⟩ := running_busy worker moved'
    have cleared' := unsignalled_next owned cleared stays signal cancel moved
    have worker' : after.1.signalling .worker :=
      (signalling_next worker moved').resolve_right (by simp [cleared'.flag])
    have own : OwnMoves pair tid action (after.2.own tid) := history ▸ own_still other
    refine .running cleared' worker' (same ▸ past) ?_
    generalize after.2.own tid = became at own
    cases own with
    | keep => exact runs
    | start => exact absurd rfl start
    | cancel stopper env head => exact absurd head cancel
    | finish env head => exact absurd head signal

/-- A step of another thread: the flag comes with the own replay, or leaves it
expected. -/
theorem attended_still (owned : Owned pair.1) (rules : Obeys signalRule pair.1)
    (shape : Obeys waitRule pair.1) (accepted : pair.1.accepted tid)
    (attended : Attended pair tid) (ok : CompletesOwn pair.1 action)
    (moved : nextRequests pair action = some after) (other : action.actor ≠ some tid)
    (same : after.1.code tid = pair.1.code tid) : Attended after tid := by
  cases attended with
  | ahead cleared worker item =>
    have pick : action ≠ .startWork := fun start => ok.start start tid accepted item
    have keeps : pair.1.instr? action ≠ some .cancelWorkSync :=
      fun cancel => ok.cancel cancel tid accepted item
    have stays : ∀ request, action ≠ .call tid request := by rintro request rfl; exact other rfl
    have silent : pair.1.instr? action ≠ some (.setReplayFinished true) :=
      unsignalled_silent rules cleared worker
    exact .ahead (unsignalled_next owned cleared stays silent keeps moved)
      (worker_silent owned rules worker pick (withHistory_some.mp moved).1) (same ▸ item)
  | queued cleared worker past own =>
    exact queued_still owned rules shape cleared worker past own moved other same
  | running cleared worker past own =>
    exact running_still owned rules cleared worker past own moved other same
  | ended past own =>
    refine .ended (same ▸ past) ?_
    obtain ⟨-, history⟩ := withHistory_some.mp moved
    have moves : OwnMoves pair tid action (after.2.own tid) := history ▸ own_still other
    generalize after.2.own tid = became at moves
    cases moves with
    | keep => exact own
    | start => simpa using own
    | cancel stopper => exact past_cancel own _
    | finish => exact past_finish own

/-- A writer that has been accepted leaves the flag alone until its wait. -/
theorem accepted_silent {instr : Instr} {rest : Code} (rule : waitRule instr rest = true)
    (waits : .waitReplayDone ∈ rest) (started : .lockStartReplay ∉ rest) (value : Bool) :
    instr ≠ .setReplayFinished value := by
  rintro rfl
  cases value with
  | false =>
    cases rest with
    | nil => simp at waits
    | cons first later =>
      simp only [waitRule, Bool.and_eq_true, List.head?_cons, beq_iff_eq, Option.some.injEq]
        at rule
      simp [rule.1] at started
  | true =>
    simp only [waitRule, decide_eq_true_eq] at rule
    exact rule waits

/-- A writer is accepted while no signal is under way, with its `queue_work` before it. -/
theorem attended_accept {env : Env} {rest : Code} {done : EchoDevice × Thread}
    {requests : Requests} (ok : CompletesOwn pair.1 (.step tid env))
    (code : pair.1.code tid = .lockStartReplay :: rest)
    (rule : waitRule .lockStartReplay rest = true)
    (taken : exec pair.1 tid env .lockStartReplay rest = some done) (left : done.2.code = rest)
    (waits : .waitReplayDone ∈ rest) :
    Attended (pair.1.settle tid done.1 done.2, requests) tid := by
  have free : pair.1.dev.state.mode ≠ .replay := by
    intro busy
    simp only [exec, leave, busy, ↓reduceIte] at taken
    cases taken
    obtain rfl : [] = rest := left
    simp at waits
  obtain ⟨cleared, silent⟩ := ok.accept tid env rfl ⟨rest, code, waits⟩ free
  have silent' : ∀ other,
      .setReplayFinished true ∉ (pair.1.settle tid done.1 done.2).code other := by
    intro other signals
    by_cases same : other = tid
    · rw [same, settle_code, left] at signals
      exact silent tid (by simp [code, signals])
    · rw [settle_code_of_ne _ _ _ _ _ same] at signals
      exact silent other signals
  have queues : .queueWork ∈ rest := by
    simp only [waitRule, decide_eq_true_eq] at rule
    exact rule.1
  refine .ahead ⟨?_, fun other _ signals => absurd signals (silent' other)⟩ (silent' .worker)
    (by simpa [left] using queues)
  exact ((exec_frame taken).replayFinished (by simp [Instr.writes])).trans cleared

/-- A step of an accepted writer itself, up to its wait. -/
theorem attended_step {env : Env} {instr : Instr} {rest : Code} {done : EchoDevice × Thread}
    (owned : Owned pair.1) (shape : Obeys waitRule pair.1) (other : tid ≠ .worker)
    (attended : pair.1.accepted tid → Attended pair tid)
    (ok : CompletesOwn pair.1 (.step tid env)) (code : pair.1.code tid = instr :: rest)
    (taken : exec pair.1 tid env instr rest = some done) (left : done.2.code = rest)
    (moved : nextRequests pair (.step tid env) = some after)
    (settled : after.1 = pair.1.settle tid done.1 done.2)
    (waits : .waitReplayDone ∈ rest) (started : .lockStartReplay ∉ rest) :
    Attended after tid := by
  have rule := obeys_head (code ▸ shape tid)
  have head : pair.1.instr? (.step tid env) = some instr := instr?_step code
  obtain ⟨reached, requests⟩ := after
  dsimp only at settled
  by_cases lock : instr = .lockStartReplay
  · subst lock settled
    exact attended_accept ok code rule taken left waits
  have accepted : pair.1.accepted tid :=
    ⟨by simp [code, waits], by simp [code, started, Ne.symm lock]⟩
  have quiet := accepted_silent rule waits started
  have silent : pair.1.instr? (.step tid env) ≠ some (.setReplayFinished true) := by
    simpa [head] using quiet true
  have keeps : pair.1.instr? (.step tid env) ≠ some .cancelWorkSync := by
    rw [head]
    rintro same
    obtain rfl := Option.some.inj same
    simp [waitRule, waits] at rule
  have calls : ∀ request, Action.step tid env ≠ .call tid request := by simp
  have cleared' : Unsignalled pair tid → Unsignalled (reached, requests) tid := fun cleared =>
    unsignalled_next owned cleared calls silent keeps moved
  have worker' : reached.code .worker = pair.1.code .worker := by
    rw [settled, settle_code_of_ne _ _ _ _ _ other.symm]
  obtain ⟨-, history⟩ := withHistory_some.mp moved
  dsimp only at history
  by_cases queue : instr = .queueWork
  · subst queue
    have past : .queueWork ∉ reached.code tid := by
      simp only [waitRule, decide_eq_true_eq] at rule
      simpa [settled, left] using rule.1
    cases attended accepted with
    | ahead cleared worker =>
      exact .queued (cleared' cleared) (worker' ▸ worker) past
        (by simp [history, Requests.update, head])
    | queued _ _ before => simp [code] at before
    | running _ _ before => simp [code] at before
    | ended before => simp [code] at before
  · have keep : requests.own tid = pair.2.own tid := by
      rw [history]
      simp only [Requests.update, head]
      split <;> simp_all
    have stays : .queueWork ∈ reached.code tid ↔ .queueWork ∈ pair.1.code tid := by
      simp [settled, code, left, Ne.symm queue]
    cases attended accepted with
    | ahead cleared worker item =>
      exact .ahead (cleared' cleared) (worker' ▸ worker) (stays.mpr item)
    | queued cleared worker past own =>
      exact .queued (cleared' cleared) (worker' ▸ worker) (mt stays.mp past) (keep.trans own)
    | running cleared worker past own =>
      exact .running (cleared' cleared) (by simpa [State.signalling, worker'] using worker)
        (mt stays.mp past) (keep.trans own)
    | ended past own => exact .ended (mt stays.mp past) (keep ▸ own)

/-- The invariant of every writer, kept by every step. -/
theorem attended_next (owned : Owned pair.1) (shape : Obeys waitRule pair.1)
    (rules : Obeys signalRule pair.1)
    (attended : ∀ tid, pair.1.accepted tid → Attended pair tid) (ok : CompletesOwn pair.1 action)
    (moved : nextRequests pair action = some after) :
    ∀ tid, after.1.accepted tid → Attended after tid := by
  intro tid accepted
  obtain ⟨moved', -⟩ := withHistory_some.mp moved
  obtain ⟨id, rfl⟩ := proc_of_waits (owned_next owned moved') accepted.1
  have other : Tid.proc id ≠ .worker := by simp
  generalize settled : after.1 = reached at moved'
  cases moves owned other moved' with
  | still stays same =>
    have code : after.1.code (.proc id) = pair.1.code (.proc id) := by
      simp [settled, State.code, same]
    have before : pair.1.accepted (.proc id) := by simpa [State.accepted, code] using accepted
    exact attended_still owned rules shape before (attended _ before) ok moved stays code
  | call request may code =>
    obtain ⟨waits, started⟩ := accepted
    rw [settled, code] at waits started
    exact absurd ((entry_of_mayCall may).starts_before_wait waits).1 started
  | expire timer => cases timer
  | back actor code => simp [settled, State.accepted, code] at accepted
  | step env instr rest done code taken left =>
    have split := accepted
    simp only [settled, State.accepted, settle_code, left] at split
    exact attended_step owned shape other (attended _) ok code taken left moved settled split.1
      split.2

variable {servo : EchoServoCtx} {clock : Nat} {actions : List Action}

/-- In every run that accepts `REPLAY` writes with no completion signal under way
and leaves the work item alone until they have queued it, a writer returns only
after its own replay. -/
theorem no_early_return
    (run : Run nextRequests (fun pair action => CompletesOwn pair.1 action)
      (State.initial servo clock, Requests.initial) actions pair) :
    NoEarlyReturn pair := by
  have attended : ∀ tid, pair.1.accepted tid → Attended pair tid := by
    refine run.invariant (fun pair => ∀ tid, pair.1.accepted tid → Attended pair tid) ?_ ?_
    · rintro tid ⟨waits, -⟩
      simp [State.code, State.initial, Thread.initial] at waits
    · intro earlier before action after ran attended ok moved
      exact attended_next (owned_of_run ran.forget.any) (waitRule_lawful.of_run ran.forget.any)
        (signalRule_lawful.of_run ran.forget.any) attended ok moved
  intro tid env after head moved
  obtain ⟨waiter, env', rest, done, same, code, taken, -⟩ := next_instr head moved
  cases same
  have rule := obeys_head (code ▸ waitRule_lawful.of_run run.forget.any tid)
  simp only [waitRule, decide_eq_true_eq] at rule
  have accepted : pair.1.accepted tid := ⟨by simp [code], by simp [code, rule.2.1]⟩
  have set : pair.1.dev.replayFinished = true := by
    by_contra cleared
    simp [exec, cleared] at taken
  cases attended tid accepted with
  | ahead cleared => simp [cleared.flag] at set
  | queued cleared => simp [cleared.flag] at set
  | running cleared => simp [cleared.flag] at set
  | ended _ own => exact own

/-- No thread outside the list has the instruction before it. -/
theorem not_ahead_of_run {allowed : State → Action → Prop} {state : State} {instr : Instr}
    (tids : List Tid) (run : Run next allowed (State.initial servo clock) actions state)
    (listed : ∀ state action, allowed state action → movesOnly tids state action = true)
    (clear : ∀ tid ∈ tids, instr ∉ state.code tid) (tid : Tid) : instr ∉ state.code tid := by
  by_cases inside : tid ∈ tids
  · exact clear tid inside
  · simp [code_of_run tids run listed inside]

/-- A writer waits for an empty recording to be replayed, and returns. -/
theorem no_early_return_replayedWrite :
    ∃ pair, run nextRequests (State.initial simServo 0, Requests.initial) replayedWrite =
        some pair ∧
      pair.1.awaitsReplay (.proc 1) = true ∧ pair.1.dev.replayFinished = true ∧
      NoEarlyReturn pair := by
  obtain ⟨pair, ran, facts⟩ := exists_run nextRequests
    (fun pair action => movesOnly [.proc 1, .worker] pair.1 action &&
      (pair.1.instr? action != some .lockStartReplay || !pair.1.dev.replayFinished &&
        [Tid.proc 1, .worker].all fun tid =>
          decide (.setReplayFinished true ∉ pair.1.code tid)) &&
      pair.1.instr? action != some .cancelWorkSync &&
      (action.actor != some .worker || pair.1.instr? action != none ||
        [Tid.proc 1, .worker].all fun tid => decide (.queueWork ∉ pair.1.code tid)))
    (State.initial simServo 0, Requests.initial) replayedWrite
    (fun pair => pair.1.awaitsReplay (.proc 1) && pair.1.dev.replayFinished) (by decide)
  have respects := ran.strengthen (fun pair action => CompletesOwn pair.1 action) <| by
    intro earlier pair action before passed
    simp only [Bool.and_eq_true, Bool.or_eq_true, bne_iff_ne, ne_eq, Bool.not_eq_true',
      List.all_eq_true, decide_eq_true_eq] at passed
    obtain ⟨⟨⟨-, accepts⟩, uncancelled⟩, starts⟩ := passed
    have nowhere : ∀ instr, (∀ tid ∈ [Tid.proc 1, .worker], instr ∉ pair.1.code tid) →
        ∀ tid, instr ∉ pair.1.code tid := fun instr clear =>
      not_ahead_of_run [.proc 1, .worker] before.forget (fun state action ⟨history, passed⟩ => by
        simp only [Bool.and_eq_true] at passed
        exact passed.1.1.1) clear
    refine ⟨?_, ?_, fun cancel => absurd cancel uncancelled⟩
    · rintro tid env rfl ⟨rest, code, -⟩ -
      obtain ⟨cleared, silent⟩ := accepts.resolve_left (not_not_intro (instr?_step code))
      exact ⟨cleared, nowhere _ silent⟩
    · rintro rfl tid -
      exact nowhere _ (starts.resolve_left (by simp [Action.actor, State.instr?])) tid
  simp only [Bool.and_eq_true] at facts
  exact ⟨pair, ran.execution, facts.1, facts.2, no_early_return respects⟩

/-- Process 0 starts a replay without waiting, and its worker run stores the
completion; process 1 then writes `REPLAY` and waits, and the flag it waits for
is set by the first run. -/
def signalOfEarlierReplay : List Action :=
  [.call (.proc 0) (.ioctl (.setMode (some 2)))] ++ steps (.proc 0) 6 ++
  [.startWork] ++ steps .worker 3 ++
  [.call (.proc 1) (writeCmd echoCmdReplay)] ++ steps (.proc 1) 6 ++ steps .worker 1

theorem signalOfEarlierReplay_returns :
    ∃ pair, run nextRequests (State.initial simServo 0, Requests.initial) signalOfEarlierReplay =
      some pair ∧ ¬ NoEarlyReturn pair := by
  obtain ⟨pair, ran, facts⟩ := exists_run nextRequests (fun _ _ => true)
    (State.initial simServo 0, Requests.initial) signalOfEarlierReplay
    (fun pair => pair.1.instr? (.step (.proc 1) Env.good) == some .waitReplayDone &&
      (next pair.1 (.step (.proc 1) Env.good)).isSome && (pair.2.own (.proc 1) == .queued))
    (by decide)
  simp only [Bool.and_eq_true, beq_iff_eq] at facts
  obtain ⟨⟨head, enabled⟩, queued⟩ := facts
  obtain ⟨after, moved⟩ := Option.isSome_iff_exists.mp enabled
  refine ⟨pair, ran.execution, fun never => ?_⟩
  have past := never (.proc 1) Env.good after head moved
  simp [queued, ReplayRun.past] at past

end EchoRobot
