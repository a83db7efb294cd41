import EchoRobot.Lifecycle.Module

/-! Teardown. At each point of `echo_init` and `echo_exit` the unwinding that is
due there stops every thread before it destroys what the thread uses, except for
the state that the replay worker asks about and completes into. -/

namespace EchoRobot

open Interleaving

/-- The threads that go on while the module is torn down. -/
def Tid.background : Tid → Bool
  | .proc _ => false
  | _ => true

/-- No background thread stands before a step on a destroyed subsystem. -/
def TeardownSafe (driver : Driver) : Prop :=
  ∀ tid env instr subsystem, tid.background = true →
    driver.state.instr? (.step tid env) = some instr → instr.uses = some subsystem →
    subsystem ∈ driver.alive

/-- The replay worker asks nothing more of the state. -/
def DoneWithState (state : State) : Prop :=
  ∀ instr ∈ state.code .worker, instr.uses ≠ some .state

/-- The state is freed only while no worker run has a step on it before it, and
no worker run begins while the state does not exist. -/
structure ReplayEndsFirst (driver : Driver) (action : DriverAction) : Prop where
  freed : ∀ granted, action = .step granted → driver.code.head? = some (.kfree .state) →
    DoneWithState driver.state
  starts : action = .base .startWork → .state ∈ driver.alive

def ModuleInstr.acquires : ModuleInstr → Bool
  | .create _ | .requestIrq _ => true
  | _ => false

/-- What undoes an acquisition. -/
def ModuleInstr.undo : ModuleInstr → ModuleCode
  | .create .servo => echoServoDestroy
  | .create .buffer => echoBufferDestroy
  | .create .state => echoStateDestroy
  | .create subsystem => [.kfree subsystem]
  | .requestIrq pin => [.freeIrq pin]
  | _ => []

/-- What would be torn down from here. -/
def unwinding (simMode loaded : Bool) : ModuleCode → ModuleCode
  | [] => if loaded then echoExit simMode else []
  | instr :: rest => if instr.acquires then instr.failed simMode else instr :: rest

def Driver.unwinding (driver : Driver) : ModuleCode :=
  EchoRobot.unwinding driver.simMode (decide (.proc ∈ driver.alive)) driver.code

/-- An interrupt is freed before the timer is deleted, the timer before the work
is cancelled, and each of them before what its handlers use is destroyed. -/
def teardownRule : ModuleInstr → ModuleCode → Bool
  | .kfree .chardev, rest => decide (.kfree .chardev ∉ rest ∧ .timerDeleteSync ∈ rest)
  | .kfree subsystem, rest => decide (.kfree subsystem ∉ rest)
  | .freeIrq pin, rest => decide (.freeIrq pin ∉ rest ∧ .timerDeleteSync ∈ rest)
  | .timerDeleteSync, rest => decide (.kfree .state ∈ rest ∧ .cancelWorkSync ∈ rest)
  | .cancelWorkSync, rest => decide (.kfree .buffer ∈ rest ∧ .kfree .servo ∈ rest)
  | _, _ => true

/-- An acquisition puts its own undoing in front of the unwinding due before it,
and nothing is acquired after a release. -/
def initRule (simMode : Bool) (instr : ModuleInstr) (rest : ModuleCode) : Bool :=
  if instr.acquires then
    unwinding simMode (instr == .create .proc) rest == instr.undo ++ instr.failed simMode &&
      obeys teardownRule (instr.undo ++ instr.failed simMode) &&
      (!rest.isEmpty || instr == .create .proc)
  else rest.all fun later => !later.acquires

theorem echoInit_obeys (simMode : Bool) : obeys (initRule simMode) (echoInit simMode) = true := by
  cases simMode <;> decide

/-- No step of a teardown acquires anything. -/
def Releases (code : ModuleCode) : Prop := ∀ instr ∈ code, instr.acquires = false

theorem failed_releases (simMode : Bool) (instr : ModuleInstr) :
    Releases (instr.failed simMode) := by
  unfold Releases
  cases instr with
  | create subsystem => cases subsystem <;> cases simMode <;> decide
  | requestIrq pin => cases pin <;> cases simMode <;> decide
  | _ => exact List.forall_mem_nil _

theorem echoExit_releases (simMode : Bool) : Releases (echoExit simMode) := by
  unfold Releases
  cases simMode <;> decide

theorem Releases.obeys {simMode : Bool} {code : ModuleCode} (releases : Releases code) :
    obeys (initRule simMode) code = true := by
  induction code with
  | nil => rfl
  | cons instr rest ih =>
    have own := releases instr (by simp)
    have later : Releases rest := fun other member => releases other (by simp [member])
    rw [obeys_cons, ih later, Bool.and_true, initRule, if_neg (by simp [own])]
    exact List.all_eq_true.mpr fun other member => by simp [later other member]

theorem Releases.unwinding {simMode loaded : Bool} {code : ModuleCode} (releases : Releases code)
    (ended : code = [] → loaded = false) : EchoRobot.unwinding simMode loaded code = code := by
  cases code with
  | nil => simp [EchoRobot.unwinding, ended]
  | cons instr rest => simp [EchoRobot.unwinding, releases instr]

/-- The timer is pending or its callback runs. -/
def State.armed (state : State) : Prop :=
  state.dev.state.timerPending = true ∨ state.code .timer ≠ []

/-- Everything alive and everything active has its end ahead of it in the
unwinding. -/
structure Unwound (driver : Driver) : Prop where
  shape : obeys (initRule driver.simMode) driver.code
  order : obeys teardownRule driver.unwinding
  alive : ∀ subsystem, subsystem ∈ driver.alive ↔ .kfree subsystem ∈ driver.unwinding
  users : driver.users ≠ [] →
    .chardev ∈ driver.alive ∧ (driver.code = [] ∨ driver.code = [.create .proc])
  calls : ∀ id, driver.state.code (.proc id) ≠ [] → id ∈ driver.users
  requested : ∀ pin ∈ driver.irqs, .freeIrq pin ∈ driver.unwinding
  handlers : ∀ id, driver.state.code (.irq id) ≠ [] → ∃ pin ∈ driver.irqs, pin.index = id
  timer : driver.state.armed → .timerDeleteSync ∈ driver.unwinding
  worker : driver.state.workBusy → .cancelWorkSync ∈ driver.unwinding
  past : .state ∉ driver.alive → DoneWithState driver.state

section Ahead
variable {driver : Driver}

/-- What the rule puts after a step of the unwinding is ahead as well. -/
theorem Unwound.ahead {first later : ModuleInstr} (unwound : Unwound driver)
    (follows : ∀ rest, teardownRule first rest = true → later ∈ rest)
    (member : first ∈ driver.unwinding) : later ∈ driver.unwinding := by
  obtain ⟨rest, suffix, rule⟩ := obeys_mem unwound.order member
  exact ((List.suffix_cons _ rest).trans suffix).subset (follows rest rule)

theorem Unwound.of_timer (unwound : Unwound driver)
    (ahead : .timerDeleteSync ∈ driver.unwinding) :
    .state ∈ driver.alive ∧ .cancelWorkSync ∈ driver.unwinding := by
  refine ⟨(unwound.alive _).mpr (unwound.ahead (fun rest rule => ?_) ahead),
    unwound.ahead (fun rest rule => ?_) ahead⟩
  · exact (of_decide_eq_true rule).1
  · exact (of_decide_eq_true rule).2

theorem Unwound.of_worker (unwound : Unwound driver)
    (ahead : .cancelWorkSync ∈ driver.unwinding) :
    .buffer ∈ driver.alive ∧ .servo ∈ driver.alive := by
  constructor <;> refine (unwound.alive _).mpr (unwound.ahead (fun rest rule => ?_) ahead)
  · exact (of_decide_eq_true rule).1
  · exact (of_decide_eq_true rule).2

/-- Calls and handlers may arm the timer: its end is ahead. -/
theorem Unwound.of_call (unwound : Unwound driver) {tid : Tid}
    (caller : tid ≠ .timer ∧ tid ≠ .worker) (active : driver.state.code tid ≠ []) :
    .timerDeleteSync ∈ driver.unwinding := by
  cases tid with
  | proc id =>
    have used := List.ne_nil_of_mem (unwound.calls id active)
    refine unwound.ahead (fun rest rule => ?_) ((unwound.alive _).mp (unwound.users used).1)
    exact (of_decide_eq_true rule).2
  | irq id =>
    obtain ⟨pin, member, -⟩ := unwound.handlers id active
    refine unwound.ahead (fun rest rule => ?_) (unwound.requested pin member)
    exact (of_decide_eq_true rule).2
  | timer => exact absurd rfl caller.1
  | worker => exact absurd rfl caller.2

end Ahead

section Threads
variable {state after : State} {action : Action}

/-- A thread becomes active by a call, by the timer or by the work queue. -/
theorem active_of_next {tid : Tid} (moved : next state action = some after)
    (active : after.code tid ≠ []) :
    state.code tid ≠ [] ∨ (∃ request, action = .call tid request ∧ tid.mayCall request = true) ∨
      (tid = .timer ∧ state.dev.state.timerPending = true) ∨
      (tid = .worker ∧ state.dev.buffer.replayPending = true) := by
  by_cases actor : action.actor = some tid
  · cases acts actor moved with
    | call request may => exact Or.inr (Or.inl ⟨request, rfl, may⟩)
    | step env instr rest done code => exact Or.inl (by simp [code])
    | expire pending => exact Or.inr (Or.inr (Or.inl ⟨rfl, pending⟩))
    | startWork pending => exact Or.inr (Or.inr (Or.inr ⟨rfl, pending⟩))
    | signal => simp at active
  · left
    simpa [State.code, thread_next actor moved] using active

theorem armed_of_next (moved : next state action = some after) (armed : after.armed) :
    state.armed ∨ state.instr? action = some .modTimer := by
  rcases armed with pending | active
  · exact (timerPending_of_next moved pending).imp_left Or.inl
  · left
    rcases active_of_next moved active with before | ⟨request, -, may⟩ | ⟨-, pending⟩ | ⟨same, -⟩
    · exact Or.inr before
    · simp [Tid.mayCall] at may
    · exact Or.inl pending
    · cases same

theorem workBusy_of_next (moved : next state action = some after) (busy : after.workBusy) :
    state.workBusy ∨ state.instr? action = some .queueWork := by
  rcases busy with pending | active
  · exact (replayPending_of_next moved pending).imp_left Or.inl
  · left
    have active : after.code .worker ≠ [] := by
      intro idle
      simp [State.idle, idle] at active
    rcases active_of_next moved active with before | ⟨request, -, may⟩ | ⟨same, -⟩ | ⟨-, pending⟩
    · right
      simpa [State.idle] using before
    · simp [Tid.mayCall] at may
    · cases same
    · exact Or.inl pending

theorem doneWithState_next (owned : Owned state) (shape : WorkerCode (state.code .worker))
    (past : DoneWithState state) (idle : action ≠ .startWork)
    (moved : next state action = some after) : DoneWithState after := by
  cases worker_moves owned moved with
  | still other same => simpa [DoneWithState, State.code, same] using past
  | start => exact absurd rfl idle
  | step env instr rest done code taken own left =>
    simp only [DoneWithState, code, settle_code] at past ⊢
    generalize done.2.code = reached at left
    cases left with
    | next => exact fun later member => past later (by simp [member])
    | back => exact List.forall_mem_nil _
    | stop same =>
      subst same
      exact absurd rfl (past .shouldStop (by simp))
    | unroll same =>
      subst same
      have complete : .lockReplayComplete ∈ rest := (code ▸ shape).of_snapshot ▸ List.mem_cons_self
      exact absurd rfl (past .lockReplayComplete (by simp [complete]))

end Threads

section Step
variable {driver after : Driver} {instr : ModuleInstr} {rest : ModuleCode}

/-- The driver's own threads keep to their code. -/
def Threads (state : State) : Prop := Owned state ∧ WorkerCode (state.code .worker)

theorem threads_of_thread {before state : State} (same : state.thread = before.thread)
    (threads : Threads before) : Threads state := by
  have code : ∀ tid, state.code tid = before.code tid := fun tid => by
    simp only [State.code, same]
  exact ⟨fun tid instr member => threads.1 tid instr (code tid ▸ member),
    code .worker ▸ threads.2⟩

theorem threads_next {action : DriverAction} (threads : Threads driver.state)
    (moved : nextDriver driver action = some after) : Threads after.state := by
  rcases nextDriver_state moved with ⟨base, -, stepped⟩ | ⟨same, -⟩
  · exact ⟨owned_next threads.1 stepped, workerCode_next threads.1 threads.2 stepped⟩
  · exact threads_of_thread same threads

/-- A step of the driver's own threads. -/
theorem unwound_base {action : Action} {state : State} (unwound : Unwound driver)
    (threads : Threads driver.state) (admitted : driver.admits action = true)
    (ok : ReplayEndsFirst driver (.base action)) (moved : next driver.state action = some state) :
    Unwound { driver with state := state } where
  shape := unwound.shape
  order := unwound.order
  alive := unwound.alive
  users := unwound.users
  calls id active := by
    rcases active_of_next moved active with before | ⟨request, rfl, -⟩ | ⟨same, -⟩ | ⟨same, -⟩
    · exact unwound.calls id before
    · simpa [Driver.admits] using admitted
    · cases same
    · cases same
  requested := unwound.requested
  handlers id active := by
    rcases active_of_next moved active with before | ⟨request, rfl, may⟩ | ⟨same, -⟩ | ⟨same, -⟩
    · exact unwound.handlers id before
    · cases request with
      | input pin =>
        have own : pin ∈ driver.irqs ∧ pin.index = id := by simpa [Driver.admits] using admitted
        exact ⟨pin, own.1, own.2⟩
      | _ => simp [Tid.mayCall] at may
    · cases same
    · cases same
  timer armed := by
    rcases armed_of_next moved armed with before | arms
    · exact unwound.timer before
    · obtain ⟨tid, env, rest, done, rfl, code, -, -⟩ := next_instr arms moved
      have own := threads.1 tid .modTimer (by simp [code])
      have active : driver.state.code tid ≠ [] := by simp [code]
      refine unwound.of_call ⟨?_, ?_⟩ active <;> rintro rfl <;> cases own
  worker busy := by
    rcases workBusy_of_next moved busy with before | queues
    · exact unwound.worker before
    · obtain ⟨tid, env, rest, done, rfl, code, -, -⟩ := next_instr queues moved
      have own := threads.1 tid .queueWork (by simp [code])
      by_cases timer : tid = .timer
      · subst timer
        exact (unwound.of_timer (unwound.timer (Or.inr (by simp [code])))).2
      · have worker : tid ≠ .worker := by rintro rfl; cases own
        exact (unwound.of_timer (unwound.of_call ⟨timer, worker⟩ (by simp [code]))).2
  past dead := by
    refine doneWithState_next threads.1 threads.2 (unwound.past dead) ?_ moved
    rintro rfl
    exact dead (ok.starts rfl)

/-- A step of the teardown ends what it names and leaves the rest as it was. -/
structure Ends (driver after : Driver) (instr : ModuleInstr) (rest : ModuleCode) : Prop where
  simMode : after.simMode = driver.simMode
  users : after.users = driver.users
  code : after.code = rest
  thread : after.state.thread = driver.state.thread
  alive : ∀ subsystem, subsystem ∈ after.alive ↔
    subsystem ∈ driver.alive ∧ instr ≠ .kfree subsystem
  irqs : ∀ pin, pin ∈ after.irqs ↔ pin ∈ driver.irqs ∧ instr ≠ .freeIrq pin
  idle : ∀ pin, instr = .freeIrq pin → driver.state.code (.irq pin.index) = []
  timer : after.state.armed → driver.state.armed ∧ instr ≠ .timerDeleteSync
  worker : after.state.workBusy → driver.state.workBusy ∧ instr ≠ .cancelWorkSync

theorem exec_ends {granted : Bool} (release : instr.acquires = false)
    (taken : driver.exec granted instr rest = some after) : Ends driver after instr rest := by
  cases instr with
  | create subsystem => cases release
  | requestIrq pin => cases release
  | freeIrq pin =>
    simp only [Driver.exec] at taken
    split at taken <;> cases taken
    rename_i idle
    constructor
    case irqs => intro other; simp [@eq_comm _ other pin]
    all_goals simp_all [State.idle]
  | timerDeleteSync =>
    simp only [Driver.exec] at taken
    split at taken <;> cases taken
    rename_i idle
    constructor <;> simp_all [State.idle, State.armed, State.workBusy, State.code]
  | cancelWorkSync =>
    simp only [Driver.exec] at taken
    split at taken <;> cases taken
    rename_i idle
    constructor <;> simp_all [State.idle, State.armed, State.workBusy, State.code]
  | destroyWorkqueue =>
    simp only [Driver.exec] at taken
    split at taken <;> cases taken
    constructor <;> simp_all
  | kfree subsystem =>
    cases taken
    constructor
    case alive => intro other; simp [@eq_comm _ other subsystem]
    all_goals simp

/-- Nobody uses the driver while it still acquires or already releases
something, except between the creation of the device file and the end. -/
theorem Unwound.used_code (unwound : Unwound driver) (code : driver.code = instr :: rest)
    (used : driver.users ≠ []) : instr = .create .proc ∧ rest = [] := by
  rcases (unwound.users used).2 with same | same
  · simp [code] at same
  · exact List.cons.inj (code.symm.trans same)

/-- In a teardown the unwinding is what is left of it. -/
theorem Unwound.of_release (unwound : Unwound driver) (code : driver.code = instr :: rest)
    (release : instr.acquires = false) :
    driver.unwinding = instr :: rest ∧ Releases rest ∧ driver.users = [] := by
  refine ⟨?_, fun later member => ?_, ?_⟩
  · simp [Driver.unwinding, code, EchoRobot.unwinding, release]
  · have rule := obeys_head (code ▸ unwound.shape)
    simp only [initRule, release, Bool.false_eq_true, ↓reduceIte, List.all_eq_true] at rule
    simpa using rule later member
  · by_contra used
    obtain ⟨rfl, -⟩ := unwound.used_code code used
    cases release

/-- What is destroyed is not destroyed again. -/
theorem once_of_rule {subsystem : Subsystem}
    (rule : teardownRule (.kfree subsystem) rest = true) : .kfree subsystem ∉ rest := by
  cases subsystem <;> simp_all [teardownRule]

theorem unwound_release (unwound : Unwound driver) (code : driver.code = instr :: rest)
    (release : instr.acquires = false) (ends : Ends driver after instr rest)
    (freed : instr = .kfree .state → DoneWithState driver.state) : Unwound after := by
  obtain ⟨before, releases, unused⟩ := unwound.of_release code release
  have order := before ▸ unwound.order
  have gone : ∀ other, other ∈ driver.unwinding → instr ≠ other → other ∈ rest := by
    intro other member different
    rw [before] at member
    exact (List.mem_cons.mp member).resolve_left (Ne.symm different)
  have alive : ∀ subsystem, subsystem ∈ after.alive ↔ .kfree subsystem ∈ rest := by
    intro subsystem
    rw [ends.alive, unwound.alive]
    constructor
    · exact fun ⟨member, different⟩ => gone _ member different
    · refine fun member => ⟨before ▸ List.mem_cons_of_mem _ member, ?_⟩
      rintro rfl
      exact once_of_rule (obeys_head order) member
  have unwinds : after.unwinding = rest := by
    rw [Driver.unwinding, ends.code]
    refine releases.unwinding fun ended => decide_eq_false fun loaded => ?_
    simpa [ended] using (alive .proc).mp loaded
  have threads : ∀ tid, after.state.code tid = driver.state.code tid := fun tid => by
    simp only [State.code, ends.thread]
  refine ⟨?_, ?_, ?_, ?_, ?_, ?_, ?_, ?_, ?_, ?_⟩
  · rw [ends.code]
    exact releases.obeys
  · rw [unwinds]
    exact obeys_tail order
  · rwa [unwinds]
  · intro used
    exact absurd (ends.users.trans unused) used
  · intro id active
    rw [ends.users]
    exact unwound.calls id (threads _ ▸ active)
  · intro pin member
    obtain ⟨known, different⟩ := (ends.irqs pin).mp member
    rw [unwinds]
    exact gone _ (unwound.requested pin known) different
  · intro id active
    rw [threads] at active
    obtain ⟨pin, member, rfl⟩ := unwound.handlers id active
    refine ⟨pin, (ends.irqs pin).mpr ⟨member, fun same => ?_⟩, rfl⟩
    exact active (ends.idle pin same)
  · intro armed
    obtain ⟨known, different⟩ := ends.timer armed
    rw [unwinds]
    exact gone _ (unwound.timer known) different
  · intro busy
    obtain ⟨known, different⟩ := ends.worker busy
    rw [unwinds]
    exact gone _ (unwound.worker known) different
  · intro dead instr' member
    rw [threads] at member
    by_cases now : instr = .kfree .state
    · exact freed now instr' member
    · exact unwound.past (fun known => dead ((ends.alive _).mpr ⟨known, now⟩)) instr' member

/-- A failure and an unload go on with the unwinding. -/
theorem unwound_begins {teardown : ModuleCode} (unwound : Unwound driver)
    (unused : driver.users = []) (due : driver.unwinding = teardown)
    (releases : Releases teardown) : Unwound { driver with code := teardown } := by
  have same : Driver.unwinding { driver with code := teardown } = driver.unwinding := by
    rw [due]
    refine releases.unwinding fun ended => decide_eq_false fun loaded => ?_
    have member := (unwound.alive .proc).mp loaded
    rw [due] at member
    exact List.ne_nil_of_mem member ended
  exact
    { shape := releases.obeys
      order := same ▸ unwound.order
      alive := same ▸ unwound.alive
      users := fun used => absurd unused used
      calls := unwound.calls
      requested := same ▸ unwound.requested
      handlers := unwound.handlers
      timer := same ▸ unwound.timer
      worker := same ▸ unwound.worker
      past := unwound.past }

/-- An acquisition adds what its undoing takes back. -/
structure Adds (driver after : Driver) (instr : ModuleInstr) (rest : ModuleCode) : Prop where
  simMode : after.simMode = driver.simMode
  users : after.users = driver.users
  code : after.code = rest
  state : after.state = driver.state
  alive : ∀ subsystem, subsystem ∈ after.alive ↔
    .kfree subsystem ∈ instr.undo ∨ subsystem ∈ driver.alive
  irqs : ∀ pin, pin ∈ after.irqs ↔ .freeIrq pin ∈ instr.undo ∨ pin ∈ driver.irqs

theorem exec_adds (acquires : instr.acquires = true)
    (taken : driver.exec true instr rest = some after) : Adds driver after instr rest := by
  cases instr with
  | create subsystem =>
    cases taken
    refine ⟨rfl, rfl, rfl, rfl, fun other => ?_, fun pin => ?_⟩ <;> cases subsystem <;>
      simp [ModuleInstr.undo, echoServoDestroy, echoBufferDestroy, echoStateDestroy]
  | requestIrq pin =>
    cases taken
    refine ⟨rfl, rfl, rfl, rfl, fun other => ?_, fun other => ?_⟩ <;> simp [ModuleInstr.undo]
  | _ => cases acquires

/-- The undoing of a successful acquisition comes first in the unwinding. -/
theorem unwinding_adds (unwound : Unwound driver) (code : driver.code = instr :: rest)
    (acquires : instr.acquires = true) (adds : Adds driver after instr rest) :
    after.unwinding = instr.undo ++ driver.unwinding ∧ obeys teardownRule after.unwinding := by
  have before : driver.unwinding = instr.failed driver.simMode := by
    simp [Driver.unwinding, code, EchoRobot.unwinding, acquires]
  have rule := obeys_head (code ▸ unwound.shape)
  simp only [initRule, acquires, ↓reduceIte, Bool.and_eq_true, beq_iff_eq, Bool.or_eq_true,
    Bool.not_eq_true', List.isEmpty_eq_false_iff] at rule
  obtain ⟨⟨grown, order⟩, last⟩ := rule
  have unwinds : after.unwinding = instr.undo ++ driver.unwinding := by
    rw [before, ← grown, Driver.unwinding, adds.code, adds.simMode]
    cases rest with
    | nil =>
      -- only the last step of `echo_init` has nothing after it
      have created : instr = .create .proc := by simpa using last
      have loaded : .proc ∈ after.alive :=
        (adds.alive .proc).mpr (Or.inl (by simp [created, ModuleInstr.undo]))
      simp [EchoRobot.unwinding, created, loaded]
    | cons head later => rfl
  exact ⟨unwinds, by rwa [unwinds, before]⟩

theorem unwound_acquired (unwound : Unwound driver) (code : driver.code = instr :: rest)
    (acquires : instr.acquires = true) (adds : Adds driver after instr rest) :
    Unwound after := by
  obtain ⟨unwinds, order⟩ := unwinding_adds unwound code acquires adds
  have alive : ∀ subsystem, subsystem ∈ driver.alive → subsystem ∈ after.alive :=
    fun subsystem known => (adds.alive subsystem).mpr (Or.inr known)
  have ahead : ∀ other, other ∈ driver.unwinding → other ∈ after.unwinding := by
    intro other member
    rw [unwinds]
    exact List.mem_append_right _ member
  refine ⟨?_, order, fun subsystem => ?_, ?_, ?_, ?_, ?_, ?_, ?_, ?_⟩
  · rw [adds.code, adds.simMode]
    exact obeys_tail (code ▸ unwound.shape)
  · rw [adds.alive, unwound.alive, unwinds, List.mem_append]
  · rw [adds.users, adds.code]
    intro used
    obtain ⟨-, rfl⟩ := unwound.used_code code used
    exact ⟨alive _ (unwound.users used).1, Or.inl rfl⟩
  · rw [adds.users, adds.state]
    exact unwound.calls
  · intro pin member
    rcases (adds.irqs pin).mp member with own | known
    · rw [unwinds]
      exact List.mem_append_left _ own
    · exact ahead _ (unwound.requested pin known)
  · rw [adds.state]
    intro id active
    obtain ⟨pin, known, index⟩ := unwound.handlers id active
    exact ⟨pin, (adds.irqs pin).mpr (Or.inr known), index⟩
  · rw [adds.state]
    exact fun armed => ahead _ (unwound.timer armed)
  · rw [adds.state]
    exact fun busy => ahead _ (unwound.worker busy)
  · rw [adds.state]
    exact fun dead => unwound.past fun known => dead (alive _ known)

/-- A failed acquisition leaves everything but the code. -/
theorem exec_failed (unwound : Unwound driver) (code : driver.code = instr :: rest)
    (acquires : instr.acquires = true) (taken : driver.exec false instr rest = some after) :
    driver.users = [] ∧ { driver with code := instr.failed driver.simMode } = after := by
  have unused : driver.users = [] := by
    by_contra used
    obtain ⟨rfl, -⟩ := unwound.used_code code used
    simp [Driver.exec, used] at taken
  refine ⟨unused, ?_⟩
  cases instr with
  | create subsystem =>
    simp only [Driver.exec, Bool.false_eq_true, ↓reduceIte, if_pos unused] at taken
    exact Option.some.inj taken
  | requestIrq pin => exact Option.some.inj taken
  | _ => cases acquires

theorem unwound_next {action : DriverAction} (unwound : Unwound driver)
    (threads : Threads driver.state) (ok : ReplayEndsFirst driver action)
    (moved : nextDriver driver action = some after) : Unwound after := by
  cases action with
  | base action =>
    obtain ⟨admitted, state, stepped, rfl⟩ := nextDriver_base.mp moved
    exact unwound_base unwound threads admitted ok stepped
  | step granted =>
    obtain ⟨instr, rest, code, taken⟩ := nextDriver_step.mp moved
    cases acquires : instr.acquires with
    | true =>
      cases granted with
      | true => exact unwound_acquired unwound code acquires (exec_adds acquires taken)
      | false =>
        obtain ⟨unused, rfl⟩ := exec_failed unwound code acquires taken
        refine unwound_begins unwound unused ?_ (failed_releases _ instr)
        simp [Driver.unwinding, code, EchoRobot.unwinding, acquires]
    | false =>
      refine unwound_release unwound code acquires (exec_ends acquires taken) ?_
      rintro rfl
      exact ok.freed granted rfl (by simp [code])
  | echoExit =>
    obtain ⟨⟨loaded, unused⟩, rfl⟩ := nextDriver_echoExit.mp moved
    have loaded : driver.code = [] ∧ .proc ∈ driver.alive := by
      simpa [Driver.loaded] using loaded
    refine unwound_begins unwound unused ?_ (echoExit_releases _)
    simp [Driver.unwinding, EchoRobot.unwinding, loaded]
  | echoOpen id =>
    obtain ⟨opened, rfl⟩ := nextDriver_echoOpen.mp moved
    exact { unwound with
      users := fun _ => opened
      calls := fun other active => List.mem_cons_of_mem _ (unwound.calls other active) }
  | echoRelease id =>
    obtain ⟨idle, rfl⟩ := nextDriver_echoRelease.mp moved
    refine { unwound with users := fun used => unwound.users ?_, calls := fun other active => ?_ }
    · rintro unused
      simp [unused] at used
    · refine List.mem_filter.mpr ⟨unwound.calls other active, ?_⟩
      simp only [ne_eq, decide_not, Bool.not_eq_true', decide_eq_false_iff_not]
      rintro rfl
      exact active idle

theorem unwound_initial (servo : EchoServoCtx) (clock : Nat) :
    Unwound (Driver.initial servo clock) := by
  have nothing : (Driver.initial servo clock).unwinding = [] := rfl
  refine ⟨echoInit_obeys _, ?_, ?_, ?_, ?_, ?_, ?_, ?_, ?_, ?_⟩
  · rfl
  · intro subsystem
    rw [nothing]
    simp [Driver.initial]
  · exact fun used => absurd rfl used
  · exact fun id active => absurd rfl active
  · simp [Driver.initial]
  · exact fun id active => absurd rfl active
  · rintro (pending | active)
    · cases pending
    · exact absurd rfl active
  · rintro (pending | active)
    · cases pending
    · cases active
  · intro _ instr member
    cases member

end Step

/-- Only system calls read the joystick's counter. -/
theorem background_uses {tid : Tid} {instr : Instr} {subsystem : Subsystem}
    (background : tid.background = true) (own : tid.runs instr = true)
    (uses : instr.uses = some subsystem) :
    subsystem = .state ∨ subsystem = .buffer ∨ subsystem = .servo := by
  cases instr with
  | readIrqCount => cases tid <;> contradiction
  | _ => cases uses <;> simp

/-- Each kind of background thread works on what its end keeps alive. -/
theorem teardownSafe_of_unwound {driver : Driver} (unwound : Unwound driver)
    (threads : Threads driver.state) : TeardownSafe driver := by
  intro tid env instr subsystem background head uses
  obtain ⟨rest, code⟩ := code_of_head head
  have active : driver.state.code tid ≠ [] := by simp [code]
  have own : tid.runs instr = true := threads.1 tid instr (by simp [code])
  have kind := background_uses background own uses
  have timed : .timerDeleteSync ∈ driver.unwinding → subsystem ∈ driver.alive := by
    intro ahead
    obtain ⟨state, worker⟩ := unwound.of_timer ahead
    obtain ⟨buffer, servo⟩ := unwound.of_worker worker
    rcases kind with rfl | rfl | rfl <;> assumption
  cases tid with
  | proc id => cases background
  | irq id => exact timed (unwound.of_call ⟨by simp, by simp⟩ active)
  | timer => exact timed (unwound.timer (Or.inr active))
  | worker =>
    have busy : driver.state.workBusy := Or.inr (by simp [State.idle, code])
    obtain ⟨buffer, servo⟩ := unwound.of_worker (unwound.worker busy)
    rcases kind with rfl | rfl | rfl
    · by_contra dead
      exact unwound.past dead instr (by simp [code]) uses
    · exact buffer
    · exact servo

variable {servo : EchoServoCtx} {clock : Nat} {actions : List DriverAction} {driver : Driver}

/-- In every run in which the replay worker is done with the state before it is
freed, no background thread works on a destroyed subsystem. -/
theorem teardown_safe
    (run : Run nextDriver ReplayEndsFirst (Driver.initial servo clock) actions driver) :
    TeardownSafe driver := by
  have kept : Unwound driver ∧ Threads driver.state := by
    refine run.invariant (fun driver => Unwound driver ∧ Threads driver.state) ?_ ?_
    · exact ⟨unwound_initial servo clock, owned_initial servo clock, .tail List.nil_suffix⟩
    · rintro - before action after - ⟨unwound, threads⟩ ok moved
      exact ⟨unwound_next unwound threads ok moved, threads_next threads moved⟩
  exact teardownSafe_of_unwound kept.1 kept.2

/-- The driver is loaded, one process starts a replay and closes the file, and
the module is unloaded while the item is still queued. -/
def unloadDuringReplay : List DriverAction :=
  moduleSteps 6 ++ [.echoOpen 0, .base (.call (.proc 0) (.ioctl (.setMode (some 2))))] ++
  baseSteps (.proc 0) 6 ++ [.echoRelease 0, .echoExit] ++ moduleSteps 5 ++
  [.base .startWork] ++ baseSteps .worker 2

theorem unloadDuringReplay_uses :
    ∃ driver, run nextDriver (Driver.initial simServo 0) unloadDuringReplay = some driver ∧
      ¬ TeardownSafe driver := by
  obtain ⟨driver, ran, facts⟩ := exists_run nextDriver (fun _ _ => true)
    (Driver.initial simServo 0) unloadDuringReplay
    (fun driver => decide (driver.state.instr? (.step .worker Env.good) = some .lockReplayComplete ∧
      .state ∉ driver.alive)) (by decide)
  obtain ⟨head, dead⟩ := of_decide_eq_true facts
  exact ⟨driver, ran.execution, fun safe => dead (safe .worker Env.good _ _ rfl head rfl)⟩

/-- The test of `ReplayEndsFirst`. -/
def replayEndsFirst (driver : Driver) (action : DriverAction) : Bool :=
  match action with
  | .step _ => driver.code.head? != some (.kfree .state) ||
      (driver.state.code .worker).all fun instr => instr.uses != some .state
  | .base .startWork => decide (.state ∈ driver.alive)
  | _ => true

theorem replayEndsFirst_sound {action : DriverAction}
    (passed : replayEndsFirst driver action = true) : ReplayEndsFirst driver action := by
  constructor
  · rintro granted rfl head instr member
    simp only [replayEndsFirst, head, bne_self_eq_false, Bool.false_or, List.all_eq_true,
      bne_iff_ne] at passed
    exact passed instr member
  · rintro rfl
    simpa [replayEndsFirst] using passed

/-- The same on real hardware, with an interrupt on the way and the replay played
to its end before the module is unloaded. -/
def unloadAfterReplay : List DriverAction :=
  moduleSteps 10 ++ [.base (.call (.irq 0) (.input .up))] ++ baseSteps (.irq 0) 10 ++
  [.echoOpen 0, .base (.call (.proc 0) (.ioctl (.setMode (some 2))))] ++
  baseSteps (.proc 0) 6 ++ [.base .startWork] ++ baseSteps .worker 14 ++
  [.echoRelease 0, .echoExit] ++ moduleSteps 13

theorem teardown_safe_unloadAfterReplay :
    ∃ driver, run nextDriver (Driver.initial { simServo with simMode := false } 0)
        unloadAfterReplay = some driver ∧
      driver.alive = [] ∧ TeardownSafe driver := by
  obtain ⟨driver, ran, gone⟩ := exists_run nextDriver replayEndsFirst
    (Driver.initial { simServo with simMode := false } 0) unloadAfterReplay
    (fun driver => driver.alive == []) (by decide)
  have ends := ran.mono ReplayEndsFirst fun driver action => replayEndsFirst_sound
  exact ⟨driver, ran.execution, by simpa using gone, teardown_safe ends⟩

end EchoRobot
