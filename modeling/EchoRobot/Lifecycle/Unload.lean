import EchoRobot.Calls.Rest
import EchoRobot.Lifecycle.Teardown

/-! Unloading to the end. A teardown waits only for threads that go on, so it can always
be finished; and once it is, nothing of the driver moves any more. -/

namespace EchoRobot

open Interleaving

/-- Nothing of the driver is left, and nothing is under way that could start it. -/
structure Gone (driver : Driver) : Prop where
  code : driver.code = []
  alive : driver.alive = []
  irqs : driver.irqs = []
  users : driver.users = []
  threads : ∀ tid, driver.state.code tid = []
  timer : driver.state.dev.state.timerPending = false
  work : driver.state.dev.buffer.replayPending = false

/-- The work is cancelled before the queue is destroyed. -/
def destroyRule : ModuleInstr → ModuleCode → Bool
  | .destroyWorkqueue, rest => decide (.cancelWorkSync ∉ rest)
  | _, _ => true

section Gone
variable {driver after : Driver} {action : DriverAction}

theorem gone_of_unwound (unwound : Unwound driver) (code : driver.code = [])
    (unloaded : .proc ∉ driver.alive) : Gone driver := by
  have due : driver.unwinding = [] := by
    simp [Driver.unwinding, EchoRobot.unwinding, code, unloaded]
  have dead : ∀ subsystem, subsystem ∉ driver.alive := by
    simpa [due] using unwound.alive
  have irqs : driver.irqs = [] := List.eq_nil_iff_forall_not_mem.mpr fun pin member => by
    simpa [due] using unwound.requested pin member
  have users : driver.users = [] := by
    by_contra used
    exact dead _ (unwound.users used).1
  have unarmed : ¬ driver.state.armed := fun armed => by
    simpa [due] using unwound.timer armed
  have rests : ¬ driver.state.workBusy := fun busy => by
    simpa [due] using unwound.worker busy
  refine ⟨code, List.eq_nil_iff_forall_not_mem.mpr dead, irqs, users, fun tid => ?_, ?_, ?_⟩
  · by_contra active
    cases tid with
    | proc id => simpa [users] using unwound.calls id active
    | irq id =>
      obtain ⟨pin, member, -⟩ := unwound.handlers id active
      simp [irqs] at member
    | timer => exact unarmed (Or.inr active)
    | worker => exact rests (Or.inr (by simpa [State.idle] using active))
  · exact Bool.eq_false_iff.mpr fun pending => unarmed (Or.inl pending)
  · exact Bool.eq_false_iff.mpr fun pending => rests (Or.inl pending)

/-- Only time goes on. -/
theorem gone_next (gone : Gone driver) (moved : nextDriver driver action = some after) :
    after = driver ∨ ∃ ns, after = { driver with
      state := { driver.state with clock := driver.state.clock + ns } } := by
  cases action with
  | base action =>
    obtain ⟨admitted, state, stepped, rfl⟩ := nextDriver_base.mp moved
    cases action with
    | call tid request =>
      obtain ⟨⟨may, -⟩, -⟩ := next_call.mp stepped
      cases tid with
      | proc id => simp [Driver.admits, gone.users] at admitted
      | irq id =>
        cases request with
        | input pin => simp [Driver.admits, gone.irqs] at admitted
        | _ => cases may
      | _ => cases may
    | step tid env =>
      obtain ⟨instr, rest, done, code, -, -⟩ := next_step.mp stepped
      simp [gone.threads tid] at code
    | expire =>
      obtain ⟨⟨pending, -⟩, -⟩ := next_expire.mp stepped
      simp [gone.timer] at pending
    | startWork =>
      obtain ⟨⟨pending, -⟩, -⟩ := next_startWork.mp stepped
      simp [gone.work] at pending
    | tick ns =>
      obtain rfl := next_tick.mp stepped
      exact Or.inr ⟨ns, rfl⟩
    | signal tid =>
      obtain ⟨asleep, -⟩ := next_signal.mp stepped
      simp [State.asleep, gone.threads tid] at asleep
  | step granted =>
    obtain ⟨instr, rest, code, -⟩ := nextDriver_step.mp moved
    simp [gone.code] at code
  | echoExit =>
    obtain ⟨⟨loaded, -⟩, -⟩ := nextDriver_echoExit.mp moved
    simp [Driver.loaded, gone.alive] at loaded
  | echoOpen id =>
    obtain ⟨⟨opened, -⟩, -⟩ := nextDriver_echoOpen.mp moved
    simp [gone.alive] at opened
  | echoRelease id =>
    obtain ⟨-, rfl⟩ := nextDriver_echoRelease.mp moved
    left
    rw [gone.users, List.filter_nil, ← gone.users]

theorem Gone.next (gone : Gone driver) (moved : nextDriver driver action = some after) :
    Gone after ∧ after.state.dev = driver.state.dev := by
  rcases gone_next gone moved with rfl | ⟨ns, rfl⟩
  · exact ⟨gone, rfl⟩
  · exact ⟨⟨gone.code, gone.alive, gone.irqs, gone.users, gone.threads, gone.timer, gone.work⟩, rfl⟩

end Gone

section Teardown
variable {driver after : Driver} {instr : ModuleInstr} {rest : ModuleCode}

/-- Nobody calls and nothing expires or is picked up: the module thread and the threads
of the driver finish what is before them. -/
def LeftAlone (driver : Driver) (action : DriverAction) : Prop :=
  (action = .step true ∨ ∃ tid env, action = .base (.step tid env)) ∧ ReplayEndsFirst driver action

/-- What the module thread and each thread of the driver still have before them. -/
def Driver.ahead (driver : Driver) : Option Tid → Nat
  | none => driver.code.length
  | some tid => work (driver.state.code tid)

/-- A teardown is under way that frees everything that is alive. -/
structure Dismantling (driver : Driver) : Prop where
  unwound : Unwound driver
  threads : Threads driver.state
  releases : Releases driver.code
  frees : ∀ subsystem ∈ driver.alive, .kfree subsystem ∈ driver.code
  order : obeys destroyRule driver.code = true

theorem getsAhead_base {action : Action} {state : State} (threads : Threads driver.state)
    (step : ∃ tid env, action = .step tid env) (moved : next driver.state action = some state) :
    GetsAhead Driver.ahead driver { driver with state := state } := by
  obtain ⟨tid, env, rfl⟩ := step
  obtain ⟨mover, less, same⟩ := work_next threads.1 threads.2 moved
  refine ⟨some mover, less, fun other different => ?_⟩
  cases other with
  | none => rfl
  | some other => exact same other fun equal => different (congrArg some equal)

theorem getsAhead_ends (code : driver.code = instr :: rest) (ends : Ends driver after instr rest) :
    GetsAhead Driver.ahead driver after := by
  refine ⟨none, ?_, fun other different => ?_⟩
  · simp [Driver.ahead, code, ends.code]
  · cases other with
    | none => exact absurd rfl different
    | some tid => simp only [Driver.ahead, State.code, ends.thread]

theorem dismantling_next {action : DriverAction} (dismantling : Dismantling driver)
    (ok : LeftAlone driver action) (moved : nextDriver driver action = some after) :
    Dismantling after ∧ GetsAhead Driver.ahead driver after := by
  obtain ⟨unwound, threads, releases, frees, order⟩ := dismantling
  have kept := unwound_next unwound threads ok.2 moved
  have keeps := threads_next threads moved
  rcases ok.1 with rfl | ⟨tid, env, rfl⟩
  · obtain ⟨instr, rest, code, taken⟩ := nextDriver_step.mp moved
    rw [code] at releases frees order
    have ends := exec_ends (releases instr List.mem_cons_self) taken
    refine ⟨⟨kept, keeps, ?_, fun subsystem known => ?_, ?_⟩, getsAhead_ends code ends⟩
    · rw [ends.code]
      exact fun other member => releases other (List.mem_cons_of_mem instr member)
    · obtain ⟨alive, different⟩ := (ends.alive subsystem).mp known
      rw [ends.code]
      exact (List.mem_cons.mp (frees subsystem alive)).resolve_left (Ne.symm different)
    · rw [ends.code]
      exact obeys_tail order
  · obtain ⟨-, state, stepped, rfl⟩ := nextDriver_base.mp moved
    exact ⟨⟨kept, keeps, releases, frees, order⟩, getsAhead_base threads ⟨tid, env, rfl⟩ stepped⟩

/-- The step of a busy background thread. -/
theorem thread_goes {tid : Tid} (threads : Threads driver.state) (background : ∀ id, tid ≠ .proc id)
    (busy : driver.state.code tid ≠ []) :
    ∃ action after, LeftAlone driver action ∧ nextDriver driver action = some after := by
  obtain ⟨state, moved⟩ := runs_on threads.1 background Env.good busy
  refine ⟨.base (.step tid Env.good), _, ⟨Or.inr ⟨tid, Env.good, rfl⟩, ?_, ?_⟩,
    nextDriver_base.mpr ⟨rfl, state, moved, rfl⟩⟩
  · rintro granted ⟨⟩
  · rintro ⟨⟩

/-- The step of the module thread. -/
theorem module_goes (code : driver.code = instr :: rest)
    (freed : instr = .kfree .state → DoneWithState driver.state)
    (taken : driver.exec true instr rest = some after) :
    ∃ action after, LeftAlone driver action ∧ nextDriver driver action = some after := by
  refine ⟨.step true, after, ⟨Or.inl rfl, fun granted _ head => freed ?_, by rintro ⟨⟩⟩,
    nextDriver_step.mpr ⟨instr, rest, code, taken⟩⟩
  simpa [code] using head

/-- A teardown waits only for threads that go on. -/
theorem dismantling_goes (dismantling : Dismantling driver) (code : driver.code = instr :: rest) :
    ∃ action after, LeftAlone driver action ∧ nextDriver driver action = some after := by
  obtain ⟨unwound, threads, releases, -, order⟩ := dismantling
  rw [code] at releases order
  have release := releases instr List.mem_cons_self
  cases instr with
  | create subsystem => cases release
  | requestIrq pin => cases release
  | freeIrq pin =>
    by_cases idle : driver.state.code (.irq pin.index) = []
    · exact module_goes code (by rintro ⟨⟩) (if_pos (by simp [State.idle, idle]))
    · exact thread_goes threads (by simp) idle
  | timerDeleteSync =>
    by_cases idle : driver.state.code .timer = []
    · exact module_goes code (by rintro ⟨⟩) (if_pos (by simp [State.idle, idle]))
    · exact thread_goes threads (by simp) idle
  | cancelWorkSync =>
    by_cases idle : driver.state.code .worker = []
    · exact module_goes code (by rintro ⟨⟩) (if_pos (by simp [State.idle, idle]))
    · exact thread_goes threads (by simp) idle
  | destroyWorkqueue =>
    by_cases idle : driver.state.code .worker = []
    · have cancelled : .cancelWorkSync ∉ rest := of_decide_eq_true (obeys_head order)
      have due := (unwound.of_release code release).1
      have rests : ¬ driver.state.workBusy := fun busy => by
        simpa [due, cancelled] using unwound.worker busy
      have unqueued : driver.state.dev.buffer.replayPending = false :=
        Bool.eq_false_iff.mpr fun pending => rests (Or.inl pending)
      exact module_goes code (by rintro ⟨⟩) (if_pos (by simp [State.idle, idle, unqueued]))
    · exact thread_goes threads (by simp) idle
  | kfree subsystem =>
    by_cases idle : driver.state.code .worker = []
    · exact module_goes code (fun _ => by simp [DoneWithState, idle]) rfl
    · exact thread_goes threads (by simp) idle

theorem failed_destroys (simMode : Bool) (instr : ModuleInstr) :
    obeys destroyRule (instr.failed simMode) = true := by
  cases instr with
  | create subsystem => cases subsystem <;> cases simMode <;> decide
  | requestIrq pin => cases pin <;> rfl
  | _ => rfl

theorem destroys_next {action : DriverAction} (order : obeys destroyRule driver.code = true)
    (moved : nextDriver driver action = some after) : obeys destroyRule after.code = true := by
  cases action with
  | base action =>
    obtain ⟨-, state, -, rfl⟩ := nextDriver_base.mp moved
    exact order
  | step granted =>
    obtain ⟨instr, rest, code, taken⟩ := nextDriver_step.mp moved
    have later := obeys_tail (code ▸ order)
    have failed := failed_destroys driver.simMode instr
    cases instr <;> simp only [Driver.exec] at taken
    all_goals repeat' split at taken
    all_goals first
      | contradiction
      | (cases taken; exact later)
      | (cases taken; exact failed)
  | echoExit =>
    obtain ⟨-, rfl⟩ := nextDriver_echoExit.mp moved
    show obeys destroyRule (echoExit driver.simMode) = true
    cases driver.simMode <;> decide
  | echoOpen id =>
    obtain ⟨-, rfl⟩ := nextDriver_echoOpen.mp moved
    exact order
  | echoRelease id =>
    obtain ⟨-, rfl⟩ := nextDriver_echoRelease.mp moved
    exact order

end Teardown

section Runs
variable {servo : EchoServoCtx} {clock : Nat} {actions : List DriverAction} {driver : Driver}

theorem unwound_of_run
    (run : Run nextDriver ReplayEndsFirst (Driver.initial servo clock) actions driver) :
    Unwound driver ∧ Threads driver.state ∧ obeys destroyRule driver.code = true := by
  refine run.invariant (fun driver => Unwound driver ∧ Threads driver.state ∧
    obeys destroyRule driver.code = true) ?_ ?_
  · refine ⟨unwound_initial servo clock, ⟨owned_initial servo clock, .tail List.nil_suffix⟩, ?_⟩
    show obeys destroyRule (echoInit servo.simMode) = true
    cases servo.simMode <;> decide
  · rintro - before action after - ⟨unwound, threads, order⟩ ok moved
    exact ⟨unwound_next unwound threads ok moved, threads_next threads moved,
      destroys_next order moved⟩

theorem dismantling_of_run
    (run : Run nextDriver ReplayEndsFirst (Driver.initial servo clock) actions driver)
    (releases : Releases driver.code) (begun : driver.code ≠ []) : Dismantling driver := by
  obtain ⟨unwound, threads, order⟩ := unwound_of_run run
  obtain ⟨instr, rest, code⟩ := List.exists_cons_of_ne_nil begun
  have due := (unwound.of_release code (releases instr (by simp [code]))).1
  refine ⟨unwound, threads, releases, fun subsystem known => ?_, order⟩
  rw [code, ← due]
  exact (unwound.alive subsystem).mp known

/-- Only the module thread and finitely many others have something before them. -/
theorem exists_ahead {allowed : Driver → DriverAction → Prop}
    (run : Run nextDriver allowed (Driver.initial servo clock) actions driver) :
    ∃ threads : Finset (Option Tid), ∀ thread ∉ threads, driver.ahead thread = 0 := by
  have active : ∃ threads : Finset Tid, ∀ tid ∉ threads, driver.state.code tid = [] := by
    induction run with
    | refl => exact ⟨∅, fun _ _ => rfl⟩
    | step before ok moved ih =>
      rcases nextDriver_state moved with ⟨base, -, stepped⟩ | ⟨same, -⟩
      · exact active_next ih stepped
      · simpa only [State.code, same] using ih
  obtain ⟨threads, idle⟩ := active
  refine ⟨insert none (threads.image some), fun thread absent => ?_⟩
  rw [Finset.mem_insert, not_or] at absent
  cases thread with
  | none => exact absurd rfl absent.1
  | some tid =>
    have outside : tid ∉ threads := fun inside => absent.2 (Finset.mem_image_of_mem some inside)
    rw [Driver.ahead, idle tid outside, work_nil]

/-- A teardown, of `echo_exit` or of a failing `echo_init`, can always be finished: in
whatever order the module thread and the driver's threads go on, they take only so many
steps, they go on until everything is freed, and then the driver is gone. -/
structure CanBeFinished (threads : Finset (Option Tid)) (driver : Driver) : Prop where
  bounded : ∀ later after, Run nextDriver LeftAlone driver later after →
    later.length ≤ ∑ thread ∈ threads, driver.ahead thread
  goes : ∀ later after, Run nextDriver LeftAlone driver later after →
    Gone after ∨ ∃ action further, LeftAlone after action ∧ nextDriver after action = some further
  finishes : ∃ later after, Run nextDriver LeftAlone driver later after ∧ Gone after

theorem unload_completes
    (run : Run nextDriver ReplayEndsFirst (Driver.initial servo clock) actions driver)
    (releases : Releases driver.code) (begun : driver.code ≠ [])
    (threads : Finset (Option Tid)) (outside : ∀ thread ∉ threads, driver.ahead thread = 0) :
    CanBeFinished threads driver := by
  have dismantling := dismantling_of_run run releases begun
  have reached : ∀ {later after}, Run nextDriver LeftAlone driver later after →
      Dismantling after := fun later =>
    later.invariant Dismantling dismantling fun _ _ _ _ _ before ok moved =>
      (dismantling_next before ok moved).1
  have ahead : ∀ later middle action after, Run nextDriver LeftAlone driver later middle →
      LeftAlone middle action → nextDriver middle action = some after →
      GetsAhead Driver.ahead middle after := fun later middle action after onward ok moved =>
    (dismantling_next (reached onward) ok moved).2
  have goes : ∀ later after, Run nextDriver LeftAlone driver later after →
      Gone after ∨ ∃ action further, LeftAlone after action ∧
        nextDriver after action = some further := by
    intro later after onward
    have before := reached onward
    cases code : after.code with
    | nil =>
      left
      refine gone_of_unwound before.unwound code fun loaded => ?_
      simpa [code] using before.frees .proc loaded
    | cons instr rest => exact Or.inr (dismantling_goes before code)
  have bounded : ∀ later after, Run nextDriver LeftAlone driver later after →
      later.length ≤ ∑ thread ∈ threads, driver.ahead thread := by
    intro later after onward
    have bound := (onward.length_le_rank outside ahead).1
    omega
  exact ⟨bounded, goes, Run.exists_goal Gone bounded goes⟩

/-- Once the module is unloaded, or its loading has failed, nothing of the driver moves
any more. -/
theorem unloaded_is_silent
    (run : Run nextDriver ReplayEndsFirst (Driver.initial servo clock) actions driver)
    (code : driver.code = []) (unloaded : .proc ∉ driver.alive)
    {later : List DriverAction} {after : Driver}
    (onward : Run nextDriver anyStep driver later after) :
    Gone after ∧ after.state.dev = driver.state.dev := by
  refine onward.invariant (fun after => Gone after ∧ after.state.dev = driver.state.dev)
    ⟨gone_of_unwound (unwound_of_run run).1 code unloaded, rfl⟩ ?_
  rintro - before action after - ⟨gone, same⟩ - moved
  exact ⟨(gone.next moved).1, (gone.next moved).2.trans same⟩

/-- The module is unloaded while a joystick call is under way and the timer is pending. -/
def unloadDuringInput : List DriverAction :=
  moduleSteps 10 ++ [.base (.call (.irq 0) (.input .up))] ++ baseSteps (.irq 0) 8 ++ [.echoExit]

theorem unload_completes_unloadDuringInput :
    ∃ driver, run nextDriver (Driver.initial { simServo with simMode := false } 0)
        unloadDuringInput = some driver ∧ driver.state.code (.irq 0) ≠ [] ∧
      ∃ later after, Run nextDriver LeftAlone driver later after ∧ Gone after := by
  obtain ⟨driver, ran, facts⟩ := exists_run nextDriver replayEndsFirst
    (Driver.initial { simServo with simMode := false } 0) unloadDuringInput
    (fun driver => decide (driver.code = echoExit false ∧ driver.state.code (.irq 0) ≠ []))
    (by decide)
  obtain ⟨code, active⟩ := of_decide_eq_true facts
  have ends := ran.mono ReplayEndsFirst fun driver action => replayEndsFirst_sound
  obtain ⟨threads, outside⟩ := exists_ahead ran
  have completes := unload_completes ends (code ▸ echoExit_releases false) (by simp [code, echoExit,
    echoProcDestroy]) threads outside
  exact ⟨driver, ran.execution, active, completes.finishes⟩

/-- The second interrupt is refused: the module is not loaded, and nothing is left. -/
def loadingFails : List DriverAction := moduleSteps 5 ++ [.step false] ++ moduleSteps 8

theorem unloaded_is_silent_loadingFails :
    ∃ driver, run nextDriver (Driver.initial { simServo with simMode := false } 0) loadingFails =
        some driver ∧
      ∀ later after, Run nextDriver anyStep driver later after → Gone after := by
  obtain ⟨driver, ran, facts⟩ := exists_run nextDriver replayEndsFirst
    (Driver.initial { simServo with simMode := false } 0) loadingFails
    (fun driver => decide (driver.code = [] ∧ .proc ∉ driver.alive)) (by decide)
  obtain ⟨code, unloaded⟩ := of_decide_eq_true facts
  have ends := ran.mono ReplayEndsFirst fun driver action => replayEndsFirst_sound
  exact ⟨driver, ran.execution, fun later after onward =>
    (unloaded_is_silent ends code unloaded onward).1⟩

end Runs

end EchoRobot
