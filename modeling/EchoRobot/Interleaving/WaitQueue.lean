import EchoRobot.Interleaving.Run

/-! Wait queues. A thread whose condition is false may fall asleep; from then on it takes no
step, whatever becomes of the condition, until its queue is woken up. -/

namespace EchoRobot.Interleaving

universe u v w x
variable {State : Type u} {Action : Type v} {Thread : Type w} {Queue : Type x}

/-- A system that knows whom its actions move, at which queue a thread waits, for what, and
which queue an action wakes up. -/
structure Waiting (State : Type u) (Action : Type v) (Thread : Type w) (Queue : Type x) where
  next : State → Action → Option State
  actor : Action → Option Thread
  waits : State → Thread → Option Queue
  ready : State → Queue → Bool
  wakes : State → Action → Option Queue

/-- A state with the threads that sleep in it. -/
structure Sleeping (State : Type u) (Thread : Type w) where
  state : State
  sleepers : List Thread

/-- A thread may also be roused by something else than its queue. -/
inductive SleepAction (Action : Type v) (Thread : Type w) where
  | act (action : Action)
  | sleep (thread : Thread)
  | rouse (thread : Thread)

section Step
variable [DecidableEq Queue]

/-- Who sleeps on after the action: all but those of the queue that it wakes up. -/
def Waiting.sleepOn (waiting : Waiting State Action Thread Queue)
    (sleeping : Sleeping State Thread) (action : Action) : List Thread :=
  match waiting.wakes sleeping.state action with
  | none => sleeping.sleepers
  | some queue =>
    sleeping.sleepers.filter fun thread => waiting.waits sleeping.state thread ≠ some queue

/-- The discipline of those who make a condition true: `alerting` says that somebody is about
to wake the queue up. -/
structure Waiting.Disciplined (waiting : Waiting State Action Thread Queue) (start : State)
    (alerting : State → Queue → Prop) : Prop where
  still : ∀ state action after thread, waiting.next state action = some after →
    waiting.actor action ≠ some thread → waiting.waits after thread = waiting.waits state thread
  announced : ∀ actions state action after queue,
    Run waiting.next anyStep start actions state → waiting.next state action = some after →
    waiting.ready state queue = false → waiting.ready after queue = true → alerting after queue
  lasts : ∀ state action after queue, waiting.next state action = some after →
    alerting state queue → alerting after queue ∨ waiting.wakes state action = some queue

/-- A sleeper's condition is false, or somebody is about to wake it up. -/
def Waiting.Heard (waiting : Waiting State Action Thread Queue)
    (alerting : State → Queue → Prop) (sleeping : Sleeping State Thread) : Prop :=
  ∀ thread ∈ sleeping.sleepers, ∃ queue, waiting.waits sleeping.state thread = some queue ∧
    (waiting.ready sleeping.state queue = true → alerting sleeping.state queue)

variable {waiting : Waiting State Action Thread Queue} {alerting : State → Queue → Prop}
variable {start : State} {sleeping after : Sleeping State Thread} {reached : State}
variable {action : Action} {thread : Thread}

theorem mem_sleepOn (sleeps : thread ∈ waiting.sleepOn sleeping action) :
    thread ∈ sleeping.sleepers ∧ ∀ queue, waiting.wakes sleeping.state action = some queue →
      waiting.waits sleeping.state thread ≠ some queue := by
  unfold Waiting.sleepOn at sleeps
  split at sleeps
  · rename_i none
    exact ⟨sleeps, fun queue wakes => absurd (none.symm.trans wakes) (by simp)⟩
  · rename_i queue wakes
    obtain ⟨slept, other⟩ := List.mem_filter.mp sleeps
    refine ⟨slept, fun woken wakes' => ?_⟩
    obtain rfl := Option.some.inj (wakes.symm.trans wakes')
    exact of_decide_eq_true other

theorem heard_act {actions : List Action} (disciplined : waiting.Disciplined start alerting)
    (run : Run waiting.next anyStep start actions sleeping.state)
    (heard : waiting.Heard alerting sleeping)
    (awake : ∀ thread ∈ sleeping.sleepers, waiting.actor action ≠ some thread)
    (moved : waiting.next sleeping.state action = some reached) :
    waiting.Heard alerting ⟨reached, waiting.sleepOn sleeping action⟩ := by
  intro thread sleeps
  obtain ⟨slept, missed⟩ := mem_sleepOn sleeps
  obtain ⟨queue, waits, alerted⟩ := heard thread slept
  refine ⟨queue, (disciplined.still _ _ _ _ moved (awake thread slept)).trans waits, ?_⟩
  intro ready
  cases before : waiting.ready sleeping.state queue with
  | false => exact disciplined.announced _ _ _ _ _ run moved before ready
  | true =>
    exact (disciplined.lasts _ _ _ _ moved (alerted before)).resolve_right
      fun wakes => missed queue wakes waits

variable [DecidableEq Thread]

/-- A sleeper takes no step. A thread looks at its condition before it sleeps. -/
def Waiting.step (waiting : Waiting State Action Thread Queue)
    (sleeping : Sleeping State Thread) :
    SleepAction Action Thread → Option (Sleeping State Thread)
  | .act action =>
    if ∃ thread ∈ sleeping.sleepers, waiting.actor action = some thread then none
    else (waiting.next sleeping.state action).map fun after =>
      ⟨after, waiting.sleepOn sleeping action⟩
  | .sleep thread =>
    match waiting.waits sleeping.state thread with
    | none => none
    | some queue =>
      if waiting.ready sleeping.state queue then none
      else some ⟨sleeping.state, thread :: sleeping.sleepers⟩
  | .rouse thread => some ⟨sleeping.state, sleeping.sleepers.filter (· ≠ thread)⟩

/-- What a step of the system with sleepers does to the system itself. -/
theorem step_state {action : SleepAction Action Thread}
    (moved : waiting.step sleeping action = some after) : after.state = sleeping.state ∨
      ∃ act, action = .act act ∧ waiting.next sleeping.state act = some after.state := by
  cases action with
  | act action =>
    simp only [Waiting.step] at moved
    split at moved
    · cases moved
    · obtain ⟨reached, stepped, rfl⟩ := Option.map_eq_some_iff.mp moved
      exact Or.inr ⟨action, rfl, stepped⟩
  | sleep thread =>
    simp only [Waiting.step] at moved
    split at moved
    · cases moved
    · split at moved <;> cases moved
      exact Or.inl rfl
  | rouse thread =>
    cases moved
    exact Or.inl rfl

theorem heard_step {actions : List Action} {action : SleepAction Action Thread}
    (disciplined : waiting.Disciplined start alerting)
    (run : Run waiting.next anyStep start actions sleeping.state)
    (heard : waiting.Heard alerting sleeping)
    (moved : waiting.step sleeping action = some after) : waiting.Heard alerting after := by
  cases action with
  | act action =>
    simp only [Waiting.step] at moved
    split at moved
    · cases moved
    · rename_i awake
      obtain ⟨reached, stepped, rfl⟩ := Option.map_eq_some_iff.mp moved
      exact heard_act disciplined run heard
        (fun thread sleeps own => awake ⟨thread, sleeps, own⟩) stepped
  | sleep thread =>
    simp only [Waiting.step] at moved
    split at moved
    · cases moved
    · rename_i queue waits
      split at moved <;> cases moved
      rename_i unready
      intro other sleeps
      rcases List.mem_cons.mp sleeps with rfl | slept
      · exact ⟨queue, waits, fun ready => absurd ready unready⟩
      · exact heard other slept
  | rouse thread =>
    cases moved
    exact fun other sleeps => heard other (List.mem_filter.mp sleeps).1

variable {actions : List (SleepAction Action Thread)} {sleepers : List Thread}

/-- With sleepers the system reaches no other states. -/
theorem Run.awake (run : Run waiting.step anyStep ⟨start, sleepers⟩ actions sleeping) :
    ∃ acts, Run waiting.next anyStep start acts sleeping.state := by
  induction run with
  | refl => exact ⟨[], .refl⟩
  | step before ok moved ih =>
    obtain ⟨acts, run⟩ := ih
    rcases step_state moved with same | ⟨act, -, stepped⟩
    · exact ⟨acts, same ▸ run⟩
    · exact ⟨_, .step run trivial stepped⟩

theorem heard_of_run (disciplined : waiting.Disciplined start alerting)
    (run : Run waiting.step anyStep ⟨start, []⟩ actions sleeping) :
    waiting.Heard alerting sleeping :=
  run.invariant (waiting.Heard alerting) (fun _ sleeps => absurd sleeps List.not_mem_nil)
    fun _ _ _ _ before heard _ moved =>
      let ⟨_, own⟩ := before.awake
      heard_step disciplined own heard moved

end Step

end EchoRobot.Interleaving
