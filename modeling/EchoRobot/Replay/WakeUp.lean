import EchoRobot.Replay.Stranding

/-! The shared flag of blocking `REPLAY` writes. Every writer clears it before
it knows whether it is accepted; a waiter needs somebody who still sets it. -/

namespace EchoRobot

open Interleaving

/-- Whenever nothing is left that could wake a waiting writer, its condition
already holds. -/
def NoLostWakeUp (state : State) : Prop :=
  state.quiet → ¬ state.workBusy → ∀ tid, state.awaitsReplay tid = true →
    state.dev.replayFinished = true

def isSignal (instr : Instr) : Bool := instr == .setReplayFinished true

/-- The thread is bound to set `replay_finished`. -/
def State.signalling (state : State) (tid : Tid) : Prop :=
  commits Instr.mayReturn isSignal (state.code tid) = true

/-- Past its `queue_work`, the writer goes to sleep or sleeps. -/
def State.waits (state : State) (tid : Tid) : Prop :=
  .waitReplayDone ∈ state.code tid ∧ .queueWork ∉ state.code tid

/-- The writer has cleared the flag and is about to test the mode. -/
def State.checking (state : State) (tid : Tid) : Prop :=
  ∃ rest, state.code tid = .lockStartReplay :: rest ∧ .waitReplayDone ∈ rest

/-- Somebody is going to set `replay_finished`. -/
def State.completing (state : State) : Prop :=
  state.dev.buffer.replayPending = true ∨ state.someStarting ∨ ∃ tid, state.signalling tid

/-- A `REPLAY` write whose cleared flag another writer waits for is turned away
only while somebody is going to set the flag. -/
def TurnsAwayWhileCompleting (state : State) (action : Action) : Prop :=
  ∀ tid env, action = .step tid env → state.checking tid → state.dev.state.mode = .replay →
    state.dev.replayFinished = false → (∃ waiter, state.waits waiter) → state.completing

/-- While a writer waits for the flag, somebody is going to set it, unless a
request that has cleared it is about to be accepted or turned away. -/
def WakeUpCarried (state : State) : Prop :=
  state.dev.replayFinished = false → (∃ tid, state.waits tid) →
    state.completing ∨ ∃ tid, state.checking tid

/-- The order of the steps of a blocking write, of a stop and of a completion. -/
def waitRule : Instr → Code → Bool
  | .setReplayFinished false, rest =>
    rest.head? == some .lockStartReplay && decide (.waitReplayDone ∈ rest)
  | .setReplayFinished true, rest => decide (.waitReplayDone ∉ rest)
  | .lockStartReplay, rest => decide (.queueWork ∈ rest ∧ .lockStartReplay ∉ rest)
  | .queueWork, rest => decide (.queueWork ∉ rest ∧ .lockStartReplay ∉ rest)
  | .cancelWorkSync, rest =>
    commits Instr.mayReturn isSignal rest && decide (.waitReplayDone ∉ rest)
  | .lockReplayComplete, rest => commits Instr.mayReturn isSignal rest
  | .waitReplayDone, rest =>
    decide (.queueWork ∉ rest ∧ .lockStartReplay ∉ rest ∧ .waitReplayDone ∉ rest)
  | _, _ => true

theorem waitRule_lawful : CodeRule waitRule where
  entry tid code entry := by
    cases entry with
    | read id nonblock count => cases nonblock <;> rfl
    | input id pin => cases pin <;> rfl
    | _ => rfl
  timer := by decide
  worker := by decide
  stop := by decide
  unroll moves rest shape := by
    refine obeys_replayLoop (fun instr before own loop => ?_) (obeys_tail shape)
    cases instr <;> first | rfl | cases own

theorem Entry.starts_before_wait {tid : Tid} {code : Code} (entry : Entry tid code)
    (waits : .waitReplayDone ∈ code) : .lockStartReplay ∈ code ∧ .queueWork ∈ code := by
  cases entry with
  | read id nonblock count =>
    cases nonblock <;> exact absurd waits (by simp [echoRead, buildSnapshot])
  | input id pin => cases pin <;> exact absurd waits (by decide)
  | replayWrite | start => simp [echoStateStartReplay, stateOpStartReplay]
  | _ =>
    simp [echoStateSetMode, echoStateStop, stateOpCancelReplay, signalReplayDone, notifyReaders,
      echoIocReset, buildSnapshot] at waits

variable {state after : State} {action : Action}

theorem playing_signalling (shape : Obeys waitRule state) (playing : state.playing) :
    state.signalling .worker := by
  refine commits_then (shape .worker) playing fun head rest hit rule => ?_
  obtain rfl : head = .lockReplayComplete := by simpa [isReplayComplete] using hit
  exact ⟨rfl, rule⟩

theorem proc_of_waits {tid : Tid} (owned : Owned state) (waits : .waitReplayDone ∈ state.code tid) :
    ∃ id, tid = .proc id := by
  have own := owned tid _ waits
  cases tid <;> first | exact ⟨_, rfl⟩ | cases own

/-- A writer waits because it did, or because it has just queued its replay. -/
theorem waits_of_next {tid : Tid} (owned : Owned state) (moved : next state action = some after)
    (waits : after.waits tid) : state.waits tid ∨ after.dev.buffer.replayPending = true := by
  obtain ⟨id, rfl⟩ := proc_of_waits (owned_next owned moved) waits.1
  obtain ⟨waits, queued⟩ := waits
  have other : Tid.proc id ≠ .worker := by simp
  cases moves owned other moved with
  | still other same =>
    simp only [State.code, same] at waits queued
    exact Or.inl ⟨waits, queued⟩
  | call request may code =>
    rw [code] at waits queued
    exact absurd ((entry_of_mayCall may).starts_before_wait waits).2 queued
  | expire timer => cases timer
  | back actor code => simp [code] at waits
  | step env instr rest done code taken left =>
    simp only [settle_code, left] at waits queued
    by_cases queue : instr = .queueWork
    · subst queue
      cases taken
      exact Or.inr rfl
    · exact Or.inl ⟨by simp [code, waits], by simp [code, queued, Ne.symm queue]⟩

theorem signalling_next {tid : Tid} (signalling : state.signalling tid)
    (moved : next state action = some after) :
    after.signalling tid ∨ after.dev.replayFinished = true := by
  rcases (carries_mayReturn (by decide) (by decide)).next signalling moved with still | set
  · exact Or.inl still
  · obtain ⟨-, instr, -, head, hit⟩ := set
    obtain rfl : instr = .setReplayFinished true := by simpa [isSignal] using hit
    obtain ⟨other, env, rest, done, -, -, taken, rfl⟩ := next_instr head moved
    cases taken
    exact Or.inr rfl

/-- Whoever is going to set the flag still is, or has just set it. -/
theorem completing_next (shape : Obeys waitRule state) (completing : state.completing)
    (moved : next state action = some after) :
    after.completing ∨ after.dev.replayFinished = true := by
  have shape' := waitRule_lawful.next shape moved
  rcases completing with pending | ⟨tid, starting⟩ | ⟨tid, signalling⟩
  · rcases pending_next pending moved with still | ⟨-, playing⟩ | cancelled
    · exact Or.inl (Or.inl still)
    · exact Or.inl (Or.inr (Or.inr ⟨_, playing_signalling shape' playing⟩))
    · obtain ⟨tid, env, rest, done, rfl, code, taken, rfl⟩ := next_instr cancelled moved
      have rule := obeys_head (code ▸ shape tid)
      simp only [waitRule, Bool.and_eq_true] at rule
      simp only [exec] at taken
      split at taken <;> cases taken
      exact Or.inl (Or.inr (Or.inr ⟨tid, by simpa [State.signalling] using rule.1⟩))
  · rcases starting_next starting moved with still | queued
    · exact Or.inl (Or.inr (Or.inl ⟨tid, still⟩))
    · exact Or.inl (Or.inl queued)
  · rcases signalling_next signalling moved with still | set
    · exact Or.inl (Or.inr (Or.inr ⟨tid, still⟩))
    · exact Or.inr set

/-- A request that has cleared the flag stays where it is, or is decided. -/
theorem checking_next {tid : Tid} (shape : Obeys startRule state) (checking : state.checking tid)
    (moved : next state action = some after) :
    after.checking tid ∨ after.starting tid ∨
      (∃ env, action = .step tid env) ∧ state.dev.state.mode = .replay := by
  obtain ⟨rest, code, waits⟩ := checking
  rcases stands_next code (by decide) moved with still | ⟨env, rfl⟩
  · exact Or.inl ⟨rest, still, waits⟩
  · right
    by_cases busy : state.dev.state.mode = .replay
    · exact Or.inr ⟨⟨env, rfl⟩, busy⟩
    · left
      obtain ⟨instr, rest', done, code', taken, rfl⟩ := next_step.mp moved
      obtain ⟨rfl, rfl⟩ := List.cons.inj (code'.symm.trans code)
      simp only [exec, busy, ↓reduceIte] at taken
      cases taken
      have rule := obeys_head (code ▸ shape tid)
      simpa [State.starting, startRule] using rule

/-- Only its own stores change the flag. -/
theorem replayFinished_next (moved : next state action = some after) :
    after.dev.replayFinished = state.dev.replayFinished ∨
      state.instr? action = some (.setReplayFinished after.dev.replayFinished) := by
  rcases next_device moved with ⟨tid, env, instr, rest, done, rfl, code, taken, rfl⟩ | frame
  · by_cases store : ∃ value, instr = .setReplayFinished value
    · obtain ⟨value, rfl⟩ := store
      cases taken
      exact Or.inr (instr?_step code)
    · have untouched : Field.replayFinished ∉ instr.writes := by
        cases instr <;> simp_all [Instr.writes]
      exact Or.inl ((exec_frame taken).replayFinished untouched)
  · exact Or.inl (frame.replayFinished (by simp))

/-- The flag is cleared only by a request that then tests the mode. -/
theorem cleared_next (shape : Obeys waitRule state) (set : state.dev.replayFinished = true)
    (moved : next state action = some after) (cleared : after.dev.replayFinished = false) :
    ∃ tid, after.checking tid := by
  rcases replayFinished_next moved with same | store
  · simp [same, set] at cleared
  · rw [cleared] at store
    obtain ⟨tid, env, rest, done, rfl, code, taken, rfl⟩ := next_instr store moved
    cases taken
    have rule := obeys_head (code ▸ shape tid)
    simp only [waitRule, Bool.and_eq_true, beq_iff_eq, decide_eq_true_eq] at rule
    cases rest with
    | nil => simp at rule
    | cons head rest =>
      obtain rfl : head = .lockStartReplay := by simpa using rule.1
      exact ⟨tid, rest, by simp, by simpa using rule.2⟩

theorem wakeUpCarried_next (owned : Owned state) (starts : Obeys startRule state)
    (shape : Obeys waitRule state) (carried : WakeUpCarried state)
    (ok : TurnsAwayWhileCompleting state action) (moved : next state action = some after) :
    WakeUpCarried after := by
  rintro cleared ⟨waiter, waits⟩
  cases flag : state.dev.replayFinished with
  | true => exact Or.inr (cleared_next shape flag moved cleared)
  | false =>
    have completes : state.completing → after.completing := fun completing =>
      (completing_next shape completing moved).resolve_right (by simp [cleared])
    rcases waits_of_next owned moved waits with before | pending
    · rcases carried flag ⟨waiter, before⟩ with completing | ⟨tid, checking⟩
      · exact Or.inl (completes completing)
      · rcases checking_next starts checking moved with still | starting | ⟨⟨env, step⟩, busy⟩
        · exact Or.inr ⟨tid, still⟩
        · exact Or.inl (Or.inr (Or.inl ⟨tid, starting⟩))
        · exact Or.inl (completes (ok tid env step checking busy flag ⟨waiter, before⟩))
    · exact Or.inl (Or.inl pending)

theorem noLostWakeUp_of_carried (shape : Obeys waitRule state) (carried : WakeUpCarried state) :
    NoLostWakeUp state := by
  intro quiet lazy waiter waiting
  by_contra unset
  have worker : state.code .worker = [] := by
    by_contra running
    exact lazy (Or.inr (by simpa [State.idle] using running))
  have resting : ∀ tid, state.code tid = [] ∨ state.awaitsReplay tid = true := by
    intro tid
    by_cases other : tid = .worker
    · exact Or.inl (other ▸ worker)
    · exact quiet tid other
  obtain ⟨rest, code⟩ := awaitsReplay_cons waiting
  have rule := obeys_head (code ▸ shape waiter)
  simp only [waitRule, decide_eq_true_eq] at rule
  have waits : state.waits waiter := ⟨by simp [code], by simp [code, rule.1]⟩
  rcases carried (by simpa using unset) ⟨waiter, waits⟩ with completing | ⟨tid, rest, code, -⟩
  · rcases completing with pending | ⟨tid, starting⟩ | ⟨tid, signalling⟩
    · exact lazy (Or.inl pending)
    · by_cases other : tid = .worker
      · subst other
        simp [State.starting, worker] at starting
      · exact not_starting_of_quiet quiet other starting
    · rcases resting tid with empty | waiting
      · simp [State.signalling, empty] at signalling
      · obtain ⟨rest, code⟩ := awaitsReplay_cons waiting
        simp [State.signalling, code, isSignal, Instr.mayReturn] at signalling
  · rcases resting tid with empty | waiting
    · simp [code] at empty
    · simp [State.awaitsReplay, code] at waiting

variable {servo : EchoServoCtx} {clock : Nat} {actions : List Action}

/-- In every run that turns a `REPLAY` write away only while the flag is going to
be set, no writer sleeps on a flag that nobody is left to set. -/
theorem no_lost_wakeUp
    (run : Run next TurnsAwayWhileCompleting (State.initial servo clock) actions state) :
    NoLostWakeUp state := by
  refine noLostWakeUp_of_carried (waitRule_lawful.of_run run.any) ?_
  refine run.invariant WakeUpCarried ?_ ?_
  · rintro - ⟨tid, waits, -⟩
    simp [State.code, State.initial, Thread.initial] at waits
  · intro earlier before action after ran carried ok moved
    exact wakeUpCarried_next (owned_of_run ran.any) (startRule_lawful.of_run ran.any)
      (waitRule_lawful.of_run ran.any) carried ok moved

/-- Process 1 waits for an empty recording to be replayed. -/
def replayedWrite : List Action :=
  [.call (.proc 1) (writeCmd echoCmdReplay)] ++ steps (.proc 1) 6 ++
  [.startWork] ++ steps .worker 7

theorem no_lost_wakeUp_replayedWrite :
    ∃ state, run next (State.initial simServo 0) replayedWrite = some state ∧
      state.awaitsReplay (.proc 1) = true ∧ NoLostWakeUp state := by
  obtain ⟨state, ran, waiting⟩ := exists_run next
    (fun state action =>
      state.instr? action != some .lockStartReplay || state.dev.state.mode != .replay)
    (State.initial simServo 0) replayedWrite
    (fun state => state.awaitsReplay (.proc 1)) (by decide)
  have accepted := ran.mono TurnsAwayWhileCompleting
    fun state action passed tid env step checking busy => by
      obtain ⟨rest, code, -⟩ := checking
      subst step
      simp [instr?_step code, busy] at passed
  exact ⟨state, ran.execution, waiting, no_lost_wakeUp accepted⟩

/-- The stop of process 0 takes the item of process 1, which then waits for the
stop's signal; process 2 clears it and is turned away. -/
def rejectedWriteErases : List Action :=
  [.call (.proc 0) (writeCmd echoCmdStop)] ++ steps (.proc 0) 2 ++
  [.call (.proc 1) (writeCmd echoCmdReplay)] ++ steps (.proc 1) 6 ++
  steps (.proc 0) 8 ++
  [.call (.proc 2) (writeCmd echoCmdReplay)] ++ steps (.proc 2) 2

theorem rejectedWriteErases_loses :
    ∃ state, run next (State.initial simServo 0) rejectedWriteErases = some state ∧
      (state.thread (.proc 2)).result = some (-EBUSY) ∧ ¬ NoLostWakeUp state := by
  obtain ⟨state, ran, facts⟩ := exists_run next
    (movesOnly [.proc 0, .proc 1, .proc 2]) (State.initial simServo 0) rejectedWriteErases
    (fun state => state.idle (.proc 0) && state.awaitsReplay (.proc 1) &&
      state.idle (.proc 2) && state.idle .worker && !state.dev.buffer.replayPending &&
      !state.dev.replayFinished && ((state.thread (.proc 2)).result == some (-EBUSY))) (by decide)
  simp only [Bool.and_eq_true, beq_iff_eq, Bool.not_eq_true', State.idle,
    List.isEmpty_iff] at facts
  obtain ⟨⟨⟨⟨⟨⟨stopped, waiting⟩, rejected⟩, worker⟩, pending⟩, unset⟩, result⟩ := facts
  refine ⟨state, ran.execution, result, fun never => ?_⟩
  have quiet : state.quiet := by
    intro tid other
    by_cases listed : tid ∈ [Tid.proc 0, Tid.proc 1, Tid.proc 2]
    · simp only [List.mem_cons, List.not_mem_nil, or_false] at listed
      rcases listed with rfl | rfl | rfl
      · exact Or.inl stopped
      · exact Or.inr waiting
      · exact Or.inl rejected
    · exact Or.inl (code_of_run [.proc 0, .proc 1, .proc 2] ran (fun _ _ moves => moves) listed)
  have lazy : ¬ state.workBusy := by
    rintro (busy | busy)
    · simp [pending] at busy
    · simp [State.idle, worker] at busy
  have set := never quiet lazy (.proc 1) waiting
  simp [unset] at set

end EchoRobot
