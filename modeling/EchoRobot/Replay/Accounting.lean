import EchoRobot.Replay.Start

/-! What becomes of the replays that were started. Each has been counted by a run of the
worker, or is on its way to one, or is missing one for a reason that the book names. -/

namespace EchoRobot

open Interleaving

/-- Sections that stored `REPLAY`, calls of `queue_work` and runs of the worker.
`starting` are the threads between the first two. An item that is queued while it is
pending is `merged`, a run without memory for its snapshot `dropped`. -/
structure ReplayBook where
  starting : List Tid
  starts : Nat
  queued : Nat
  merged : Nat
  cancelled : Nat
  runs : Nat
  dropped : Nat

def ReplayBook.empty : ReplayBook := ⟨[], 0, 0, 0, 0, 0, 0⟩

def ReplayBook.start (book : ReplayBook) (tid : Tid) : ReplayBook :=
  { book with starting := tid :: book.starting, starts := book.starts + 1 }

/-- One step of a thread, on its way through `instr`. -/
def ReplayBook.enter (book : ReplayBook) (dev : EchoDevice) (tid : Tid) (env : Env) :
    Instr → ReplayBook
  | .lockStartReplay => if dev.state.mode = .replay then book else book.start tid
  | .lockInactivity => if dev.state.mode = .teach then book.start tid else book
  | .queueWork =>
    { book with
      starting := book.starting.erase tid
      queued := book.queued + 1
      merged := book.merged + dev.buffer.replayPending.toNat }
  | .cancelWorkSync => { book with cancelled := book.cancelled + dev.buffer.replayPending.toNat }
  | .snapshot => { book with dropped := book.dropped + (!env.allocated).toNat }
  | _ => book

def ReplayBook.record (book : ReplayBook) (state : State) (action : Action) (_ : State) :
    ReplayBook :=
  match action with
  | .step tid env =>
    match state.code tid with
    | [] => book
    | instr :: _ => book.enter state.dev tid env instr
  | .startWork => { book with runs := book.runs + 1 }
  | _ => book

/-- The worker has begun a run that it has not counted. -/
def uncounted : Code → Nat
  | .snapshot :: _ | .incReplayCount :: _ => 1
  | _ => 0

/-- Every start is accounted for. -/
structure Accounted (pair : State × ReplayBook) : Prop where
  starting : ∀ tid, tid ∈ pair.2.starting ↔ pair.1.starting tid
  once : pair.2.starting.Nodup
  total : pair.2.starts =
    pair.1.dev.buffer.replayCount + uncounted (pair.1.code .worker) + pair.2.dropped +
      pair.2.cancelled + pair.2.merged + pair.1.dev.buffer.replayPending.toNat +
      pair.2.starting.length

/-- A thread queues its work once. -/
def queueRule : Instr → Code → Bool
  | .queueWork, rest => decide (.queueWork ∉ rest)
  | _, _ => true

theorem queueRule_lawful : CodeRule queueRule where
  entry tid code entry := by
    cases entry with
    | read id nonblock count => cases nonblock <;> rfl
    | input id pin => cases pin <;> rfl
    | _ => rfl
  timer := by decide
  worker := by decide
  stop := by decide
  unroll moves rest shape := by
    refine obeys_replayLoop (fun instr before own loop => ?_) (obeys_tail shape)
    cases instr <;> first | rfl | cases own

/-- The worker counts its run first. -/
theorem WorkerCode.counted_first {instr : Instr} {rest : Code}
    (shape : WorkerCode (instr :: rest)) : .incReplayCount ∉ rest := by
  generalize whole : instr :: rest = code at shape
  cases shape with
  | tail suffix =>
    subst whole
    exact fun ahead => absurd (suffix.subset (List.mem_cons_of_mem instr ahead)) (by decide)
  | loop moves left suffix =>
    cases left with
    | nil =>
      intro ahead
      have inside : Instr.incReplayCount ∈ bufOpReplayDone := by
        rw [List.nil_append] at whole
        exact whole ▸ List.mem_cons_of_mem instr ahead
      exact absurd inside (by decide)
    | cons head left =>
      have inside : left <:+ moves.flatMap replayMove := by
        rcases List.suffix_cons_iff.mp suffix with same | later
        · exact (List.cons.inj same).2 ▸ List.suffix_rfl
        · exact (List.suffix_cons _ left).trans later
      have outside : Instr.incReplayCount ∉ left ++ bufOpReplayDone := by
        rw [List.mem_append]
        rintro (loop | later)
        · obtain ⟨move, -, own⟩ := List.mem_flatMap.mp (inside.subset loop)
          simp [replayMove, notifyReaders] at own
        · exact absurd later (by decide)
      rwa [(List.cons.inj whole).2]

/-- Past its first two steps a run of the worker is counted. -/
theorem uncounted_rest {instr : Instr} {rest : Code} (shape : WorkerCode (instr :: rest)) :
    uncounted rest = 0 := by
  have first := shape.snapshot_first
  have counted := shape.counted_first
  cases rest with
  | nil => rfl
  | cons head rest =>
    cases head with
    | snapshot => exact absurd List.mem_cons_self first
    | incReplayCount => exact absurd List.mem_cons_self counted
    | _ => rfl

section Step
variable {state after : State} {action : Action} {book : ReplayBook} {tid : Tid} {env : Env}
variable {instr : Instr} {rest : Code} {done : EchoDevice × Thread}

theorem record_step (code : state.code tid = instr :: rest) :
    book.record state (.step tid env) after = book.enter state.dev tid env instr := by
  simp only [ReplayBook.record, code]

/-- The book lists the threads that have a start under way. -/
structure Listed (book : ReplayBook) (state : State) : Prop where
  starting : ∀ tid, tid ∈ book.starting ↔ state.starting tid
  once : book.starting.Nodup

theorem starting_settle {other : Tid} (ne : other ≠ tid) :
    (state.settle tid done.1 done.2).starting other ↔ state.starting other := by
  rw [State.starting, State.starting, settle_code_of_ne _ _ _ _ _ ne]

theorem listed_queueWork (listed : Listed book state) (shape : Obeys queueRule state)
    (code : state.code tid = .queueWork :: rest)
    (taken : exec state tid env .queueWork rest = some done) :
    Listed (book.enter state.dev tid env .queueWork) (state.settle tid done.1 done.2) := by
  have once : .queueWork ∉ rest := of_decide_eq_true (obeys_head (code ▸ shape tid))
  refine ⟨fun other => ?_, listed.once.erase tid⟩
  rw [ReplayBook.enter, listed.once.mem_erase_iff, listed.starting]
  by_cases same : other = tid
  · subst same
    cases taken
    have queued : ¬ commits Instr.mayLeave isQueueWork rest = true := fun committed =>
      once (queueWork_of_commits committed)
    simpa [State.starting] using queued
  · rw [starting_settle same]
    exact and_iff_right same

theorem listed_start (listed : Listed book state) (shape : Obeys startRule state)
    (code : state.code tid = instr :: rest) (lock : StartsReplay state instr)
    (taken : exec state tid env instr rest = some done) :
    Listed (book.enter state.dev tid env instr) (state.settle tid done.1 done.2) := by
  have rule := obeys_head (code ▸ shape tid)
  have entered : book.enter state.dev tid env instr = book.start tid := by
    rcases lock with ⟨rfl, other⟩ | ⟨rfl, teach⟩
    · exact if_neg other
    · exact if_pos teach
  have before : ¬ state.starting tid := by
    rcases lock with ⟨rfl, -⟩ | ⟨rfl, -⟩ <;>
      simp [State.starting, code, isQueueWork, Instr.mayLeave, Instr.mayReturn]
  have now : (state.settle tid done.1 done.2).starting tid := by
    rw [State.starting, settle_code]
    rcases lock with ⟨rfl, other⟩ | ⟨rfl, teach⟩
    · simp only [exec, other, ↓reduceIte] at taken
      cases taken
      exact rule
    · simp only [exec, teach, ↓reduceIte] at taken
      cases taken
      exact rule
  rw [entered]
  refine ⟨fun other => ?_, List.nodup_cons.mpr ⟨fun member => ?_, listed.once⟩⟩
  · by_cases same : other = tid
    · subst same
      simpa [ReplayBook.start] using now
    · rw [starting_settle same, ← listed.starting]
      simp [ReplayBook.start, same]
  · exact before ((listed.starting tid).mp member)

/-- Other steps neither begin a start nor end one. -/
theorem listed_other (listed : Listed book state) (owned : Owned state)
    (shape : Obeys startRule state) (moved : next state action = some after)
    (queues : state.instr? action ≠ some .queueWork)
    (starts : ∀ instr, state.instr? action = some instr → ¬ StartsReplay state instr)
    (same : (book.record state action after).starting = book.starting) :
    Listed (book.record state action after) after := by
  refine ⟨fun tid => ?_, same ▸ listed.once⟩
  rw [same, listed.starting]
  constructor
  · exact fun before => starting_keeps before queues moved
  · intro now
    rcases starting_of_next owned shape moved now with before | ⟨instr, head, lock⟩
    · exact before
    · exact absurd lock (starts instr head)

theorem listed_next (listed : Listed book state) (owned : Owned state)
    (shape : Obeys startRule state) (once : Obeys queueRule state)
    (moved : next state action = some after) : Listed (book.record state action after) after := by
  cases action with
  | step tid env =>
    obtain ⟨instr, rest, done, code, taken, rfl⟩ := next_step.mp moved
    by_cases lock : StartsReplay state instr
    · rw [record_step code]
      exact listed_start listed shape code lock taken
    by_cases queues : instr = .queueWork
    · subst queues
      rw [record_step code]
      exact listed_queueWork listed once code taken
    · refine listed_other listed owned shape moved
        (by simpa [State.instr?, code] using queues) ?_ ?_
      · simpa [State.instr?, code] using lock
      · rw [record_step code]
        cases instr with
        | lockStartReplay =>
          have busy : state.dev.state.mode = .replay := by simpa [StartsReplay] using lock
          simp [ReplayBook.enter, busy]
        | lockInactivity =>
          have other : state.dev.state.mode ≠ .teach := by simpa [StartsReplay] using lock
          simp [ReplayBook.enter, other]
        | queueWork => exact absurd rfl queues
        | _ => rfl
  | _ =>
    exact listed_other listed owned shape moved (by simp [State.instr?])
      (by simp [State.instr?]) rfl

/-- The book in balance: what was queued, and what has become of it. -/
structure Balances (book : ReplayBook) (state : State) : Prop where
  starts : book.starts = book.queued + book.starting.length
  queued : book.queued =
    book.merged + book.cancelled + book.runs + state.dev.buffer.replayPending.toNat
  runs : book.runs =
    state.dev.buffer.replayCount + book.dropped + uncounted (state.code .worker)

theorem starts_step (listed : Listed book state) (starts : book.starts = book.queued +
    book.starting.length) (code : state.code tid = instr :: rest) :
    (book.enter state.dev tid env instr).starts =
      (book.enter state.dev tid env instr).queued +
        (book.enter state.dev tid env instr).starting.length := by
  cases instr with
  | queueWork =>
    have member : tid ∈ book.starting :=
      (listed.starting tid).mpr (by simp [State.starting, code, isQueueWork])
    have shorter := List.length_erase_of_mem member
    have positive := List.length_pos_of_mem member
    simp only [ReplayBook.enter]
    omega
  | lockStartReplay | lockInactivity =>
    simp only [ReplayBook.enter, ReplayBook.start]
    split
    all_goals first | exact starts | (simp only [List.length_cons]; omega)
  | _ => exact starts

theorem queued_step (queued : book.queued =
      book.merged + book.cancelled + book.runs + state.dev.buffer.replayPending.toNat)
    (taken : exec state tid env instr rest = some done) :
    (book.enter state.dev tid env instr).queued =
      (book.enter state.dev tid env instr).merged + (book.enter state.dev tid env instr).cancelled +
        (book.enter state.dev tid env instr).runs + done.1.buffer.replayPending.toNat := by
  cases instr with
  | queueWork =>
    cases taken
    simp only [ReplayBook.enter, Bool.toNat_true]
    omega
  | cancelWorkSync =>
    simp only [exec] at taken
    split at taken <;> cases taken
    simp only [ReplayBook.enter, Bool.toNat_false]
    omega
  | lockStartReplay | lockInactivity =>
    have same := (exec_frame taken).pending (by simp [Instr.writes])
    rw [same]
    simp only [ReplayBook.enter, ReplayBook.start]
    split <;> exact queued
  | _ =>
    have same := (exec_frame taken).pending (by simp [Instr.writes])
    rw [same]
    exact queued

/-- A step of the worker counts the run, drops it or is past both. -/
theorem runs_worker (shape : WorkerCode (state.code .worker)) (own : instr.ofWorker = true)
    (runs : book.runs =
      state.dev.buffer.replayCount + book.dropped + uncounted (state.code .worker))
    (code : state.code .worker = instr :: rest)
    (taken : exec state .worker env instr rest = some done) :
    (book.enter state.dev .worker env instr).runs = done.1.buffer.replayCount +
      (book.enter state.dev .worker env instr).dropped + uncounted done.2.code := by
  rw [code] at shape runs
  have past := uncounted_rest shape
  cases instr with
  | snapshot =>
    simp only [exec] at taken
    split at taken <;> cases taken
    · rename_i allocated
      simpa [ReplayBook.enter, allocated, uncounted, replayLoop] using runs
    · rename_i failed
      simp only [uncounted] at runs
      simp only [ReplayBook.enter, failed, past, Bool.not_false, Bool.toNat_true]
      omega
  | incReplayCount =>
    cases taken
    simp only [uncounted] at runs
    simp only [ReplayBook.enter, past]
    omega
  | shouldStop =>
    simp only [exec] at taken
    split at taken <;> cases taken
    · exact runs.trans (congrArg _ past.symm)
    · exact runs
  | _ =>
    first
      | (cases taken; exact runs.trans (congrArg _ past.symm))
      | cases own

theorem balances_step (balances : Balances book state) (listed : Listed book state)
    (owned : Owned state) (shape : WorkerCode (state.code .worker))
    (code : state.code tid = instr :: rest) (taken : exec state tid env instr rest = some done) :
    Balances (book.enter state.dev tid env instr) (state.settle tid done.1 done.2) := by
  have own := owned tid instr (by simp [code])
  refine ⟨starts_step listed balances.starts code, queued_step balances.queued taken, ?_⟩
  by_cases worker : tid = .worker
  · subst worker
    rw [settle_code]
    exact runs_worker shape own balances.runs code taken
  · rw [settle_dev, settle_code_of_ne _ _ _ _ _ (Ne.symm worker)]
    have foreign : instr ≠ .incReplayCount ∧ instr ≠ .snapshot := by
      constructor <;> rintro rfl <;> cases tid <;> first | exact absurd rfl worker | cases own
    have same := (exec_frame taken).replayCount (by cases instr <;> simp_all [Instr.writes])
    rw [same]
    cases instr with
    | snapshot => exact absurd rfl foreign.2
    | lockStartReplay | lockInactivity =>
      simp only [ReplayBook.enter, ReplayBook.start]
      split <;> exact balances.runs
    | _ => exact balances.runs

theorem balances_next (balances : Balances book state) (listed : Listed book state)
    (owned : Owned state) (shape : WorkerCode (state.code .worker))
    (moved : next state action = some after) : Balances (book.record state action after) after := by
  cases action with
  | step tid env =>
    obtain ⟨instr, rest, done, code, taken, rfl⟩ := next_step.mp moved
    rw [record_step code]
    exact balances_step balances listed owned shape code taken
  | startWork =>
    obtain ⟨⟨pending, idle⟩, rfl⟩ := next_startWork.mp moved
    obtain ⟨starts, queued, runs⟩ := balances
    rw [pending, Bool.toNat_true] at queued
    rw [idle] at runs
    refine ⟨starts, ?_, ?_⟩
    · simp only [ReplayBook.record, settle_dev, Bool.toNat_false]
      omega
    · simp only [ReplayBook.record, settle_code, settle_dev, Thread.code_begin]
      exact congrArg (· + 1) runs
  | expire =>
    obtain ⟨-, rfl⟩ := next_expire.mp moved
    refine ⟨balances.starts, balances.queued, ?_⟩
    rw [settle_code_of_ne _ _ _ _ _ (by simp)]
    exact balances.runs
  | tick ns =>
    obtain rfl := next_tick.mp moved
    exact ⟨balances.starts, balances.queued, balances.runs⟩
  | call tid request =>
    obtain ⟨⟨may, -⟩, rfl⟩ := next_call.mp moved
    refine ⟨balances.starts, balances.queued, ?_⟩
    rw [settle_code_of_ne _ _ _ _ _ (by rintro rfl; cases may)]
    exact balances.runs
  | signal tid =>
    obtain ⟨asleep, rfl⟩ := next_signal.mp moved
    refine ⟨balances.starts, balances.queued, ?_⟩
    have awake : Tid.worker ≠ tid := by
      rintro rfl
      rcases asleep_cases asleep with ⟨rest, code, -⟩ | ⟨rest, code, -⟩
      · exact absurd (owned .worker .waitReplayDone (by simp [code])) (by decide)
      · exact absurd (owned .worker .waitNewData (by simp [code])) (by decide)
    rw [settle_code_of_ne _ _ _ _ _ awake]
    exact balances.runs

end Step

variable {servo : EchoServoCtx} {clock : Nat} {actions : List Action}
variable {pair : State × ReplayBook}

theorem books_of_run
    (run : Run (withHistory next ReplayBook.record) anyStep
      (State.initial servo clock, .empty) actions pair) :
    Listed pair.2 pair.1 ∧ Balances pair.2 pair.1 := by
  refine run.invariant (fun pair => Listed pair.2 pair.1 ∧ Balances pair.2 pair.1) ?_ ?_
  · refine ⟨⟨fun tid => ?_, List.nodup_nil⟩, rfl, rfl, rfl⟩
    simp [ReplayBook.empty, State.starting, State.code, State.initial, Thread.initial]
  · rintro earlier ⟨before, book⟩ action after ran ⟨listed, balances⟩ - both
    obtain ⟨state, moved, rfl⟩ := withHistory_next both
    have reached := ran.forget.any
    have owned := owned_of_run reached
    exact ⟨listed_next listed owned (startRule_lawful.of_run reached)
        (queueRule_lawful.of_run reached) moved,
      balances_next balances listed owned (workerCode_of_run reached) moved⟩

/-- In every run each start of a replay is accounted for exactly once. -/
theorem replays_accounted
    (run : Run (withHistory next ReplayBook.record) anyStep
      (State.initial servo clock, .empty) actions pair) : Accounted pair := by
  obtain ⟨listed, starts, queued, runs⟩ := books_of_run run
  refine ⟨listed.starting, listed.once, ?_⟩
  omega

/-- A replay is started while the item of the one before is pending, and played once. -/
def startsTwice : List Action :=
  [.call (.proc 0) (.ioctl (.setMode (some 2)))] ++ steps (.proc 0) 6 ++
  [.call (.proc 1) (writeCmd echoCmdTeach)] ++ steps (.proc 1) 9 ++
  [.call (.proc 0) (.ioctl (.setMode (some 2)))] ++ steps (.proc 0) 6 ++
  [.startWork] ++ steps .worker 7

theorem replays_accounted_startsTwice :
    ∃ pair, Run (withHistory next ReplayBook.record) anyStep
        (State.initial simServo 0, .empty) startsTwice pair ∧
      pair.2.starts = 2 ∧ pair.1.dev.buffer.replayCount = 1 ∧ pair.2.merged = 1 := by
  obtain ⟨pair, ran, facts⟩ := exists_run (withHistory next ReplayBook.record) (fun _ _ => true)
    (State.initial simServo 0, .empty) startsTwice
    (fun pair => decide (pair.2.merged = 1 ∧ pair.2.dropped = 0 ∧ pair.2.cancelled = 0 ∧
      pair.2.starting = [] ∧ pair.1.dev.buffer.replayPending = false ∧
      pair.1.dev.buffer.replayCount = 1 ∧ uncounted (pair.1.code .worker) = 0)) (by decide)
  have reading : Run _ anyStep _ _ pair := .ofExecution ran.execution fun _ _ _ => trivial
  have total := (replays_accounted reading).total
  obtain ⟨merged, dropped, cancelled, starting, pending, count, past⟩ := of_decide_eq_true facts
  rw [count, past, dropped, cancelled, merged, pending, starting] at total
  exact ⟨pair, reading, total, count, merged⟩

end EchoRobot
