import EchoRobot.Replay.Items

/-! A blocking `REPLAY` write that a signal interrupts and that is made again. What the
second call comes to is settled when it takes `mode_lock`. -/

namespace EchoRobot

open Interleaving

/-- The call is made, a signal ends its sleep, and it is made again. -/
def madeAgain (id : Nat) (request : Request) (first between again : List Action) : List Action :=
  [.call (.proc id) request] ++ first ++ [.signal (.proc id)] ++ between ++
    [.call (.proc id) request] ++ again

/-- What the call comes to, with nobody else in the driver. In `mid` the second call is
about to take `mode_lock`. -/
def Restarted (id : Nat) (request : Request) (state : State) (mid final : State × Replays) :
    Prop :=
  ∃ (first between early again : List Action) (env : Env),
    (∀ action ∈ first ++ between ++ early ++ again, action.beside id = true) ∧
    run (nextReplays id) (state, Replays.initial) (madeAgain id request first between early) =
      some mid ∧
    mid.1.instr? (.step (.proc id) env) = some .lockStartReplay ∧
    run (nextReplays id) mid (.step (.proc id) env :: again) = some final

/-- The writer has been told that its write succeeded, and the recording has been played
once. -/
def PlayedOnce (id count : Nat) (final : State × Replays) : Prop :=
  (final.1.thread (.proc id)).result = some (count : Int) ∧ final.2.plays = 1

/-- After `mid` an item is played: the one whose run has its snapshot already, or the one
whose run is the next to ask for memory, and gets it. Not so if the worker has the
completion of another run before it. -/
def PlaysAgain (mid final : State × Replays) : Prop :=
  (mid.1.playing → mid.2.turn ≠ .none) ∧
    (mid.2.turn = .playing ∨ final.2.memory[mid.2.memory.length]? = some true)

/-- Past its mode check the second write gets to its end. -/
structure Accepted (id count : Nat) (pair : State × Replays) : Prop where
  accounts : Accounts id count pair
  queued : 0 < pair.2.queued
  lock : .lockStartReplay ∉ pair.1.code (.proc id)
  queues : pair.2.queued = 1 ∧ pair.1.starting (.proc id) ∨
    pair.2.queued = 2 ∧ .queueWork ∉ pair.1.code (.proc id)

/-- Whether an item is played after the second start, from which on `plays` have been and
`asked` answers have been given: not known before the next answer, then under way, and
settled when the mode is no longer `REPLAY`. -/
inductive Fate (plays asked id : Nat) (pair : State × Replays) : Option Bool → Prop where
  | unasked (mode : pair.1.dev.state.mode = .replay) (same : pair.2.plays = plays)
      (answers : pair.2.memory.length = asked)
      (turn : pair.2.turn = .started ∨ pair.2.turn = .none ∧ ¬ pair.1.playing ∧
        (pair.1.starting (.proc id) ∨ pair.1.dev.buffer.replayPending = true)) :
      Fate plays asked id pair none
  | playing (mode : pair.1.dev.state.mode = .replay) (same : pair.2.plays = plays)
      (turn : pair.2.turn = .playing) : Fate plays asked id pair (some true)
  | missed (mode : pair.1.dev.state.mode = .replay) (same : pair.2.plays = plays)
      (turn : pair.2.turn = .none) (runs : pair.1.playing) : Fate plays asked id pair (some false)
  | finished (played : Bool) (mode : pair.1.dev.state.mode ≠ .replay)
      (total : pair.2.plays = plays + played.toNat) : Fate plays asked id pair (some played)

/-- What is known of it when the second call takes `mode_lock`. -/
inductive Known (mid : State × Replays) : Option Bool → Prop where
  | playing (turn : mid.2.turn = .playing) : Known mid (some true)
  | busy (turn : mid.2.turn = .none) (runs : mid.1.playing) : Known mid (some false)
  | unasked (turn : mid.2.turn = .started ∨ mid.2.turn = .none ∧ ¬ mid.1.playing) : Known mid none

theorem exists_known (mid : State × Replays) : ∃ answer, Known mid answer := by
  cases turn : mid.2.turn with
  | none =>
    by_cases runs : mid.1.playing
    · exact ⟨_, .busy turn runs⟩
    · exact ⟨_, .unasked (Or.inr ⟨turn, runs⟩)⟩
  | started => exact ⟨_, .unasked (Or.inl turn)⟩
  | playing => exact ⟨_, .playing turn⟩

/-- An item is played as it was known, or as the next answer has it. -/
theorem Known.playsAgain {mid final : State × Replays} {answer : Option Bool} {played : Bool}
    (known : Known mid answer) (origin : some played = answer ∨
      answer = none ∧ final.2.memory[mid.2.memory.length]? = some played) :
    played = true ↔ PlaysAgain mid final := by
  unfold PlaysAgain
  cases known with
  | playing turn => simp_all
  | busy turn runs => simp_all
  | unasked turn =>
    obtain ⟨-, answered⟩ := origin.resolve_left (by simp)
    rw [answered]
    rcases turn with started | ⟨rests, gone⟩
    · simp [started]
    · simp [rests, gone]

section Ghost
variable (replays : Replays) (state after : State) (id : Nat) {action : Action} {env : Env}
variable {instr : Instr}

/-- Only the worker takes an item on. -/
theorem Replays.update_aside (aside : action.actor ≠ some .worker) :
    (replays.update id state action after).plays = replays.plays ∧
      (replays.update id state action after).turn = replays.turn ∧
      (replays.update id state action after).memory = replays.memory := by
  unfold Replays.update
  split
  · exact absurd rfl aside
  · split <;> exact ⟨rfl, rfl, rfl⟩
  · exact absurd rfl aside
  · exact ⟨rfl, rfl, rfl⟩

/-- Items are queued, never taken back. -/
theorem Replays.update_grows : replays.queued ≤ (replays.update id state action after).queued := by
  unfold Replays.update
  split
  · exact (work_counts ..).1.ge
  · split
    · exact Nat.le_succ _
    · exact Nat.le_refl _
  · split <;> exact Nat.le_refl _
  · exact Nat.le_refl _

theorem work_memory : replays.memory <+: (replays.work state env instr).memory := by
  unfold Replays.work
  split
  · split <;> exact List.prefix_append _ _
  · exact List.prefix_append _ _
  · split <;> exact List.prefix_rfl
  · split <;> exact List.prefix_rfl
  · exact List.prefix_rfl

theorem Replays.update_memory :
    replays.memory <+: (replays.update id state action after).memory := by
  by_cases aside : action.actor = some .worker
  · unfold Replays.update
    split
    · exact work_memory ..
    · split <;> exact List.prefix_rfl
    · split <;> exact List.prefix_rfl
    · exact List.prefix_rfl
  · rw [(update_aside replays state after id aside).2.2]

/-- An answer that has been given stays. -/
theorem Replays.update_answered {asked : Nat} {answer : Bool}
    (answered : replays.memory[asked]? = some answer) :
    (replays.update id state action after).memory[asked]? = some answer := by
  obtain ⟨more, same⟩ := Replays.update_memory replays state after id
  obtain ⟨inside, -⟩ := List.getElem?_eq_some_iff.mp answered
  rw [← same, List.getElem?_append_left inside, answered]

/-- A run plays only when it completes in mode `REPLAY`. -/
theorem work_plays (other : state.dev.state.mode ≠ .replay) :
    (replays.work state env instr).plays = replays.plays := by
  unfold Replays.work
  split
  · split <;> rfl
  · rfl
  · rw [if_neg other]
    rfl
  · rw [if_neg other]
    rfl
  · rfl

/-- Short of its completion a run that is played stays so in mode `REPLAY`. -/
theorem work_keeps (turn : replays.turn = .playing) (mode : state.dev.state.mode = .replay)
    (short : instr ≠ .lockReplayComplete) :
    (replays.work state env instr).turn = .playing ∧
      (replays.work state env instr).plays = replays.plays := by
  unfold Replays.work
  split
  · simp_all
  · exact ⟨turn, rfl⟩
  · rw [if_pos mode]
    exact ⟨turn, rfl⟩
  · exact absurd rfl short
  · exact ⟨turn, rfl⟩

end Ghost

section Step
variable {id count plays asked : Nat} {request : Request} {state reached : State}
variable {replays : Replays} {action : Action} {answer : Option Bool} {env : Env}

/-- Only a completion of the worker changes the mode. -/
theorem Accepted.mode (accepted : Accepted id count (state, replays))
    (beside : action.beside id = true) (moved : next state action = some reached) :
    reached.dev.state.mode = state.dev.state.mode ∨
      (∃ env, action = .step .worker env) ∧ state.instr? action = some .lockReplayComplete ∧
        reached.dev.state.mode = .idle := by
  rcases next_device moved with ⟨tid, env, instr, rest, done, rfl, code, taken, rfl⟩ | frame
  · have own := accepted.accounts.owned tid instr (by simp [code])
    simp only [Action.beside, Bool.or_eq_true, beq_iff_eq] at beside
    rcases beside with (rfl | rfl) | rfl
    · have member : instr ∈ replayCode count := accepted.accounts.own.subset (by simp [code])
      have past : instr ≠ .lockStartReplay := by
        rintro rfl
        exact accepted.lock (by simp [code])
      have untouched : Field.mode ∉ instr.writes := by
        simp only [replayCode, replayWait, notifyReaders, List.cons_append, List.nil_append,
          List.mem_cons, List.not_mem_nil, or_false] at member
        rcases member with rfl | rfl | rfl | rfl | rfl | rfl | rfl | rfl
        all_goals first | exact absurd rfl past | simp [Instr.writes]
      exact Or.inl ((exec_frame taken).mode untouched)
    · have idle := (accepted.accounts.timer (Or.inl accepted.queued)).2
      simp [code] at idle
    · cases exec_mode taken with
      | keep same => exact Or.inl same
      | enter lock => subst lock; cases own
      | start lock => rcases lock with ⟨rfl, -⟩ | ⟨rfl, -⟩ <;> cases own
      | set mode lock => subst lock; cases own
      | complete lock mode => exact Or.inr ⟨⟨env, rfl⟩, by rw [instr?_step code, lock], mode⟩
  · exact Or.inl (frame.mode (by simp))

/-- The second item is queued once. -/
theorem queues_next (accepted : Accepted id count (state, replays))
    (beside : action.beside id = true) (moved : next state action = some reached) :
    (replays.update id state action reached).queued = 1 ∧ reached.starting (.proc id) ∨
      (replays.update id state action reached).queued = 2 ∧
        .queueWork ∉ reached.code (.proc id) := by
  by_cases queues : ∃ env, action = .step (.proc id) env ∧ state.instr? action = some .queueWork
  · obtain ⟨env, rfl, head⟩ := queues
    obtain ⟨instr, rest, done, code, taken, rfl⟩ := next_step.mp moved
    obtain rfl : instr = .queueWork := by simpa [State.instr?, code] using head
    have rule := obeys_head (code ▸ accepted.accounts.waits (.proc id))
    simp only [waitRule, decide_eq_true_eq] at rule
    rw [Replays.update_caller head, if_pos rfl]
    rcases accepted.queues with ⟨once, -⟩ | ⟨-, past⟩
    · cases taken
      exact Or.inr ⟨congrArg (· + 1) once, by simpa using rule.1⟩
    · simp [code] at past
  · have same : (replays.update id state action reached).queued = replays.queued :=
      Replays.update_queued fun env same head => queues ⟨env, same, head⟩
    rw [same]
    refine accepted.queues.imp (And.imp_right fun starting => ?_) (And.imp_right fun past => ?_)
    · rcases (carries_mayLeave (by decide)).next starting moved with still | hit
      · exact still
      · obtain ⟨env, instr, rfl, head, hit⟩ := hit
        obtain rfl : instr = .queueWork := by simpa [isQueueWork] using hit
        exact absurd ⟨env, rfl, head⟩ queues
    · intro ahead
      rcases ahead_next moved ahead with before | enters
      · exact past before
      · cases enters with
        | request => cases beside
        | worker member => exact absurd member (by decide)
        | loop env rest code member =>
          exact absurd (accepted.accounts.own.subset (by rw [code]; exact List.mem_cons_self))
            (by simp [replayCode, replayWait, notifyReaders])

theorem accepted_next (may : (Tid.proc id).mayCall request = true)
    (replay : request.code = replayCode count) (accepted : Accepted id count (state, replays))
    (beside : action.beside id = true) (moved : next state action = some reached) :
    Accepted id count (reached, replays.update id state action reached) := by
  have accounts := accepted.accounts
  refine ⟨accounts_next may replay accounts (Or.inl beside) (withHistory_of_next moved),
    Nat.lt_of_lt_of_le accepted.queued (Replays.update_grows replays state reached id), ?_,
    queues_next accepted beside moved⟩
  cases moves accounts.owned (by simp : Tid.proc id ≠ .worker) moved with
  | still _ same => simpa [State.code, same] using accepted.lock
  | call => cases beside
  | expire timer => cases timer
  | back actor code => simp [code]
  | step env instr rest done code taken left =>
    rw [settle_code, left]
    exact fun ahead => accepted.lock (by simp [code, ahead])

/-- The item stays ahead of the worker until it is picked up. -/
theorem item_aside (accepted : Accepted id count (state, replays))
    (beside : action.beside id = true) (aside : action.actor ≠ some .worker)
    (moved : next state action = some reached)
    (item : state.starting (.proc id) ∨ state.dev.buffer.replayPending = true) :
    reached.starting (.proc id) ∨ reached.dev.buffer.replayPending = true := by
  rcases item with starting | pending
  · exact starting_next starting moved
  · right
    rcases pending_next pending moved with still | ⟨rfl, -⟩ | cancelled
    · exact still
    · exact absurd rfl aside
    · rcases executes_beside accepted.accounts.owned (Or.inl beside) cancelled with
        own | timer | worker
      · exact absurd (accepted.accounts.own.subset own)
          (by simp [replayCode, replayWait, notifyReaders])
      · cases timer
      · cases worker

/-- What the writer and the timer do decides nothing. -/
theorem fate_aside (accepted : Accepted id count (state, replays))
    (fate : Fate plays asked id (state, replays) answer) (beside : action.beside id = true)
    (aside : action.actor ≠ some .worker) (moved : next state action = some reached) :
    Fate plays asked id (reached, replays.update id state action reached) answer := by
  obtain ⟨played, turn, memory⟩ :=
    Replays.update_aside replays state reached id aside
  have worker : reached.code .worker = state.code .worker :=
    congrArg Thread.code (thread_next aside moved)
  have playing : reached.playing ↔ state.playing := by rw [State.playing, State.playing, worker]
  have mode : reached.dev.state.mode = state.dev.state.mode := by
    refine (accepted.mode beside moved).resolve_right ?_
    rintro ⟨⟨env, rfl⟩, -⟩
    exact aside rfl
  cases fate with
  | unasked replay same answers ahead =>
    refine .unasked (mode.trans replay) (played.trans same) (by rw [memory]; exact answers) ?_
    rw [turn]
    exact ahead.imp_right fun still =>
      ⟨still.1, mt playing.mp still.2.1, item_aside accepted beside aside moved still.2.2⟩
  | playing replay same begun =>
    exact .playing (mode.trans replay) (played.trans same) (turn.trans begun)
  | missed replay same rests runs =>
    exact .missed (mode.trans replay) (played.trans same) (turn.trans rests) (playing.mpr runs)
  | finished b other total => exact .finished b (mode ▸ other) (played.trans total)

/-- The worker picks up an item when it has none. -/
theorem fate_start (accepted : Accepted id count (state, replays))
    (fate : Fate plays asked id (state, replays) answer)
    (moved : next state .startWork = some reached) :
    Fate plays asked id (reached, replays.update id state .startWork reached) answer := by
  obtain ⟨⟨-, idle⟩, rfl⟩ := next_startWork.mp moved
  have rests : replays.turn = .none := accepted.accounts.items.closed idle
  have picked : ∀ after, replays.update id state .startWork after =
      { replays with turn := .started } := fun _ => if_neg (Nat.ne_of_gt accepted.queued)
  rw [picked]
  cases fate with
  | unasked replay same answers => exact .unasked replay same answers (Or.inl rfl)
  | playing replay same turn => exact absurd (rests.symm.trans turn) (by simp)
  | missed replay same turn runs => exact absurd runs (by simp [State.playing, idle])
  | finished b other total => exact .finished b other total

/-- The snapshot of an item's run settles what the run comes to. -/
theorem fate_snapshot {rest : Code} {done : EchoDevice × Thread}
    (accounts : Accounts id count (state, replays))
    (replay : state.dev.state.mode = .replay) (same : replays.plays = plays)
    (answers : replays.memory.length = asked) (turn : replays.turn = .started)
    (code : state.code .worker = .snapshot :: rest)
    (taken : exec state .worker env .snapshot rest = some done) :
    Fate plays asked id (state.settle .worker done.1 done.2, replays.work state env .snapshot)
        (some env.allocated) ∧
      (replays.work state env .snapshot).memory[asked]? = some env.allocated := by
  have left : rest = bufOpReplayDone := (code ▸ accounts.shape : WorkerCode _).of_snapshot
  have mode : done.1.state.mode = .replay :=
    ((exec_frame taken).mode (by simp [Instr.writes])).trans replay
  cases allocated : env.allocated with
  | true =>
    have works : replays.work state env .snapshot =
        { replays.ask true with turn := .playing } := by
      simp [Replays.work, turn, allocated]
    rw [works]
    exact ⟨.playing mode same rfl, by simp [Replays.ask, ← answers]⟩
  | false =>
    have works : replays.work state env .snapshot = { replays.ask false with
        unallocated := replays.unallocated + 1, turn := .none } := by
      simp [Replays.work, turn, allocated]
    rw [works]
    refine ⟨.missed mode same rfl ?_, by simp [Replays.ask, ← answers]⟩
    simp only [exec, allocated, Bool.false_eq_true, ↓reduceIte] at taken
    cases taken
    rw [State.playing, settle_code, left]
    exact (by decide : commits Instr.mayReturn isReplayComplete bufOpReplayDone = true)

section Work
variable {instr : Instr} {rest : Code} {done : EchoDevice × Thread}

/-- The worker changes the mode by its completion only. -/
theorem Accepted.worker_mode (accepted : Accepted id count (state, replays))
    (code : state.code .worker = instr :: rest)
    (taken : exec state .worker env instr rest = some done) (short : instr ≠ .lockReplayComplete) :
    done.1.state.mode = state.dev.state.mode := by
  have moved : next state (.step .worker env) = some (state.settle .worker done.1 done.2) :=
    next_step.mpr ⟨instr, rest, done, code, taken, rfl⟩
  refine (accepted.mode rfl moved).resolve_right ?_
  rintro ⟨-, completes, -⟩
  rw [instr?_step code] at completes
  exact short (Option.some.inj completes)

theorem mode_completed (taken : exec state .worker env .lockReplayComplete rest = some done) :
    done.1.state.mode ≠ .replay := by
  cases taken
  simp

/-- A worker without an item plays none. -/
theorem work_rests (rests : replays.turn = .none) :
    (replays.work state env instr).plays = replays.plays ∧
      (replays.work state env instr).turn = .none := by
  rcases work_none state env instr rests with same | ⟨-, same⟩
  · exact ⟨by rw [same], by rw [same, rests]⟩
  · exact ⟨by rw [same]; rfl, by rw [same]; exact rests⟩

/-- While the item waits, the worker is past the completion of an older run. -/
theorem fate_waiting (accepted : Accepted id count (state, replays))
    (replay : state.dev.state.mode = .replay) (same : replays.plays = plays)
    (answers : replays.memory.length = asked) (rests : replays.turn = .none)
    (gone : ¬ state.playing)
    (item : state.starting (.proc id) ∨ state.dev.buffer.replayPending = true)
    (code : state.code .worker = instr :: rest)
    (taken : exec state .worker env instr rest = some done) :
    Fate plays asked id
      (state.settle .worker done.1 done.2, replays.work state env instr) none := by
  have accounts := accepted.accounts
  have moved : next state (.step .worker env) = some (state.settle .worker done.1 done.2) :=
    next_step.mpr ⟨instr, rest, done, code, taken, rfl⟩
  have rule := obeys_head (code ▸ accounts.start .worker)
  have short : instr ≠ .lockReplayComplete ∧ instr ≠ .snapshot := by
    constructor <;> rintro rfl
    · exact gone (by simp [State.playing, code, isReplayComplete])
    · refine gone ?_
      simp only [startRule] at rule
      simp [State.playing, code, isReplayComplete, Instr.mayReturn, rule]
  have works : replays.work state env instr = replays :=
    (work_none state env instr rests).resolve_right fun snapshot => short.2 snapshot.1
  rw [works]
  refine .unasked ((accepted.worker_mode code taken short.1).trans replay) same answers
    (Or.inr ⟨rests, ?_, ?_⟩)
  · exact not_playing_next accounts.owned accounts.start gone moved (by simp)
  · rcases item with starting | pending
    · exact starting_next starting moved
    · rcases pending_next pending moved with still | ⟨picked, -⟩ | cancelled
      · exact Or.inr still
      · cases picked
      · rw [instr?_step code] at cancelled
        cases cancelled
        exact absurd (accounts.owned .worker .cancelWorkSync (by simp [code])) (by decide)

/-- The item is played until the completion of its run. -/
theorem fate_playing (accepted : Accepted id count (state, replays))
    (replay : state.dev.state.mode = .replay) (same : replays.plays = plays)
    (turn : replays.turn = .playing) (code : state.code .worker = instr :: rest)
    (taken : exec state .worker env instr rest = some done) :
    Fate plays asked id
      (state.settle .worker done.1 done.2, replays.work state env instr) (some true) := by
  by_cases complete : instr = .lockReplayComplete
  · subst complete
    have works : (replays.work state env .lockReplayComplete).plays = replays.plays + 1 := by
      simp [Replays.work, turn, replay]
    exact .finished true (mode_completed taken) (by rw [works, same]; rfl)
  · obtain ⟨still, played⟩ := work_keeps replays state turn replay complete
    exact .playing ((accepted.worker_mode code taken complete).trans replay)
      (played.trans same) still

/-- A run that is not the item's ends the replay without it. -/
theorem fate_missed (accepted : Accepted id count (state, replays))
    (replay : state.dev.state.mode = .replay) (same : replays.plays = plays)
    (turn : replays.turn = .none) (runs : state.playing)
    (code : state.code .worker = instr :: rest)
    (taken : exec state .worker env instr rest = some done) :
    Fate plays asked id
      (state.settle .worker done.1 done.2, replays.work state env instr) (some false) := by
  obtain ⟨played, rests⟩ := @work_rests state replays env instr turn
  by_cases complete : instr = .lockReplayComplete
  · subst complete
    exact .finished false (mode_completed taken) (played.trans same)
  · refine .missed ((accepted.worker_mode code taken complete).trans replay)
      (played.trans same) rests ?_
    refine (playing_next runs (next_step.mpr ⟨_, _, _, code, taken, rfl⟩)).resolve_right ?_
    rintro ⟨completed, -⟩
    rw [instr?_step code] at completed
    exact complete (Option.some.inj completed)

/-- A step of the worker. -/
theorem fate_work (accepted : Accepted id count (state, replays))
    (fate : Fate plays asked id (state, replays) answer)
    (code : state.code .worker = instr :: rest)
    (taken : exec state .worker env instr rest = some done) :
    ∃ answer', Fate plays asked id
        (state.settle .worker done.1 done.2, replays.work state env instr) answer' ∧
      (answer' = answer ∨
        answer = none ∧ (replays.work state env instr).memory[asked]? = answer') := by
  have accounts := accepted.accounts
  have shape : WorkerCode (instr :: rest) := code ▸ accounts.shape
  cases fate with
  | unasked replay same answers ahead =>
    rcases ahead with started | ⟨rests, gone, item⟩
    · have first : Instr.snapshot ∈ instr :: rest := code ▸ accounts.items.started started
      obtain rfl : .snapshot = instr := (List.mem_cons.mp first).resolve_right shape.snapshot_first
      obtain ⟨fate, answered⟩ := fate_snapshot accounts replay same answers started code taken
      exact ⟨_, fate, Or.inr ⟨rfl, answered⟩⟩
    · exact ⟨none, fate_waiting accepted replay same answers rests gone item code taken,
        Or.inl rfl⟩
  | playing replay same turn =>
    exact ⟨some true, fate_playing accepted replay same turn code taken, Or.inl rfl⟩
  | missed replay same turn runs =>
    exact ⟨some false, fate_missed accepted replay same turn runs code taken, Or.inl rfl⟩
  | finished b other total =>
    refine ⟨some b, .finished b ?_ ((work_plays _ _ other).trans total), Or.inl rfl⟩
    by_cases complete : instr = .lockReplayComplete
    · subst complete
      exact mode_completed taken
    · rw [settle_dev, accepted.worker_mode code taken complete]
      exact other

end Work

/-- What is known of the second play stays so, and what is not yet known comes with the
next answer. -/
theorem fate_next (accepted : Accepted id count (state, replays))
    (fate : Fate plays asked id (state, replays) answer) (beside : action.beside id = true)
    (moved : next state action = some reached) :
    ∃ answer', Fate plays asked id (reached, replays.update id state action reached) answer' ∧
      (answer' = answer ∨ answer = none ∧
        (replays.update id state action reached).memory[asked]? = answer') := by
  by_cases aside : action.actor = some .worker
  swap
  · exact ⟨answer, fate_aside accepted fate beside aside moved, Or.inl rfl⟩
  cases action with
  | step tid env =>
    obtain rfl : tid = .worker := by simpa [Action.actor] using aside
    obtain ⟨instr, rest, done, code, taken, rfl⟩ := next_step.mp moved
    rw [Replays.update_worker (instr?_step code)]
    exact fate_work accepted fate code taken
  | startWork => exact ⟨answer, fate_start accepted fate moved, Or.inl rfl⟩
  | call | signal => cases beside
  | _ => cases aside

end Step

section Phases
variable {id count plays asked : Nat} {request : Request} {state : State}
variable {start mid final : State × Replays} {actions : List Action} {answer : Option Bool}
variable {env : Env}

/-- The second call is at its mode check. -/
theorem Writing.at_lock {before : Nat} (writing : Writing id count before mid)
    (head : mid.1.instr? (.step (.proc id) env) = some .lockStartReplay) :
    mid.1.code (.proc id) = (replayCode count).drop 1 ∧ mid.2.queued = before := by
  obtain ⟨rest, ahead⟩ := code_of_head head
  cases writing with
  | starting passed code early queued =>
    obtain rfl | rfl | rfl : passed = 0 ∨ passed = 1 ∨ passed = 2 := by omega
    · simp [code, replayCode] at ahead
    · exact ⟨code, queued⟩
    · simp [code, replayCode] at ahead
  | queueing code => simp [code] at ahead
  | waiting suffix =>
    rw [ahead] at suffix
    exact absurd (suffix.subset List.mem_cons_self) (by simp [replayWait, notifyReaders])
  | refused code => simp [code] at ahead
  | returned code => simp [code] at ahead

/-- The start section of the second call, in a mode other than `REPLAY`. -/
theorem accepted_lock (may : (Tid.proc id).mayCall request = true)
    (replay : request.code = replayCode count) (accounts : Accounts id count mid)
    (code : mid.1.code (.proc id) = (replayCode count).drop 1) (once : mid.2.queued = 1)
    (free : mid.1.dev.state.mode ≠ .replay)
    (both : nextReplays id mid (.step (.proc id) env) = some start) :
    Accepted id count start ∧ start.1.dev.state.mode = .replay ∧ start.2 = mid.2 ∧
      start.1.code .worker = mid.1.code .worker := by
  have accounts' := accounts_next may replay accounts (Or.inl (by simp [Action.beside])) both
  obtain ⟨reached, moved, rfl⟩ := withHistory_next both
  obtain ⟨instr, rest, done, ahead, taken, rfl⟩ := next_step.mp moved
  obtain ⟨rfl, rfl⟩ := List.cons.inj (ahead.symm.trans code)
  rw [Replays.update_caller (instr?_step ahead), if_neg (by decide)] at accounts' ⊢
  simp only [exec, free, ↓reduceIte] at taken
  obtain ⟨dev, thread⟩ := done
  obtain ⟨rfl, rfl⟩ := Prod.mk.inj (Option.some.inj taken)
  refine ⟨⟨accounts', by simp [once], ?_, Or.inl ⟨once, ?_⟩⟩, rfl, rfl, ?_⟩
  · rw [settle_code]
    simp [replayWait, notifyReaders]
  · rw [State.starting, settle_code]
    simp [Instr.mayLeave, Instr.mayReturn, isQueueWork]
  · exact settle_code_of_ne _ _ _ _ _ (by simp)

/-- The start section of the second call in mode `REPLAY`. -/
theorem refused_lock (code : mid.1.code (.proc id) = (replayCode count).drop 1)
    (busy : mid.1.dev.state.mode = .replay)
    (both : nextReplays id mid (.step (.proc id) env) = some start) :
    start.1.code (.proc id) = [] ∧ start.2 = mid.2 := by
  obtain ⟨reached, moved, rfl⟩ := withHistory_next both
  obtain ⟨instr, rest, done, ahead, taken, rfl⟩ := next_step.mp moved
  obtain ⟨rfl, rfl⟩ := List.cons.inj (ahead.symm.trans code)
  have rejected : ¬ StartsReplay mid.1 .lockStartReplay := by simp [StartsReplay, busy]
  rw [Replays.update_caller (instr?_step ahead), if_neg (by decide), settle_code]
  exact ⟨(exec_rejected (Or.inl rfl) rejected taken).2, rfl⟩

theorem fate_lock (accepted : Accepted id count start)
    (replay : start.1.dev.state.mode = .replay) (same : start.2 = mid.2)
    (once : mid.2.queued = 1) (worker : start.1.code .worker = mid.1.code .worker)
    (known : Known mid answer) : Fate mid.2.plays mid.2.memory.length id start answer := by
  have playing : start.1.playing ↔ mid.1.playing := by rw [State.playing, State.playing, worker]
  have starting : start.1.starting (.proc id) := by
    rcases accepted.queues with ⟨-, starting⟩ | ⟨twice, -⟩
    · exact starting
    · simp [same, once] at twice
  cases known with
  | playing turn => exact .playing replay (by rw [same]) (by rw [same, turn])
  | busy turn runs => exact .missed replay (by rw [same]) (by rw [same, turn]) (playing.mpr runs)
  | unasked turn =>
    refine .unasked replay (by rw [same]) (by rw [same]) ?_
    rw [same]
    exact turn.imp_right fun still => ⟨still.1, mt playing.mp still.2, Or.inl starting⟩

/-- To the end of a stretch in which the process neither calls nor is signalled. -/
theorem fate_of_run (may : (Tid.proc id).mayCall request = true)
    (replay : request.code = replayCode count)
    (beside : ∀ action ∈ actions, action.beside id = true)
    (ran : run (nextReplays id) start actions = some final) (accepted : Accepted id count start)
    (fate : Fate plays asked id start answer) :
    Accepted id count final ∧ ∃ answer', Fate plays asked id final answer' ∧
      (answer' = answer ∨ answer = none ∧ final.2.memory[asked]? = answer') := by
  have stretch : Run (nextReplays id) (fun _ action => action.beside id = true) start actions
      final := .ofExecution ran fun action member _ => beside action member
  refine stretch.invariant (fun pair => Accepted id count pair ∧ ∃ answer',
    Fate plays asked id pair answer' ∧
      (answer' = answer ∨ answer = none ∧ pair.2.memory[asked]? = answer'))
    ⟨accepted, answer, fate, Or.inl rfl⟩ ?_
  rintro - ⟨state, replays⟩ action after - ⟨accepted, known, fate, origin⟩ beside both
  obtain ⟨reached, moved, rfl⟩ := withHistory_next both
  refine ⟨accepted_next may replay accepted beside moved, ?_⟩
  obtain ⟨answer', fate', step⟩ := fate_next accepted fate beside moved
  refine ⟨answer', fate', ?_⟩
  rcases step with rfl | ⟨rfl, answered⟩
  · refine origin.imp_right fun ⟨unknown, answered⟩ => ⟨unknown, ?_⟩
    cases fate' with
    | unasked _ _ answers => simp [← answers]
    | playing => exact Replays.update_answered _ _ reached _ answered
    | missed => exact Replays.update_answered _ _ reached _ answered
    | finished => exact Replays.update_answered _ _ reached _ answered
  · exact Or.inr ⟨origin.elim Eq.symm And.left, answered⟩

/-- With no work left, every start has queued its item, and every item has had its run. -/
theorem settled (accepted : Accepted id count final) (rests : AtRest id final.1)
    (fate : Fate plays asked id final answer) : final.2.queued = 2 ∧
      ∃ played : Bool, answer = some played ∧ final.2.plays = plays + played.toNat := by
  obtain ⟨lazy, back⟩ := rests
  have pending : final.1.dev.buffer.replayPending = false := by
    by_contra pending
    exact lazy (Or.inl (by simpa using pending))
  have worker : final.1.code .worker = [] := by
    by_contra busy
    exact lazy (Or.inr (by simpa [State.idle] using busy))
  have unstarted : ¬ final.1.starting (.proc id) := by
    intro starting
    rcases back with empty | asleep
    · simp [State.starting, empty] at starting
    · rcases asleep_cases asleep with ⟨rest, code, -⟩ | ⟨rest, code, -⟩ <;>
        simp [State.starting, code, Instr.mayLeave, Instr.mayReturn, isQueueWork] at starting
  have closed := accepted.accounts.items.closed worker
  refine ⟨?_, ?_⟩
  · rcases accepted.queues with ⟨-, starting⟩ | ⟨twice, -⟩
    · exact absurd starting unstarted
    · exact twice
  · cases fate with
    | unasked mode same answers turn =>
      rcases turn with started | ⟨-, -, starting | item⟩
      · simp [closed] at started
      · exact absurd starting unstarted
      · simp [pending] at item
    | playing mode same turn => simp [closed] at turn
    | missed mode same turn runs => simp [State.playing, worker] at runs
    | finished played mode total => exact ⟨played, rfl, total⟩

end Phases

section Reached
variable {servo : EchoServoCtx} {clock id count : Nat} {cmd : EchoCmd} {earlier : List Action}
variable {state : State} {mid final : State × Replays} {request : Request}
variable {first between again : List Action}

theorem accounts_initial (reached : Run next anyStep (State.initial servo clock) earlier state)
    (back : state.code (.proc id) = []) : Accounts id count (state, Replays.initial) where
  owned := owned_of_run reached
  shape := workerCode_of_run reached
  waits := waitRule_lawful.of_run reached
  start := startRule_lawful.of_run reached
  own := by
    rw [back]
    exact List.nil_suffix
  items := ⟨by simp [Replays.initial], by simp [Replays.initial], fun _ => rfl,
    by simp [Replays.initial]⟩
  timer := by simp [Replays.initial, back]

theorem refused_not_written : (-EBUSY : Int) ≠ (count : Int) := by
  unfold EBUSY
  omega

/-- The process was at its caller. -/
theorem away_of_madeAgain (ran : run (nextReplays id) (state, Replays.initial)
    (madeAgain id request first between again) = some final) : state.code (.proc id) = [] := by
  simp only [madeAgain, run_append, run_singleton, Option.bind_eq_some_iff] at ran
  obtain ⟨-, ⟨-, ⟨-, ⟨-, ⟨entered, called, -⟩, -⟩, -⟩, -⟩, -⟩ := ran
  exact (next_call.mp (withHistory_some.mp called).1).1.2

/-- The second call is entered with one item queued. -/
theorem writing_madeAgain (may : (Tid.proc id).mayCall request = true)
    (code : request.code = replayCode count)
    (accounts : Accounts id count (state, Replays.initial))
    (beside : ∀ action ∈ first ++ between ++ again, action.beside id = true)
    (ran : run (nextReplays id) (state, Replays.initial)
      (madeAgain id request first between again) = some final) :
    Accounts id count final ∧ Writing id count 1 final := by
  simp only [madeAgain, run_append, run_singleton, Option.bind_eq_some_iff] at ran
  obtain ⟨reentered, ⟨away, ⟨stopped, ⟨asleep, ⟨entered, called, sleeps⟩, signalled⟩, goesOn⟩,
    calledAgain⟩, ends⟩ := ran
  have accounts := accounts_next may code accounts (Or.inr (Or.inl rfl)) called
  obtain ⟨accounts, writing⟩ := writing_of_run may code
    (fun action member => beside action (by simp [member])) sleeps accounts
    (writing_called code called)
  obtain ⟨queued, gone⟩ := writing_signalled writing signalled
  obtain ⟨accounts, same⟩ := away_of_run may code
    (fun action member => beside action (by simp [member])) goesOn
    (accounts_next may code accounts (Or.inr (Or.inr rfl)) signalled) gone
  have once : away.2.queued = 1 := same.trans queued
  have accounts := accounts_next may code accounts (Or.inr (Or.inl rfl)) calledAgain
  exact writing_of_run may code (fun action member => beside action (by simp [member])) ends
    accounts (once ▸ writing_called code calledAgain)

theorem repeats_madeAgain {action : Action}
    (beside : ∀ action ∈ first ++ between ++ again, action.beside id = true)
    (member : action ∈ madeAgain id request first between again) : Repeats id request action := by
  simp only [madeAgain, List.mem_append, List.mem_singleton] at member beside
  rcases member with ((((rfl | inside) | rfl) | inside) | rfl) | inside
  · exact Or.inr (Or.inl rfl)
  · exact Or.inl (beside action (Or.inl (Or.inl inside)))
  · exact Or.inr (Or.inr rfl)
  · exact Or.inl (beside action (Or.inl (Or.inr inside)))
  · exact Or.inr (Or.inl rfl)
  · exact Or.inl (beside action (Or.inr inside))

/-- The whole of a restarted call. -/
theorem Restarted.whole (restarted : Restarted id request state mid final) :
    ∃ first between again : List Action,
      (∀ action ∈ first ++ between ++ again, action.beside id = true) ∧
      run (nextReplays id) (state, Replays.initial) (madeAgain id request first between again) =
        some final := by
  obtain ⟨first, between, early, again, env, beside, before, -, after⟩ := restarted
  refine ⟨first, between, early ++ .step (.proc id) env :: again, fun action member => ?_, ?_⟩
  · simp only [List.mem_append, List.mem_cons] at member
    rcases member with (inside | inside) | inside | rfl | inside
    · exact beside action (by simp [inside])
    · exact beside action (by simp [inside])
    · exact beside action (by simp [inside])
    · simp [Action.beside]
    · exact beside action (by simp [inside])
  · rw [madeAgain, ← List.append_assoc, run_append, ← madeAgain, before]
    exact after

/-- A write leaves its mode check behind by taking `mode_lock`. -/
theorem lock_of_flip {before : Nat} {action : Action} (writing : Writing id count before mid)
    (beside : action.beside id = true) (ahead : .lockStartReplay ∈ mid.1.code (.proc id))
    (both : nextReplays id mid action = some final)
    (past : .lockStartReplay ∉ final.1.code (.proc id)) :
    ∃ env, action = .step (.proc id) env ∧ mid.1.instr? action = some .lockStartReplay := by
  have moved := (withHistory_some.mp both).1
  by_cases actor : action.actor = some (.proc id)
  swap
  · rw [State.code, thread_next actor moved] at past
    exact absurd ahead past
  cases action with
  | step tid env =>
    obtain rfl : tid = .proc id := by simpa [Action.actor] using actor
    refine ⟨env, rfl, ?_⟩
    cases writing with
    | starting passed code early =>
      obtain rfl | rfl | rfl : passed = 0 ∨ passed = 1 ∨ passed = 2 := by omega
      · obtain ⟨instr, rest, done, entered, taken, settled⟩ := next_step.mp moved
        obtain ⟨rfl, rfl⟩ := List.cons.inj (entered.symm.trans code)
        cases taken
        rw [← settled, settle_code] at past
        simp at past
      · exact instr?_step code
      · simp [code, replayCode, replayWait, notifyReaders] at ahead
    | queueing code => simp [code, replayWait, notifyReaders] at ahead
    | waiting suffix => exact absurd (suffix.subset ahead) (by simp [replayWait, notifyReaders])
    | refused code => simp [code] at ahead
    | returned code => simp [code] at ahead
  | call | signal => cases beside
  | _ => cases actor

/-- A write that has come to its end is past its mode check. -/
theorem lock_past (accounts : Accounts id count final) (rests : AtRest id final.1) :
    .lockStartReplay ∉ final.1.code (.proc id) := by
  rcases rests.2 with empty | asleep
  · simp [empty]
  · rcases asleep_cases asleep with ⟨rest, code, -⟩ | ⟨rest, code, -⟩
    · have rule := obeys_head (code ▸ accounts.waits (.proc id))
      simp only [waitRule, decide_eq_true_eq] at rule
      simp [code, rule.2.1]
    · exact absurd (accounts.own.subset (code ▸ List.mem_cons_self))
        (by simp [replayCode, replayWait, notifyReaders])

/-- A write that is made again, and has come to its end, has taken `mode_lock`. -/
theorem restarted_of_rest
    (reached : Run next anyStep (State.initial servo clock) earlier state)
    (whole : sizeofEchoCmd ≤ count) (replay : cmd.command = echoCmdReplay)
    (beside : ∀ action ∈ first ++ between ++ again, action.beside id = true)
    (ran : run (nextReplays id) (state, Replays.initial)
      (madeAgain id (.write count (some cmd)) first between again) = some final)
    (rests : AtRest id final.1) :
    ∃ mid, Restarted id (.write count (some cmd)) state mid final := by
  have code := code_of_replay whole replay
  have may : (Tid.proc id).mayCall (.write count (some cmd)) = true := rfl
  have initial : Accounts id count (state, Replays.initial) :=
    accounts_initial reached (away_of_madeAgain ran)
  have past := lock_past (writing_madeAgain may code initial beside ran).1 rests
  rw [madeAgain, run_append, run_append] at ran
  obtain ⟨entered, called, ran⟩ := Option.bind_eq_some_iff.mp ran
  have ahead : .lockStartReplay ∈ entered.1.code (.proc id) := by
    obtain ⟨away, -, call⟩ := Option.bind_eq_some_iff.mp called
    rw [run_singleton] at call
    obtain ⟨-, settled⟩ := next_call.mp (withHistory_some.mp call).1
    rw [← settled, settle_code, Thread.code_begin, code]
    simp [replayCode]
  obtain ⟨early, action, later, mid, after, rfl, reaches, holds, moved, lost, ends⟩ :=
    exists_flip (fun pair => .lockStartReplay ∈ pair.1.code (.proc id)) ran ahead past
  have before : run (nextReplays id) (state, Replays.initial)
      (madeAgain id (.write count (some cmd)) first between early) = some mid := by
    rw [madeAgain, run_append, run_append, called]
    exact reaches
  obtain ⟨-, writing⟩ := writing_madeAgain may code initial
    (fun action member => beside action (by
      simp only [List.mem_append, List.mem_cons] at member ⊢
      rcases member with (inside | inside) | inside <;> simp [inside])) before
  obtain ⟨env, rfl, head⟩ := lock_of_flip writing (beside action (by simp)) holds moved lost
  refine ⟨mid, first, between, early, later, env, fun other member => beside other ?_, before, head,
    Option.bind_eq_some_iff.mpr ⟨after, moved, ends⟩⟩
  simp only [List.mem_append, List.mem_cons] at member ⊢
  rcases member with ((inside | inside) | inside) | inside <;> simp [inside]

/-- What the second call comes to: turned away in mode `REPLAY`, it has queued nothing;
otherwise it has queued its item, and an item is played after it or not. -/
theorem restarted_settles
    (reached : Run next anyStep (State.initial servo clock) earlier state)
    (whole : sizeofEchoCmd ≤ count) (replay : cmd.command = echoCmdReplay)
    (restarted : Restarted id (.write count (some cmd)) state mid final)
    (rests : AtRest id final.1) :
    mid.2.plays ≤ 1 ∧
      (mid.1.dev.state.mode = .replay ∧
          (final.1.thread (.proc id)).result = some (-EBUSY) ∧ final.2.queued = 1 ∨
        mid.1.dev.state.mode ≠ .replay ∧
          (final.1.thread (.proc id)).result = some (count : Int) ∧ final.2.queued = 2 ∧
          ∃ played : Bool, (played = true ↔ PlaysAgain mid final) ∧
            final.2.plays = mid.2.plays + played.toNat) := by
  have code := code_of_replay whole replay
  have may : (Tid.proc id).mayCall (.write count (some cmd)) = true := rfl
  obtain ⟨first', between', again', beside', ran'⟩ := restarted.whole
  have initial : Accounts id count (state, Replays.initial) :=
    accounts_initial reached (away_of_madeAgain ran')
  obtain ⟨accounts', writing'⟩ := writing_madeAgain may code initial beside' ran'
  have ended := (settled_of_rest accounts' writing' rests).1
  obtain ⟨first, between, early, again, env, beside, before, head, after⟩ := restarted
  obtain ⟨accounts, writing⟩ := writing_madeAgain may code initial
    (fun action member => beside action (by
      simp only [List.mem_append] at member ⊢
      exact Or.inl member)) before
  obtain ⟨ahead, once⟩ := writing.at_lock head
  obtain ⟨start, moved, ends⟩ := Option.bind_eq_some_iff.mp after
  have later : ∀ action ∈ again, action.beside id = true :=
    fun action member => beside action (by simp [member])
  have total := accounts.items.balanced.total (by omega)
  refine ⟨by omega, ?_⟩
  by_cases busy : mid.1.dev.state.mode = .replay
  · left
    obtain ⟨gone, same⟩ := refused_lock ahead busy moved
    have accounts' := accounts_next may code accounts (Or.inl (by simp [Action.beside])) moved
    have queued : final.2.queued = 1 :=
      (away_of_run may code later ends accounts' gone).2.trans (same ▸ once)
    exact ⟨busy, (ended.resolve_right fun accepted => by omega).1, queued⟩
  · right
    obtain ⟨accepted, in_force, same, worker⟩ :=
      accepted_lock may code accounts ahead once busy moved
    obtain ⟨answer, known⟩ := exists_known mid
    obtain ⟨accepted', answer', fate, origin⟩ := fate_of_run may code later ends accepted
      (fate_lock accepted in_force same once worker known)
    obtain ⟨queued, played, rfl, plays⟩ := settled accepted' rests fate
    refine ⟨busy, ?_, queued, played, known.playsAgain origin, plays⟩
    exact (ended.resolve_left fun refused => by omega).1

end Reached

section Undisturbed
variable {state : State} {action : Action}

/-- Where there is one replay at most, its item is queued while none is pending. -/
theorem Replaying.unqueued (replaying : Replaying state)
    (head : state.instr? action = some .queueWork) : state.dev.buffer.replayPending = false := by
  have starting := someStarting_of_queueWork head
  cases replaying.stage with
  | none mode gone => exact absurd starting gone.starting
  | starting tid mode own sole item => exact item
  | pending mode item none => exact absurd starting none
  | playing mode runs item => exact item

/-- Where there is one replay at most, it is played in its mode. -/
theorem Replaying.mode (replaying : Replaying state) (playing : state.playing) :
    state.dev.state.mode = .replay := by
  cases replaying.stage with
  | none mode gone => exact absurd playing gone.playing
  | starting tid mode => exact mode
  | pending mode => exact mode
  | playing mode => exact mode

theorem undisturbed_next {id count : Nat} {replays : Replays} (final : State)
    (accounts : Accounts id count (state, replays)) (replaying : Replaying state)
    (undisturbed : replays.merged = 0 ∧ replays.stopped = 0) :
    (replays.update id state action final).merged = 0 ∧
      (replays.update id state action final).stopped = 0 := by
  obtain ⟨merged, stopped⟩ := undisturbed
  unfold Replays.update
  split
  · refine ⟨(work_counts ..).2.1.trans merged, ?_⟩
    rcases work_stopped with same | ⟨turn, other⟩
    · exact same.trans stopped
    · exact absurd (replaying.mode (accounts.items.playing turn)) other
  · rename_i head
    split
    · simp [Replays.queue, merged, stopped, replaying.unqueued head]
    · exact ⟨merged, stopped⟩
  · split <;> exact ⟨merged, stopped⟩
  · exact ⟨merged, stopped⟩

variable {servo : EchoServoCtx} {clock id count : Nat} {cmd : EchoCmd} {earlier : List Action}
variable {mid final : State × Replays}

/-- When the call is made where there is one replay at most, as in a driver at rest, it is
played once only if the worker has had no memory for one of the two runs. -/
theorem restart_plays_once_of_replaying (replaying : Replaying state)
    (reached : Run next anyStep (State.initial servo clock) earlier state)
    (whole : sizeofEchoCmd ≤ count) (replay : cmd.command = echoCmdReplay)
    (restarted : Restarted id (.write count (some cmd)) state mid final)
    (rests : AtRest id final.1) : PlayedOnce id count final ↔
      mid.1.dev.state.mode ≠ .replay ∧ final.2.unallocated = 1 := by
  obtain ⟨first, between, again, beside, ran⟩ := restarted.whole
  have code := code_of_replay whole replay
  have initial : Accounts id count (state, Replays.initial) :=
    accounts_initial reached (away_of_madeAgain ran)
  have stretch : Run (nextReplays id)
      (fun _ action => Repeats id (.write count (some cmd)) action)
      (state, Replays.initial) (madeAgain id (.write count (some cmd)) first between again)
      final := .ofExecution ran fun action member _ => repeats_madeAgain beside member
  have kept : Accounts id count final ∧ Replaying final.1 ∧
      final.2.merged = 0 ∧ final.2.stopped = 0 := by
    refine stretch.invariant (fun pair => Accounts id count pair ∧ Replaying pair.1 ∧
      pair.2.merged = 0 ∧ pair.2.stopped = 0) ⟨initial, replaying, rfl, rfl⟩ ?_
    rintro - before action after - ⟨accounts, replaying, kept⟩ repeats both
    refine ⟨accounts_next rfl code accounts repeats both, ?_⟩
    obtain ⟨reached, moved, rfl⟩ := withHistory_next both
    refine ⟨replaying_next replaying ?_ moved, undisturbed_next reached accounts replaying kept⟩
    rintro tid request rfl
    rcases repeats with beside | called | signalled
    · cases beside
    · cases called
      rw [code]
      simp [replayCode, replayWait, notifyReaders, Instr.ofReplays, Instr.bystands, Instr.writes]
    · cases signalled
  obtain ⟨accounts, writing⟩ := writing_madeAgain rfl code initial beside ran
  have balance := (settled_of_rest accounts writing rests).2
  obtain ⟨-, refused | accepted⟩ := restarted_settles reached whole replay restarted rests
  · obtain ⟨busy, result, -⟩ := refused
    simp [PlayedOnce, result, busy, refused_not_written]
  · obtain ⟨free, result, queued, -⟩ := accepted
    have total := balance (by omega)
    simp only [PlayedOnce, result, ne_eq, free, not_false_eq_true, true_and]
    omega

end Undisturbed

section Concrete
variable {id : Nat} {request : Request} {state : State} {first between early again : List Action}

end Concrete

end EchoRobot
