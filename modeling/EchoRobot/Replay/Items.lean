import EchoRobot.Calls.Failed
import EchoRobot.Replay.Quiescence
import EchoRobot.Replay.Reproduction
import EchoRobot.Replay.WakeUp

/-! The work items that one process queues by its `REPLAY` writes while nobody else is in
the driver: how far each write is, and what becomes of its item. -/

namespace EchoRobot

open Interleaving

/-- What goes on around a process that makes no call and gets no signal, while nobody else
is in the driver. -/
def Action.beside (id : Nat) : Action → Bool
  | .step tid _ => tid == .proc id || tid == .timer || tid == .worker
  | .expire | .startWork | .tick _ => true
  | .call .. | .signal _ => false

/-- How far the worker is with an item that the writer has queued. -/
inductive Turn where
  | none | started | playing
  deriving DecidableEq

def Turn.open : Turn → Nat
  | .none => 0
  | _ => 1

@[simp] theorem Turn.open_none : Turn.none.open = 0 := rfl

@[simp] theorem Turn.open_started : Turn.started.open = 1 := rfl

@[simp] theorem Turn.open_playing : Turn.playing.open = 1 := rfl

/-- What has become of the items that a writer has queued: found still pending when it
queued the next one, played to the end in mode `REPLAY`, or not played since the worker
had no memory for its snapshot or found another mode. `memory` lists what `kmalloc_array`
has answered to the worker. -/
structure Replays where
  queued : Nat
  merged : Nat
  plays : Nat
  unallocated : Nat
  stopped : Nat
  turn : Turn
  memory : List Bool

def Replays.initial : Replays := ⟨0, 0, 0, 0, 0, .none, []⟩

/-- An item that is pending before the writer has queued any is not its own. -/
def Replays.queue (replays : Replays) (pending : Bool) : Replays :=
  { replays with
    queued := replays.queued + 1
    merged := replays.merged + if replays.queued = 0 then 0 else pending.toNat }

def Replays.ask (replays : Replays) (allocated : Bool) : Replays :=
  { replays with memory := replays.memory ++ [allocated] }

def Replays.stop (replays : Replays) : Replays :=
  { replays with stopped := replays.stopped + 1, turn := .none }

/-- A run has played when it comes to its completion with the mode still `REPLAY`. -/
def Replays.work (replays : Replays) (state : State) (env : Env) (instr : Instr) : Replays :=
  match replays.turn, instr with
  | .started, .snapshot =>
    if env.allocated then { replays.ask true with turn := .playing }
    else { replays.ask false with unallocated := replays.unallocated + 1, turn := .none }
  | _, .snapshot => replays.ask env.allocated
  | .playing, .shouldStop => if state.dev.state.mode = .replay then replays else replays.stop
  | .playing, .lockReplayComplete =>
    if state.dev.state.mode = .replay then
      { replays with plays := replays.plays + 1, turn := .none }
    else replays.stop
  | _, _ => replays

def Replays.update (id : Nat) (replays : Replays) (state : State) (action : Action) (_ : State) :
    Replays :=
  match action, state.instr? action with
  | .step .worker env, some instr => replays.work state env instr
  | .step tid _, some .queueWork =>
    if tid = .proc id then replays.queue state.dev.buffer.replayPending else replays
  | .startWork, _ => if replays.queued = 0 then replays else { replays with turn := .started }
  | _, _ => replays

abbrev nextReplays (id : Nat) := withHistory next (Replays.update id)

/-- There is no work, and the process is back or sleeps. -/
def AtRest (id : Nat) (state : State) : Prop :=
  ¬ state.workBusy ∧ (state.code (.proc id) = [] ∨ state.asleep (.proc id) = true)

/-- What the write does once its item is queued. -/
def replayWait (count : Nat) : Code :=
  notifyReaders ++ [.waitReplayDone, .ret count]

def replayCode (count : Nat) : Code :=
  [.setReplayFinished false, .lockStartReplay, .timerDeleteSync, .queueWork] ++ replayWait count

def TimerOff (state : State) : Prop :=
  state.dev.state.timerPending = false ∧ state.code .timer = []

/-- The completion that a waiting writer needs is there or will come. -/
def Awaited (state : State) : Prop :=
  state.dev.replayFinished = true ∨ state.dev.buffer.replayPending = true ∨
    state.signalling .worker

/-- The actions of the whole. -/
def Repeats (id : Nat) (request : Request) (action : Action) : Prop :=
  action.beside id = true ∨ action = .call (.proc id) request ∨ action = .signal (.proc id)

/-- Every item that has been queued is accounted for; `pending` tells of the last. -/
structure Balanced (replays : Replays) (pending : Bool) : Prop where
  fresh : replays.queued = 0 → { replays with memory := [] } = Replays.initial
  total : 0 < replays.queued → replays.plays + replays.unallocated + replays.stopped +
    replays.merged + pending.toNat + replays.turn.open = replays.queued

/-- The items agree with the driver: an open run of one is the worker's. -/
structure Items (state : State) (replays : Replays) : Prop where
  started : replays.turn = .started → .snapshot ∈ state.code .worker
  playing : replays.turn = .playing → state.playing
  balanced : Balanced replays state.dev.buffer.replayPending

/-- What is known of the driver and of the items at every point. -/
structure Accounts (id count : Nat) (pair : State × Replays) : Prop where
  owned : Owned pair.1
  shape : WorkerCode (pair.1.code .worker)
  waits : Obeys waitRule pair.1
  start : Obeys startRule pair.1
  own : pair.1.code (.proc id) <:+ replayCode count
  items : Items pair.1 pair.2
  timer : 0 < pair.2.queued ∨ (pair.1.code (.proc id)).head? = some .queueWork → TimerOff pair.1

/-- Where the write is, having been queued `before` times when it was made. -/
inductive Writing (id count before : Nat) (pair : State × Replays) : Prop where
  | starting (passed : Nat) (code : pair.1.code (.proc id) = (replayCode count).drop passed)
      (early : passed < 3) (queued : pair.2.queued = before)
  | queueing (code : pair.1.code (.proc id) = .queueWork :: replayWait count)
      (queued : pair.2.queued = before)
  | waiting (suffix : pair.1.code (.proc id) <:+ replayWait count)
      (ahead : pair.1.code (.proc id) ≠ []) (queued : pair.2.queued = before + 1)
      (awaited : Awaited pair.1)
  | refused (code : pair.1.code (.proc id) = []) (queued : pair.2.queued = before)
      (result : (pair.1.thread (.proc id)).result = some (-EBUSY))
  | returned (code : pair.1.code (.proc id) = []) (queued : pair.2.queued = before + 1)
      (result : (pair.1.thread (.proc id)).result = some (count : Int))

section Items
variable {replays : Replays} {pending : Bool} {state after : State} {env : Env} {instr : Instr}
variable {id : Nat}

/-- A step of the worker moves an item on, and loses none. -/
theorem work_counts (replays : Replays) (state : State) (env : Env) (instr : Instr) :
    (replays.work state env instr).queued = replays.queued ∧
    (replays.work state env instr).merged = replays.merged ∧
    (replays.work state env instr).plays + (replays.work state env instr).unallocated +
        (replays.work state env instr).stopped + (replays.work state env instr).turn.open =
      replays.plays + replays.unallocated + replays.stopped + replays.turn.open := by
  unfold Replays.work
  split
  · rename_i turn
    split
    · refine ⟨rfl, rfl, ?_⟩
      simp only [Replays.ask, turn, Turn.open_started, Turn.open_playing]
    · refine ⟨rfl, rfl, ?_⟩
      simp only [Replays.ask, turn, Turn.open_none, Turn.open_started]
      omega
  · exact ⟨rfl, rfl, rfl⟩
  · rename_i turn
    split
    · exact ⟨rfl, rfl, rfl⟩
    · refine ⟨rfl, rfl, ?_⟩
      simp only [Replays.stop, turn, Turn.open_none, Turn.open_playing]
      omega
  · rename_i turn
    split
    all_goals
      refine ⟨rfl, rfl, ?_⟩
      simp only [Replays.stop, turn, Turn.open_none, Turn.open_playing]
      omega
  · exact ⟨rfl, rfl, rfl⟩

/-- A run is stopped in another mode only. -/
theorem work_stopped : (replays.work state env instr).stopped = replays.stopped ∨
    replays.turn = .playing ∧ state.dev.state.mode ≠ .replay := by
  unfold Replays.work
  split
  · split <;> exact Or.inl rfl
  · exact Or.inl rfl
  · rename_i turn
    split
    · exact Or.inl rfl
    · rename_i other
      exact Or.inr ⟨turn, other⟩
  · rename_i turn
    split
    · exact Or.inl rfl
    · rename_i other
      exact Or.inr ⟨turn, other⟩
  · exact Or.inl rfl

/-- The runs of others leave the writer's items alone. -/
theorem work_none (state : State) (env : Env) (instr : Instr) (none : replays.turn = .none) :
    replays.work state env instr = replays ∨
      instr = .snapshot ∧ replays.work state env instr = replays.ask env.allocated := by
  unfold Replays.work
  split
  · simp_all
  · exact Or.inr ⟨rfl, rfl⟩
  · simp_all
  · simp_all
  · exact Or.inl rfl

theorem Balanced.work (balanced : Balanced replays pending) :
    Balanced (replays.work state env instr) pending := by
  obtain ⟨queued, merged, counts⟩ := work_counts replays state env instr
  constructor
  · intro none
    have fresh := balanced.fresh (queued ▸ none)
    have rests : replays.turn = .none := congrArg Replays.turn fresh
    rcases work_none state env instr rests with same | ⟨-, same⟩
    · rw [same, fresh]
    · rw [same]
      exact fresh
  · intro some
    have total := balanced.total (queued ▸ some)
    omega

theorem Balanced.queue (balanced : Balanced replays pending) :
    Balanced (replays.queue pending) true := by
  refine ⟨fun none => absurd none (Nat.succ_ne_zero _), fun _ => ?_⟩
  by_cases none : replays.queued = 0
  · have fresh := balanced.fresh none
    obtain ⟨queued, merged, plays, unallocated, stopped, turn, memory⟩ := replays
    cases fresh
    rfl
  · have total := balanced.total (Nat.pos_of_ne_zero none)
    simp only [Replays.queue, none, ↓reduceIte, Bool.toNat_true]
    omega

theorem Balanced.start (balanced : Balanced replays true) (rests : replays.turn = .none)
    (some : replays.queued ≠ 0) : Balanced { replays with turn := .started } false := by
  refine ⟨fun none => absurd none some, fun some => ?_⟩
  have total := balanced.total some
  simp only [rests, Turn.open, Bool.toNat_true, Bool.toNat_false] at *
  omega

theorem Balanced.none (balanced : Balanced replays pending) (none : replays.queued = 0)
    (other : Bool) : Balanced replays other :=
  ⟨balanced.fresh, fun some => absurd none (Nat.ne_of_gt some)⟩

theorem Replays.update_caller (head : state.instr? (.step (.proc id) env) = some instr) :
    replays.update id state (.step (.proc id) env) after =
      if instr = .queueWork then replays.queue state.dev.buffer.replayPending else replays := by
  simp only [Replays.update, head]
  cases instr <;> simp

theorem Replays.update_worker (head : state.instr? (.step .worker env) = some instr) :
    replays.update id state (.step .worker env) after = replays.work state env instr := by
  simp only [Replays.update, head]

theorem Replays.update_timer : replays.update id state (.step .timer env) after = replays := by
  cases head : state.instr? (.step .timer env) with
  | none => simp only [Replays.update, head]
  | some instr =>
    simp only [Replays.update, head]
    cases instr <;> simp

/-- Only the writer queues an item of its own. -/
theorem Replays.update_queued {action : Action} (other : ∀ env, action = .step (.proc id) env →
      state.instr? action ≠ some .queueWork) :
    (replays.update id state action after).queued = replays.queued := by
  unfold Replays.update
  split
  · exact (work_counts ..).1
  · rename_i tid env _ head
    rw [if_neg]
    rintro rfl
    exact other env rfl head
  · split <;> rfl
  · rfl

/-- A run that plays goes on playing or ends. -/
theorem work_playing (state : State) (env : Env) (instr : Instr)
    (playing : replays.turn = .playing) :
    (replays.work state env instr).turn ≠ .started ∧
      (instr = .lockReplayComplete → (replays.work state env instr).turn = .none) := by
  constructor
  · unfold Replays.work
    split <;> try split
    all_goals simp [Replays.ask, Replays.stop, playing]
  · rintro rfl
    simp only [Replays.work, playing]
    split <;> rfl

end Items

section Code
variable {id count : Nat} {cmd : EchoCmd} {state after : State} {action : Action} {instr : Instr}

theorem code_of_replay (whole : sizeofEchoCmd ≤ count) (replay : cmd.command = echoCmdReplay) :
    Request.code (.write count (some cmd)) = replayCode count := by
  rw [Request.code, echoWrite_replay whole replay]
  rfl

/-- The write does nothing to the item but to queue it. -/
theorem replayCode_pending (member : instr ∈ replayCode count) (other : instr ≠ .queueWork) :
    Field.pending ∉ instr.writes := by
  have all : ∀ instr ∈ replayCode count, instr = .queueWork ∨ Field.pending ∉ instr.writes := by
    simp [replayCode, replayWait, notifyReaders, Instr.writes]
  exact (all instr member).resolve_left other

theorem Repeats.beside {request : Request} (repeats : Repeats id request action) :
    action.beside id = true ∨ state.instr? action = none := by
  rcases repeats with beside | rfl | rfl
  · exact Or.inl beside
  · exact Or.inr rfl
  · exact Or.inr rfl

theorem deletes_before_queue {rest : Code} (suffix : instr :: rest <:+ replayCode count)
    (queues : rest.head? = some .queueWork) : instr = .timerDeleteSync := by
  have shape : obeys (fun instr rest => rest.head? != some .queueWork ||
      instr == .timerDeleteSync) (replayCode count) = true := by
    simp [replayCode, replayWait, notifyReaders]
  simpa [queues] using obeys_head (obeys_suffix suffix shape)

theorem replayWait_cases {rest : Code} (suffix : instr :: rest <:+ replayWait count) :
    instr = .ret count ∧ rest = [] ∨ rest ≠ [] ∧
      (instr = .setNewDataAvail true ∨ instr = .wakeUp .read ∨ instr = .waitReplayDone) := by
  simp only [replayWait, notifyReaders, List.cons_append, List.nil_append, List.suffix_cons_iff,
    List.cons.injEq, List.suffix_nil, reduceCtorEq, or_false] at suffix
  rcases suffix with ⟨rfl, rfl⟩ | ⟨rfl, rfl⟩ | ⟨rfl, rfl⟩ | ⟨rfl, rfl⟩ <;> simp

/-- What is executed beside the caller is of the timer or of the worker. -/
theorem executes_beside (owned : Owned state)
    (beside : action.beside id = true ∨ state.instr? action = none)
    (head : state.instr? action = some instr) :
    instr ∈ state.code (.proc id) ∨ instr.ofTimer = true ∨ instr.ofWorker = true := by
  replace beside := beside.resolve_right (by simp [head])
  cases action with
  | step tid env =>
    obtain ⟨rest, code⟩ := code_of_head head
    have own := owned tid instr (by simp [code])
    simp only [Action.beside, Bool.or_eq_true, beq_iff_eq] at beside
    rcases beside with (rfl | rfl) | rfl
    · exact Or.inl (by simp [code])
    · exact Or.inr (Or.inl own)
    · exact Or.inr (Or.inr own)
  | _ => cases head

theorem timerOff_next (owned : Owned state) (own : state.code (.proc id) <:+ replayCode count)
    (beside : action.beside id = true ∨ state.instr? action = none) (off : TimerOff state)
    (moved : next state action = some after) : TimerOff after := by
  obtain ⟨unarmed, idle⟩ := off
  constructor
  · by_contra armed
    rcases timerPending_of_next moved (by simpa using armed) with before | head
    · simp [unarmed] at before
    · rcases executes_beside owned beside head with ahead | timer | worker
      · exact absurd (own.subset ahead) (by simp [replayCode, replayWait, notifyReaders])
      · cases timer
      · cases worker
  · by_cases actor : action.actor = some .timer
    · cases acts actor moved with
      | call request may => cases may
      | step env instr rest done code => simp [idle] at code
      | expire pending => simp [unarmed] at pending
      | signal asleep =>
        rcases asleep_cases asleep with ⟨rest, code, -⟩ | ⟨rest, code, -⟩ <;> simp [idle] at code
    · rw [State.code, thread_next actor moved]
      exact idle

/-- Nobody takes the completion from a writer that waits. -/
theorem awaited_next (owned : Owned state) (shape : Obeys waitRule state)
    (beside : action.beside id = true) (own : state.code (.proc id) <:+ replayWait count)
    (awaited : Awaited state) (moved : next state action = some after) : Awaited after := by
  have clears : ∀ instr, state.instr? action = some instr →
      instr ≠ .setReplayFinished false ∧ instr ≠ .cancelWorkSync := by
    intro instr head
    rcases executes_beside owned (Or.inl beside) head with ahead | timer | worker
    · have member := own.subset ahead
      constructor <;> rintro rfl <;> exact absurd member (by simp [replayWait, notifyReaders])
    · constructor <;> rintro rfl <;> cases timer
    · constructor <;> rintro rfl <;> cases worker
  rcases awaited with set | pending | signalling
  · refine Or.inl ?_
    rcases replayFinished_next moved with same | store
    · rw [same, set]
    · by_contra unset
      rw [Bool.not_eq_true] at unset
      exact (clears _ store).1 (by rw [unset])
  · rcases pending_next pending moved with still | ⟨-, playing⟩ | cancelled
    · exact Or.inr (Or.inl still)
    · exact Or.inr (Or.inr (playing_signalling (waitRule_lawful.next shape moved) playing))
    · exact absurd rfl (clears _ cancelled).2
  · rcases signalling_next signalling moved with still | set
    · exact Or.inr (Or.inr still)
    · exact Or.inl set

end Code

section Step
variable {id count : Nat} {pair after : State × Replays} {action : Action} {request : Request}
variable {state final : State} {replays : Replays}
variable {instr : Instr} {rest : Code} {env : Env} {done : EchoDevice × Thread}

theorem Items.closed (items : Items state replays) (idle : state.code .worker = []) :
    replays.turn = .none := by
  cases turn : replays.turn with
  | none => rfl
  | started => simpa [idle] using items.started turn
  | playing =>
    have playing := items.playing turn
    simp [State.playing, idle] at playing

/-- Nothing but the worker takes an item on. -/
theorem Items.keep {replays' : Replays} (items : Items state replays)
    (worker : final.thread .worker = state.thread .worker) (same : replays'.turn = replays.turn)
    (balanced : Balanced replays' final.dev.buffer.replayPending) : Items final replays' where
  started turn := by
    rw [State.code, worker]
    exact items.started (same ▸ turn)
  playing turn := by
    rw [State.playing, State.code, worker]
    exact items.playing (same ▸ turn)
  balanced := balanced

/-- The worker takes its snapshot first, and what it then plays ends in the completion. -/
theorem Items.work (items : Items state replays) (shape : WorkerCode (state.code .worker))
    (own : instr.ofWorker = true) (code : state.code .worker = instr :: rest)
    (taken : exec state .worker env instr rest = some done) :
    Items (state.settle .worker done.1 done.2) (replays.work state env instr) := by
  have same : done.1.buffer.replayPending = state.dev.buffer.replayPending := by
    refine (exec_frame taken).pending ?_
    cases instr <;> first | (cases own; done) | simp [Instr.writes]
  have balanced : Balanced (replays.work state env instr) done.1.buffer.replayPending :=
    same ▸ items.balanced.work
  rw [code] at shape
  cases turn : replays.turn with
  | none =>
    have rests : (replays.work state env instr).turn = .none := by
      rcases work_none state env instr turn with same | ⟨-, same⟩
      · rw [same, turn]
      · rw [same]
        exact turn
    exact ⟨by simp [rests], by simp [rests], balanced⟩
  | started =>
    have ahead : .snapshot ∈ instr :: rest := code ▸ items.started turn
    obtain rfl : .snapshot = instr :=
      (List.mem_cons.mp ahead).resolve_right shape.snapshot_first
    obtain rfl := shape.of_snapshot
    cases allocated : env.allocated with
    | false =>
      refine ⟨?_, ?_, balanced⟩ <;> simp [Replays.work, turn, allocated]
    | true =>
      refine ⟨by simp [Replays.work, turn, allocated], fun _ => ?_, balanced⟩
      simp only [exec, allocated, ↓reduceIte] at taken
      cases taken
      rw [State.playing, settle_code]
      exact commits_loop (replayLoop_ofLoop _) (by decide)
  | playing =>
    obtain ⟨begun, ends⟩ := work_playing state env instr turn
    refine ⟨fun started => absurd started begun, fun still => ?_, balanced⟩
    have moved := next_step.mpr ⟨instr, rest, done, code, taken, rfl⟩
    rcases playing_next (items.playing turn) moved with plays | ⟨head, -⟩
    · exact plays
    · rw [instr?_step code] at head
      rw [ends (Option.some.inj head)] at still
      cases still

/-- The worker picks an item up when it has none. -/
theorem Items.start (items : Items state replays) (moved : next state .startWork = some final) :
    Items final (replays.update id state .startWork final) := by
  obtain ⟨⟨pending, idle⟩, rfl⟩ := next_startWork.mp moved
  have rests := items.closed idle
  have balanced := pending ▸ items.balanced
  by_cases none : replays.queued = 0
  · refine ⟨?_, ?_, ?_⟩
    · simp [Replays.update, none, rests]
    · simp [Replays.update, none, rests]
    · simpa [Replays.update, none] using balanced.none none false
  · refine ⟨?_, ?_, ?_⟩
    · simp [replayWorker]
    · simp [Replays.update, none]
    · simpa [Replays.update, none] using balanced.start rests none

/-- A step of the caller, of the timer or of the worker. -/
theorem items_step (accounts : Accounts id count (state, replays)) {tid : Tid}
    (beside : Action.beside id (.step tid env) = true)
    (moved : next state (.step tid env) = some final) :
    Items final (replays.update id state (.step tid env) final) := by
  obtain ⟨instr, rest, done, code, taken, rfl⟩ := next_step.mp moved
  have head : state.instr? (.step tid env) = some instr := instr?_step code
  simp only [Action.beside, Bool.or_eq_true, beq_iff_eq] at beside
  rcases beside with (rfl | rfl) | rfl
  · have still : (state.settle (.proc id) done.1 done.2).thread .worker = state.thread .worker :=
      settle_thread_of_ne _ _ _ _ _ (by simp)
    rw [Replays.update_caller head]
    split
    · rename_i queue
      subst queue
      cases taken
      exact accounts.items.keep still rfl accounts.items.balanced.queue
    · rename_i other
      refine accounts.items.keep still rfl ?_
      have member : instr ∈ replayCode count := accounts.own.subset (by simp [code])
      rw [settle_dev, (exec_frame taken).pending (replayCode_pending member other)]
      exact accounts.items.balanced
  · rw [Replays.update_timer]
    refine accounts.items.keep (settle_thread_of_ne _ _ _ _ _ (by simp)) rfl ?_
    by_cases none : replays.queued = 0
    · exact accounts.items.balanced.none none _
    · have idle := (accounts.timer (Or.inl (Nat.pos_of_ne_zero none))).2
      simp [code] at idle
  · rw [Replays.update_worker head]
    exact accounts.items.work accounts.shape (accounts.owned .worker instr (by simp [code])) code
      taken

theorem items_next (accounts : Accounts id count (state, replays))
    (repeats : Repeats id request action) (moved : next state action = some final) :
    Items final (replays.update id state action final) := by
  rcases repeats with beside | rfl | rfl
  · cases action with
    | step tid env => exact items_step accounts beside moved
    | startWork => exact accounts.items.start moved
    | expire =>
      obtain ⟨-, rfl⟩ := next_expire.mp moved
      exact accounts.items.keep (settle_thread_of_ne _ _ _ _ _ (by simp)) rfl
        accounts.items.balanced
    | tick ns =>
      obtain rfl := next_tick.mp moved
      exact accounts.items.keep rfl rfl accounts.items.balanced
    | _ => cases beside
  · obtain ⟨-, rfl⟩ := next_call.mp moved
    exact accounts.items.keep (settle_thread_of_ne _ _ _ _ _ (by simp)) rfl
      accounts.items.balanced
  · obtain ⟨-, rfl⟩ := next_signal.mp moved
    exact accounts.items.keep (settle_thread_of_ne _ _ _ _ _ (by simp)) rfl
      accounts.items.balanced

/-- The timer is off when the item is queued, and stays so. -/
theorem timer_next (may : (Tid.proc id).mayCall request = true)
    (replay : request.code = replayCode count) (accounts : Accounts id count (state, replays))
    (repeats : Repeats id request action) (moved : next state action = some final)
    (timed : 0 < (replays.update id state action final).queued ∨
      (final.code (.proc id)).head? = some .queueWork) : TimerOff final := by
  have keeps : 0 < replays.queued ∨ (state.code (.proc id)).head? = some .queueWork →
      TimerOff final := fun before =>
    timerOff_next accounts.owned accounts.own repeats.beside (accounts.timer before) moved
  rcases timed with queued | ahead
  · by_cases queues : ∃ env, action = .step (.proc id) env ∧ state.instr? action = some .queueWork
    · obtain ⟨env, rfl, head⟩ := queues
      exact keeps (Or.inr head)
    · rw [Replays.update_queued fun env same head => queues ⟨env, same, head⟩] at queued
      exact keeps (Or.inl queued)
  · by_cases actor : action.actor = some (.proc id)
    · cases acts actor moved with
      | call other =>
        rcases repeats with beside | same | same
        · cases beside
        · cases same
          rw [settle_code, Thread.code_begin, replay] at ahead
          cases ahead
        · cases same
      | step env instr rest done code taken =>
        have suffix : instr :: rest <:+ replayCode count := code ▸ accounts.own
        rw [settle_code] at ahead
        rcases callStep may (replay ▸ suffix) taken with onward | ⟨nothing, -⟩
        · rw [onward] at ahead
          obtain rfl := deletes_before_queue suffix ahead
          exact timerDeleteSync_next rfl code moved
        · simp [nothing] at ahead
      | signal => simp at ahead
    · rw [State.code, thread_next actor moved] at ahead
      exact keeps (Or.inr ahead)

theorem accounts_next (may : (Tid.proc id).mayCall request = true)
    (replay : request.code = replayCode count) (accounts : Accounts id count pair)
    (repeats : Repeats id request action) (both : nextReplays id pair action = some after) :
    Accounts id count after := by
  obtain ⟨final, moved, rfl⟩ := withHistory_next both
  refine ⟨owned_next accounts.owned moved, workerCode_next accounts.owned accounts.shape moved,
    waitRule_lawful.next accounts.waits moved, startRule_lawful.next accounts.start moved, ?_,
    items_next accounts repeats moved, timer_next may replay accounts repeats moved⟩
  by_cases call : ∃ other, action = .call (.proc id) other
  · obtain ⟨other, rfl⟩ := call
    obtain ⟨-, rfl⟩ := next_call.mp moved
    rcases repeats with beside | same | same
    · cases beside
    · cases same
      rw [settle_code, Thread.code_begin, replay]
    · cases same
  · rw [← replay]
    exact callSuffix_next may (replay ▸ accounts.own) (fun other same => call ⟨other, same⟩) moved

/-- What the others do leaves the write where it is. -/
theorem writing_others (accounts : Accounts id count (state, replays)) {before : Nat}
    (beside : action.beside id = true) (other : action.actor ≠ some (.proc id))
    (writing : Writing id count before (state, replays)) (moved : next state action = some final) :
    Writing id count before (final, replays.update id state action final) := by
  have thread := thread_next other moved
  have code : final.code (.proc id) = state.code (.proc id) := congrArg Thread.code thread
  have queued : (replays.update id state action final).queued = replays.queued := by
    refine Replays.update_queued fun env same => ?_
    rw [same] at other
    exact absurd rfl other
  cases writing with
  | starting passed ahead early items =>
    exact .starting passed (code.trans ahead) early (queued.trans items)
  | queueing ahead items => exact .queueing (code.trans ahead) (queued.trans items)
  | waiting suffix ahead items awaited =>
    refine .waiting (code ▸ suffix) (code ▸ ahead) (queued.trans items) ?_
    exact awaited_next accounts.owned accounts.waits beside suffix awaited moved
  | refused back items result =>
    exact .refused (code.trans back) (queued.trans items) (thread ▸ result)
  | returned back items result =>
    exact .returned (code.trans back) (queued.trans items) (thread ▸ result)

/-- The write up to the deletion of the timer. -/
theorem writing_start {before passed : Nat} (early : passed < 3)
    (ahead : state.code (.proc id) = (replayCode count).drop passed)
    (items : replays.queued = before)
    (moved : next state (.step (.proc id) env) = some final) :
    Writing id count before (final, replays.update id state (.step (.proc id) env) final) := by
  obtain ⟨instr, rest, done, code, taken, rfl⟩ := next_step.mp moved
  have head : state.instr? (.step (.proc id) env) = some instr := instr?_step code
  have keeps : instr ≠ .queueWork → (replays.update id state (.step (.proc id) env)
      (state.settle (.proc id) done.1 done.2)).queued = before := by
    intro other
    rw [Replays.update_caller head, if_neg other, items]
  rw [ahead] at code
  obtain rfl | rfl | rfl : passed = 0 ∨ passed = 1 ∨ passed = 2 := by omega
  · obtain ⟨rfl, rfl⟩ := List.cons.inj code
    cases taken
    exact .starting 1 (settle_code ..) (by decide) (keeps (by decide))
  · obtain ⟨rfl, rfl⟩ := List.cons.inj code
    simp only [exec, leave] at taken
    split at taken <;> cases taken
    · exact .refused (settle_code ..) (keeps (by decide)) (by simp [Thread.leave])
    · exact .starting 2 (settle_code ..) (by decide) (keeps (by decide))
  · obtain ⟨rfl, rfl⟩ := List.cons.inj code
    simp only [exec] at taken
    split at taken <;> cases taken
    exact .queueing (settle_code ..) (keeps (by decide))

theorem writing_step (accounts : Accounts id count (state, replays)) {before : Nat}
    (writing : Writing id count before (state, replays))
    (moved : next state (.step (.proc id) env) = some final) :
    Writing id count before (final, replays.update id state (.step (.proc id) env) final) := by
  cases writing with
  | starting passed ahead early items => exact writing_start early ahead items moved
  | queueing ahead items =>
    obtain ⟨instr, rest, done, code, taken, rfl⟩ := next_step.mp moved
    obtain ⟨rfl, rfl⟩ := List.cons.inj (code.symm.trans ahead)
    cases taken
    refine .waiting (by simp) (by simp [replayWait, notifyReaders]) ?_ (Or.inr (Or.inl rfl))
    rw [Replays.update_caller (instr?_step code), if_pos rfl]
    exact congrArg (· + 1) items
  | waiting suffix ahead items awaited =>
    have later := awaited_next accounts.owned accounts.waits (by simp [Action.beside]) suffix
      awaited moved
    obtain ⟨instr, rest, done, code, taken, rfl⟩ := next_step.mp moved
    rw [code] at suffix
    have keeps : instr ≠ .queueWork → (replays.update id state (.step (.proc id) env)
        (state.settle (.proc id) done.1 done.2)).queued = before + 1 := by
      intro other
      rw [Replays.update_caller (instr?_step code), if_neg other]
      exact items
    rcases replayWait_cases suffix with ⟨rfl, rfl⟩ | ⟨more, waits⟩
    · cases taken
      exact .returned (settle_code ..) (keeps (by simp)) (by simp [Thread.leave])
    · have onward : done.2.code = rest ∧ instr ≠ .queueWork := by
        rcases waits with rfl | rfl | rfl
        · cases taken
          exact ⟨rfl, by decide⟩
        · cases taken
          exact ⟨rfl, by decide⟩
        · simp only [exec] at taken
          split at taken <;> cases taken
          exact ⟨rfl, by decide⟩
      have reached := (settle_code state (.proc id) done.1 done.2).trans onward.1
      exact .waiting (reached ▸ (List.suffix_cons instr rest).trans suffix) (reached ▸ more)
        (keeps onward.2) later
  | refused back => simp [next, back] at moved
  | returned back => simp [next, back] at moved

theorem writing_next {before : Nat} (accounts : Accounts id count pair)
    (beside : action.beside id = true) (writing : Writing id count before pair)
    (both : nextReplays id pair action = some after) : Writing id count before after := by
  obtain ⟨final, moved, rfl⟩ := withHistory_next both
  by_cases actor : action.actor = some (.proc id)
  · cases action with
    | step tid env =>
      obtain rfl : tid = .proc id := by simpa [Action.actor] using actor
      exact writing_step accounts writing moved
    | call | signal => cases beside
    | _ => cases actor
  · exact writing_others accounts beside actor writing moved

end Step

section Phases
variable {id count : Nat} {request : Request} {start final : State × Replays}
variable {actions : List Action}

/-- A stretch in which the process neither calls nor is signalled. -/
theorem writing_of_run {before : Nat} (may : (Tid.proc id).mayCall request = true)
    (replay : request.code = replayCode count)
    (beside : ∀ action ∈ actions, action.beside id = true)
    (ran : run (nextReplays id) start actions = some final) (accounts : Accounts id count start)
    (writing : Writing id count before start) :
    Accounts id count final ∧ Writing id count before final := by
  have stretch : Run (nextReplays id) (fun _ action => action.beside id = true) start actions
      final := .ofExecution ran fun action member _ => beside action member
  refine stretch.invariant (fun pair => Accounts id count pair ∧ Writing id count before pair)
    ⟨accounts, writing⟩ ?_
  rintro - pair action after - ⟨accounts, writing⟩ beside moved
  exact ⟨accounts_next may replay accounts (Or.inl beside) moved,
    writing_next accounts beside writing moved⟩

/-- The call is entered with its code before it. -/
theorem writing_called (replay : request.code = replayCode count)
    (called : nextReplays id start (.call (.proc id) request) = some final) :
    Writing id count start.2.queued final := by
  obtain ⟨entered, moved, rfl⟩ := withHistory_next called
  obtain ⟨-, rfl⟩ := next_call.mp moved
  refine .starting 0 ?_ (by decide) rfl
  rw [settle_code, Thread.code_begin, replay, List.drop_zero]

/-- A write sleeps after it has queued its item. -/
theorem Writing.of_asleep {before : Nat} (writing : Writing id count before start)
    (asleep : start.1.asleep (.proc id) = true) : start.2.queued = before + 1 ∧
      start.1.dev.replayFinished = false ∧ Awaited start.1 := by
  have waits : (∃ rest, start.1.code (.proc id) = .waitReplayDone :: rest ∧
        start.1.dev.replayFinished = false) ∨
      ∃ rest, start.1.code (.proc id) = .waitNewData :: rest := by
    rcases asleep_cases asleep with waits | ⟨rest, code, -⟩
    · exact Or.inl waits
    · exact Or.inr ⟨rest, code⟩
  cases writing with
  | starting passed code early =>
    obtain rfl | rfl | rfl : passed = 0 ∨ passed = 1 ∨ passed = 2 := by omega
    all_goals simp [code, replayCode] at waits
  | queueing code => simp [code] at waits
  | waiting suffix ahead queued awaited =>
    rcases waits with ⟨rest, code, unset⟩ | ⟨rest, code⟩
    · exact ⟨queued, unset, awaited⟩
    · rw [code] at suffix
      exact absurd (suffix.subset List.mem_cons_self) (by simp [replayWait, notifyReaders])
  | refused code => simp [code] at waits
  | returned code => simp [code] at waits

theorem writing_signalled {before : Nat} (writing : Writing id count before start)
    (signalled : nextReplays id start (.signal (.proc id)) = some final) :
    final.2.queued = before + 1 ∧ final.1.code (.proc id) = [] := by
  obtain ⟨stopped, moved, rfl⟩ := withHistory_next signalled
  obtain ⟨asleep, rfl⟩ := next_signal.mp moved
  exact ⟨(writing.of_asleep asleep).1, settle_code ..⟩

/-- While the process is away its items are neither more nor fewer. -/
theorem away_of_run (may : (Tid.proc id).mayCall request = true)
    (replay : request.code = replayCode count)
    (beside : ∀ action ∈ actions, action.beside id = true)
    (ran : run (nextReplays id) start actions = some final) (accounts : Accounts id count start)
    (away : start.1.code (.proc id) = []) :
    Accounts id count final ∧ final.2.queued = start.2.queued := by
  have stretch : Run (nextReplays id) (fun _ action => action.beside id = true) start actions
      final := .ofExecution ran fun action member _ => beside action member
  have kept : Accounts id count final ∧ final.1.code (.proc id) = [] ∧
      final.2.queued = start.2.queued := by
    refine stretch.invariant (fun pair => Accounts id count pair ∧ pair.1.code (.proc id) = [] ∧
      pair.2.queued = start.2.queued) ⟨accounts, away, rfl⟩ ?_
    rintro - pair action after - ⟨accounts, away, same⟩ beside both
    refine ⟨accounts_next may replay accounts (Or.inl beside) both, ?_⟩
    obtain ⟨reached, moved, rfl⟩ := withHistory_next both
    have other : action.actor ≠ some (.proc id) := by
      intro actor
      cases action with
      | step tid env =>
        obtain rfl : tid = .proc id := by simpa [Action.actor] using actor
        simp [next, away] at moved
      | call | signal => cases beside
      | _ => cases actor
    refine ⟨(congrArg Thread.code (thread_next other moved)).trans away, ?_⟩
    dsimp only
    rw [Replays.update_queued, same]
    rintro env rfl
    exact absurd rfl other
  exact ⟨kept.1, kept.2.2⟩

/-- At rest the write is over, and so are the runs of its items. -/
theorem settled_of_rest {before : Nat} (accounts : Accounts id count final)
    (writing : Writing id count before final) (rests : AtRest id final.1) :
    ((final.1.thread (.proc id)).result = some (-EBUSY) ∧ final.2.queued = before ∨
      (final.1.thread (.proc id)).result = some (count : Int) ∧ final.2.queued = before + 1) ∧
    (0 < final.2.queued →
      final.2.plays + final.2.unallocated + final.2.stopped + final.2.merged =
        final.2.queued) := by
  obtain ⟨lazy, rests⟩ := rests
  have pending : final.1.dev.buffer.replayPending = false := by
    by_contra pending
    exact lazy (Or.inl (by simpa using pending))
  have worker : final.1.code .worker = [] := by
    by_contra busy
    exact lazy (Or.inr (by simpa [State.idle] using busy))
  constructor
  · have back : final.1.code (.proc id) = [] := by
      refine rests.resolve_right fun asleep => ?_
      obtain ⟨-, unset, awaited⟩ := writing.of_asleep asleep
      rcases awaited with set | item | signalling
      · simp [unset] at set
      · simp [pending] at item
      · simp [State.signalling, worker] at signalling
    cases writing with
    | starting passed code early =>
      obtain rfl | rfl | rfl : passed = 0 ∨ passed = 1 ∨ passed = 2 := by omega
      all_goals simp [back, replayCode] at code
    | queueing code => simp [back] at code
    | waiting suffix ahead => exact absurd back ahead
    | refused code queued result => exact Or.inl ⟨result, queued⟩
    | returned code queued result => exact Or.inr ⟨result, queued⟩
  · intro queued
    have total := accounts.items.balanced.total queued
    simpa [pending, accounts.items.closed worker, Turn.open] using total

end Phases

end EchoRobot
