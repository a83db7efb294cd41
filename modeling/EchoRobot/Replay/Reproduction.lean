import EchoRobot.Input.Teaching
import EchoRobot.Replay.Recording
import EchoRobot.Servo.Moves
import EchoRobot.Servo.Programming

/-! Replays after a teach session. At most one replay is between its start and its
completion, so that none stops another; and repeating the last moves of a session
leads to where the session ended, whatever the moves before them did. -/

namespace EchoRobot

open Interleaving Logs

/-- A run of the worker: whether there was memory for its snapshot, and the servo moves
made during it. -/
structure Played where
  allocated : Bool
  moves : List (Nat × Nat)
  deriving DecidableEq

structure Plays where
  current : Played
  completed : List Played

def Plays.initial : Plays := ⟨⟨false, []⟩, []⟩

def Plays.update (plays : Plays) (state : State) (action : Action) (_ : State) : Plays :=
  match state.servoCall? action with
  | some call => { plays with current := { plays.current with
      moves := plays.current.moves ++ [(call.servoId, call.angle)] } }
  | none =>
    match action, state.instr? action with
    | .startWork, _ => { plays with current := ⟨false, []⟩ }
    | .step _ env, some .snapshot =>
      { plays with current := { plays.current with allocated := env.allocated } }
    | _, some .lockReplayComplete => { plays with completed := plays.completed ++ [plays.current] }
    | _, _ => plays

abbrev nextPlays := withHistory next Plays.update

/-- Instructions of replay requests and of the timer, and those that stand by. -/
def Instr.ofReplays (instr : Instr) : Bool :=
  instr.bystands ||
    [.lockStartReplay, .lockInactivity, .timerDeleteSync, .queueWork].contains instr

/-- Calls request replays, or leave the mode, the recording and the servos alone. -/
def ReplaysOnly (_ : State × Plays) (action : Action) : Prop :=
  ∀ tid request, action = .call tid request → ∀ instr ∈ request.code, instr.ofReplays = true

/-- Every completed replay has made the last moves of the session. -/
def ReplaysAll (recorded : List (Nat × Nat)) (plays : Plays) : Prop :=
  ∀ played ∈ plays.completed, played.moves = window echoFifoSize recorded

/-- What replays do after the session `recorded` that ended in `taught`. -/
structure Reproduces (recorded : List (Nat × Nat)) (taught : State) (pair : State × Plays) :
    Prop where
  allocated : ∀ played ∈ pair.2.completed, played.allocated = true →
    played.moves = window echoFifoSize recorded
  unallocated : ∀ played ∈ pair.2.completed, played.allocated = false → played.moves = []
  current : pair.2.current.moves <+: window echoFifoSize recorded
  pos : ¬ pair.1.playing → pair.1.dev.servo.pos = taught.dev.servo.pos

/-- One thread queues the work item once. -/
def onceRule : Instr → Code → Bool
  | .queueWork, rest => !rest.contains .queueWork
  | _, _ => true

theorem onceRule_lawful : CodeRule onceRule where
  entry tid code entry := by
    cases entry with
    | read id nonblock count => cases nonblock <;> rfl
    | input id pin => cases pin <;> rfl
    | _ => rfl
  timer := by decide
  worker := by decide
  stop := by decide
  unroll moves rest shape := by
    refine obeys_replayLoop (fun instr before own loop => ?_) (obeys_tail shape)
    cases instr <;> first | rfl | cases own

/-- Where the one replay is that may be under way. -/
inductive Stage (state : State) : Prop
  | none (mode : state.dev.state.mode ≠ .replay) (gone : ReplayOver state)
  | starting (tid : Tid) (mode : state.dev.state.mode = .replay) (own : state.starting tid)
      (sole : ∀ other, state.starting other → other = tid)
      (item : state.dev.buffer.replayPending = false) (playing : ¬ state.playing)
  | pending (mode : state.dev.state.mode = .replay)
      (item : state.dev.buffer.replayPending = true) (starting : ¬ state.someStarting)
      (playing : ¬ state.playing)
  | playing (mode : state.dev.state.mode = .replay) (runs : state.playing)
      (item : state.dev.buffer.replayPending = false) (starting : ¬ state.someStarting)

/-- The calls and the timer concern replays only, and there is one replay at most. -/
structure Replaying (state : State) : Prop where
  owned : Owned state
  start : Obeys startRule state
  once : Obeys onceRule state
  worker : WorkerCode (state.code .worker)
  callers : ∀ tid, tid ≠ .worker → ∀ instr ∈ state.code tid, instr.ofReplays = true
  stage : Stage state

section Stage
variable {state after : State} {action : Action}

/-- No step of the replays is one of another operation. -/
theorem Replaying.head (replaying : Replaying state) {instr : Instr}
    (head : state.instr? action = some instr) :
    instr.ofReplays = true ∨ instr.ofWorker = true ∧ ∃ env, action = .step .worker env := by
  cases action with
  | step tid env =>
    obtain ⟨rest, code⟩ := code_of_head head
    by_cases worker : tid = .worker
    · subst worker
      exact Or.inr ⟨replaying.owned .worker instr (by simp [code]), env, rfl⟩
    · exact Or.inl (replaying.callers tid worker instr (by simp [code]))
  | _ => cases head

/-- The item's mark changes when it is queued, cancelled or picked up. -/
theorem item_keeps (moved : next state action = some after)
    (queue : state.instr? action ≠ some .queueWork)
    (cancel : state.instr? action ≠ some .cancelWorkSync) (pick : action ≠ .startWork) :
    after.dev.buffer.replayPending = state.dev.buffer.replayPending := by
  rw [Bool.eq_iff_iff]
  constructor
  · exact fun pending => (replayPending_of_next moved pending).resolve_right queue
  · intro pending
    rcases pending_next pending moved with still | ⟨picked, -⟩ | cancelled
    · exact still
    · exact absurd picked pick
    · exact absurd cancelled cancel

/-- A step that is none of a replay's milestones leaves it where it is. -/
theorem stage_keeps (owned : Owned state) (shape : Obeys startRule state) (stage : Stage state)
    (queue : state.instr? action ≠ some .queueWork)
    (cancel : state.instr? action ≠ some .cancelWorkSync)
    (complete : state.instr? action ≠ some .lockReplayComplete) (pick : action ≠ .startWork)
    (starts : ∀ instr, state.instr? action = some instr → ¬ StartsReplay state instr)
    (mode : after.dev.state.mode = .replay ↔ state.dev.state.mode = .replay)
    (moved : next state action = some after) : Stage after := by
  have item := item_keeps moved queue cancel pick
  have starting : ∀ tid, after.starting tid ↔ state.starting tid := by
    refine fun tid => ⟨fun begun => ?_, fun begun => starting_keeps begun queue moved⟩
    rcases starting_of_next owned shape moved begun with before | ⟨instr, head, lock⟩
    · exact before
    · exact absurd lock (starts instr head)
  have playing : after.playing ↔ state.playing := by
    constructor
    · intro runs
      exact (playing_of_next owned shape moved runs).resolve_right fun picked => pick picked.1
    · intro runs
      exact (playing_next runs moved).resolve_right fun completed => complete completed.1
  have someStarting : after.someStarting ↔ state.someStarting := exists_congr starting
  cases stage with
  | none other gone =>
    exact .none (mt mode.mp other) (replayOver_next owned shape gone starts moved)
  | starting tid replay own sole unqueued rests =>
    exact .starting tid (mode.mpr replay) ((starting tid).mpr own)
      (fun other begun => sole other ((starting other).mp begun)) (item.trans unqueued)
      (mt playing.mp rests)
  | pending replay queued unstarted rests =>
    exact .pending (mode.mpr replay) (item.trans queued) (mt someStarting.mp unstarted)
      (mt playing.mp rests)
  | playing replay runs unqueued unstarted =>
    exact .playing (mode.mpr replay) (playing.mpr runs) (item.trans unqueued)
      (mt someStarting.mp unstarted)

/-- A start finds no replay under way. -/
theorem stage_start (owned : Owned state) (shape : Obeys startRule state) (stage : Stage state)
    {instr : Instr} (head : state.instr? action = some instr) (lock : StartsReplay state instr)
    (moved : next state action = some after) : Stage after := by
  have before : state.dev.state.mode ≠ .replay := by
    rcases lock with ⟨-, other⟩ | ⟨-, teach⟩
    · exact other
    · simp [teach]
  have plain : instr ≠ .queueWork ∧ instr ≠ .cancelWorkSync := by
    rcases lock with ⟨rfl, -⟩ | ⟨rfl, -⟩ <;> decide
  obtain ⟨tid, env, rest, done, rfl, code, taken, settled⟩ := next_instr head moved
  have replay := startsReplay_next head lock moved
  cases stage with
  | none mode gone =>
    have sole : ∀ other, after.starting other → other = tid := by
      intro other begun
      by_contra different
      refine gone.starting ⟨other, ?_⟩
      rwa [← settled, State.starting, settle_code_of_ne _ _ _ _ _ different] at begun
    obtain ⟨other, -, -, -, begun⟩ := replay_next shape before moved replay
    obtain rfl := sole other begun
    refine .starting other replay begun sole ?_
      (not_playing_next owned shape gone.playing moved (by simp))
    rw [item_keeps moved (by simp [head, plain.1]) (by simp [head, plain.2]) (by simp)]
    exact gone.pending
  | _ => exact absurd (by assumption) before

/-- The start under way queues the item, and is then over. -/
theorem stage_queue (owned : Owned state) (shape : Obeys startRule state)
    (once : Obeys onceRule state) (stage : Stage state)
    (head : state.instr? action = some .queueWork) (moved : next state action = some after) :
    Stage after := by
  obtain ⟨tid, env, rest, done, rfl, code, taken, settled⟩ := next_instr head moved
  have own : state.starting tid := by simp [State.starting, code, isQueueWork]
  have rule := obeys_head (code ▸ once tid)
  simp only [onceRule, List.contains_eq_mem, Bool.not_eq_true', decide_eq_false_iff_not] at rule
  cases stage with
  | starting first mode starting sole item playing =>
    obtain rfl := sole tid own
    have rests := not_playing_next owned shape playing moved (by simp)
    cases taken
    refine .pending ?_ ?_ ?_ rests
    · rw [← settled]
      exact mode
    · rw [← settled]
      rfl
    · rintro ⟨other, begun⟩
      by_cases same : other = tid
      · subst same
        rw [← settled, State.starting, settle_code] at begun
        exact rule (queueWork_of_commits begun)
      · rw [← settled, State.starting, settle_code_of_ne _ _ _ _ _ same] at begun
        exact same (sole other begun)
  | none mode gone => exact absurd ⟨tid, own⟩ gone.starting
  | pending mode item starting => exact absurd ⟨tid, own⟩ starting
  | playing mode runs item starting => exact absurd ⟨tid, own⟩ starting

theorem stage_pick (owned : Owned state) (shape : Obeys startRule state) (stage : Stage state)
    (moved : next state .startWork = some after) : Stage after := by
  obtain ⟨⟨item, idle⟩, settled⟩ := next_startWork.mp moved
  cases stage with
  | pending mode item starting playing =>
    refine .playing ?_ ?_ ?_ ?_
    · rw [← settled]
      exact mode
    · rw [← settled, State.playing, settle_code, Thread.code_begin]
      decide
    · rw [← settled]
      rfl
    · rintro ⟨tid, begun⟩
      rcases starting_of_next owned shape moved begun with begun | ⟨instr, head, -⟩
      · exact starting ⟨tid, begun⟩
      · cases head
  | none mode gone => simp [gone.pending] at item
  | starting tid mode own sole unqueued => simp [unqueued] at item
  | playing mode runs unqueued => simp [unqueued] at item

/-- The completion of the one replay leaves none. -/
theorem stage_complete (owned : Owned state) (start : Obeys startRule state)
    (shape : WorkerCode (state.code .worker)) (stage : Stage state) {env : Env}
    (head : state.instr? (.step .worker env) = some .lockReplayComplete)
    (moved : next state (.step .worker env) = some after) : Stage after := by
  obtain ⟨tid, env', rest, done, same, code, taken, settled⟩ := next_instr head moved
  cases same
  have runs : state.playing := by simp [State.playing, code, isReplayComplete]
  have left : after.code .worker = signalReplayDone := by
    cases taken
    rw [← settled, settle_code]
    exact (code ▸ shape).of_complete
  cases stage with
  | none mode gone => exact absurd runs gone.playing
  | starting tid mode own sole item playing => exact absurd runs playing
  | pending mode item starting playing => exact absurd runs playing
  | playing mode runs item starting =>
    refine .none ?_ ⟨?_, ?_, ?_⟩
    · cases taken
      simp [← settled]
    · rw [item_keeps moved (by simp [head]) (by simp [head]) (by simp)]
      exact item
    · rw [State.playing, left]
      decide
    · rintro ⟨tid, begun⟩
      rcases starting_of_next owned start moved begun with before | ⟨instr, other, lock⟩
      · exact starting ⟨tid, before⟩
      · obtain rfl : .lockReplayComplete = instr := Option.some.inj (head.symm.trans other)
        rcases lock with ⟨⟨⟩, -⟩ | ⟨⟨⟩, -⟩

theorem stage_next (replaying : Replaying state) (moved : next state action = some after) :
    Stage after := by
  obtain ⟨owned, start, once, worker, callers, stage⟩ := id replaying
  by_cases pick : action = .startWork
  · subst pick
    exact stage_pick owned start stage moved
  cases head : state.instr? action with
  | none =>
    refine stage_keeps owned start stage (by simp [head]) (by simp [head]) (by simp [head]) pick
      (by simp [head]) ?_ moved
    rcases next_device moved with ⟨tid, env, instr, rest, done, rfl, code, -, -⟩ | frame
    · simp [instr?_step code] at head
    · rw [frame.mode (by simp)]
  | some instr =>
    have kind := replaying.head head
    by_cases queue : instr = .queueWork
    · subst queue
      exact stage_queue owned start once stage head moved
    by_cases complete : instr = .lockReplayComplete
    · subst complete
      rcases kind with own | ⟨-, env, rfl⟩
      · cases own
      · exact stage_complete owned start worker stage head moved
    by_cases lock : StartsReplay state instr
    · exact stage_start owned start stage head lock moved
    refine stage_keeps owned start stage (by simp [head, queue]) ?_ (by simp [head, complete]) pick
      ?_ ?_ moved
    · intro cancel
      obtain rfl : instr = .cancelWorkSync := Option.some.inj (head.symm.trans cancel)
      rcases kind with own | ⟨own, -⟩ <;> cases own
    · intro other same
      obtain rfl : instr = other := Option.some.inj (head.symm.trans same)
      exact lock
    · obtain ⟨_, env, rest, done, rfl, code, taken, rfl⟩ := next_instr head moved
      rw [settle_dev]
      cases exec_mode taken with
      | keep same => rw [same]
      | start transition => exact absurd transition lock
      | complete same => exact absurd same complete
      | enter same =>
        subst same
        rcases kind with own | ⟨own, -⟩ <;> cases own
      | set stored same =>
        subst same
        rcases kind with own | ⟨own, -⟩ <;> cases own

theorem callers_next (replaying : Replaying state)
    (ok : ∀ tid request, action = .call tid request → ∀ instr ∈ request.code,
      instr.ofReplays = true) (moved : next state action = some after) {tid : Tid}
    (other : tid ≠ .worker) : ∀ instr ∈ after.code tid, instr.ofReplays = true := by
  have before := replaying.callers tid other
  cases moves replaying.owned other moved with
  | still _ same => rwa [State.code, same]
  | call request _ code => exact code ▸ ok tid request rfl
  | expire timer code =>
    rw [code]
    decide
  | back actor code => simp [code]
  | step env instr rest done code taken left =>
    rw [settle_code, left]
    exact fun later member => before later (by simp [code, member])

theorem replaying_next (replaying : Replaying state)
    (ok : ∀ tid request, action = .call tid request → ∀ instr ∈ request.code,
      instr.ofReplays = true) (moved : next state action = some after) : Replaying after where
  owned := owned_next replaying.owned moved
  start := startRule_lawful.next replaying.start moved
  once := onceRule_lawful.next replaying.once moved
  worker := workerCode_next replaying.owned replaying.worker moved
  callers _ other := callers_next replaying ok moved other
  stage := stage_next replaying moved

end Stage

/-- What a move asks of the position of a servo. -/
def servoWrites (move : Nat × Nat) (servo : Fin echoNumServos) : Option Nat :=
  if known : move.1 < echoNumServos then
    if servo ∈ movedServos ⟨move.1, known⟩ then some (min move.2 echoServoMax) else none
  else none

abbrev positions (pos : Fin echoNumServos → Nat) (moves : List (Nat × Nat)) :
    Fin echoNumServos → Nat :=
  replay servoWrites pos moves

theorem positions_run (call : ServoCall) (ctx : EchoServoCtx) :
    (call.run ctx).1.pos = positions ctx.pos [(call.servoId, call.angle)] := by
  funext servo
  simp only [positions, replay_cons, replay_nil, apply, servoWrites]
  by_cases known : call.servoId < echoNumServos
  · rw [pos_run known, movePos_apply, dif_pos known]
    split <;> rfl
  · rw [run_unknown (by omega), dif_neg known]
    rfl

/-- The calls of a session lead where their moves lead. -/
theorem positions_movesOf {pos : Fin echoNumServos → Nat} {pins : List EchoGpio} :
    positions pos (movesOf pos pins) = moveAll pos pins := by
  induction pins generalizing pos with
  | nil => rfl
  | cons pin rest ih =>
    have first : apply servoWrites pos (pin.servo.val, pin.move pos pin.servo) = pin.move pos := by
      have bounded : pin.move pos pin.servo ≤ echoServoMax := by
        rw [move_own]
        exact clampAngle_le _ _
      funext servo
      rw [move_own] at bounded ⊢
      simp only [apply, servoWrites, Fin.is_lt, ↓reduceDIte, Fin.eta, Nat.min_eq_left bounded]
      rw [EchoGpio.move, movePos_apply]
      split <;> rfl
    rw [movesOf, positions, replay_cons, first]
    exact ih

/-- Repeating the last moves of a session where it ended changes nothing. -/
theorem positions_window {pos : Fin echoNumServos → Nat} {pins : List EchoGpio} :
    positions (moveAll pos pins) (window echoFifoSize (movesOf pos pins)) = moveAll pos pins := by
  rw [← positions_movesOf]
  exact replay_suffix window_suffix

/-- The servo moves of a code, in order. -/
def Instr.move? : Instr → Option (Nat × Nat)
  | .setAngle servoId angle => some (servoId, angle)
  | _ => none

def movesAhead (code : Code) : List (Nat × Nat) := code.filterMap Instr.move?

theorem movesAhead_replayLoop (moves : List EchoMove) (rest : Code) :
    movesAhead (replayLoop moves ++ rest) = moves.map EchoMove.key ++ movesAhead rest := by
  have loop : movesAhead (moves.flatMap replayMove) = moves.map EchoMove.key := by
    induction moves with
    | nil => rfl
    | cons move later ih =>
      rw [List.map_cons, ← ih]
      rfl
  rw [← loop]
  exact List.filterMap_append

/-- The replays so far, each of the moves `planned`, and the positions between them. -/
structure PlaysOn (planned : List (Nat × Nat)) (pos : Fin echoNumServos → Nat)
    (pair : State × Plays) : Prop where
  completed : ∀ played ∈ pair.2.completed,
    played.moves = if played.allocated then planned else []
  current : pair.2.current.moves <+: planned
  between : ¬ pair.1.playing → pair.1.dev.servo.pos = pos
  first : .snapshot ∈ pair.1.code .worker → pair.2.current.moves = []
  ahead : pair.1.playing → .snapshot ∉ pair.1.code .worker →
    pair.2.current.moves ++ movesAhead (pair.1.code .worker) =
      if pair.2.current.allocated then planned else []
  during : pair.1.playing → pair.1.dev.servo.pos = positions pos pair.2.current.moves

section Plays
variable {planned : List (Nat × Nat)} {pos : Fin echoNumServos → Nat}
variable {pair after : State × Plays} {action : Action}

/-- What leaves the worker and the servos leaves the replays. -/
theorem PlaysOn.still (plays : PlaysOn planned pos pair) {reached : State}
    (code : reached.code .worker = pair.1.code .worker)
    (servo : reached.dev.servo = pair.1.dev.servo) : PlaysOn planned pos (reached, pair.2) := by
  obtain ⟨completed, current, between, first, ahead, during⟩ := plays
  unfold State.playing at *
  rw [← code] at between first ahead during
  rw [← servo] at between during
  exact ⟨completed, current, between, first, ahead, during⟩

/-- A step of the worker that is none of a replay's own goes on to the next one. -/
theorem PlaysOn.tail (plays : PlaysOn planned pos pair) {reached : State} {instr : Instr}
    {rest : Code} (shape : WorkerCode (pair.1.code .worker))
    (code : pair.1.code .worker = instr :: rest) (own : instr.ofWorker = true)
    (plain : instr ≠ .lockReplayComplete ∧ instr ≠ .snapshot ∧ instr.move? = none)
    (left : reached.code .worker = rest) (servo : reached.dev.servo = pair.1.dev.servo) :
    PlaysOn planned pos (reached, pair.2) := by
  have playing : reached.playing ↔ pair.1.playing := by
    simp [State.playing, left, code, isReplayComplete, plain.1, Instr.ofWorker_stays own]
  have unsnapped : .snapshot ∉ rest := (code ▸ shape).snapshot_first
  have moves : movesAhead (pair.1.code .worker) = movesAhead rest := by
    simp [code, movesAhead, plain.2.2]
  refine ⟨plays.completed, plays.current, fun rests => ?_, ?_, fun runs _ => ?_, fun runs => ?_⟩
  · rw [servo]
    exact plays.between (mt playing.mpr rests)
  · exact fun ahead => absurd (left ▸ ahead) unsnapped
  · have before : .snapshot ∉ pair.1.code .worker := by
      simp [code, unsnapped, plain.2.1.symm]
    rw [left, ← moves]
    exact plays.ahead (playing.mp runs) before
  · rw [servo]
    exact plays.during (playing.mp runs)

/-- The snapshot puts the moves of the recording before the worker, or none. -/
theorem plays_snapshot {recording : List EchoMove} {env : Env} {rest : Code}
    {done : EchoDevice × Thread} (replaying : Replaying pair.1)
    (plays : PlaysOn (recording.map EchoMove.key) pos pair)
    (fits : recording.length ≤ echoFifoSize) (same : pair.1.dev.buffer.moveFifo = recording)
    (code : pair.1.code .worker = .snapshot :: rest)
    (taken : exec pair.1 .worker env .snapshot rest = some done) :
    PlaysOn (recording.map EchoMove.key) pos (pair.1.settle .worker done.1 done.2,
      { pair.2 with current := { pair.2.current with allocated := env.allocated } }) := by
  obtain rfl := (code ▸ replaying.worker).of_snapshot
  have runs : pair.1.playing := by
    rw [State.playing, code]
    decide
  have none := plays.first (by simp [code])
  have during := plays.during runs
  rw [none] at during
  have taking : replaySnapshot recording = recording := by
    rw [replaySnapshot, Nat.min_eq_left fits, List.take_length]
  have left : .snapshot ∉ done.2.code ∧ commits Instr.mayReturn isReplayComplete done.2.code ∧
      movesAhead done.2.code = (if env.allocated then recording.map EchoMove.key else []) ∧
      done.1.servo = pair.1.dev.servo := by
    simp only [exec, same, taking] at taken
    split at taken <;> cases taken
    · rename_i allocated
      refine ⟨fun ahead => ?_, ?_, ?_, rfl⟩
      · rcases List.mem_append.mp ahead with loop | later
        · exact absurd (replayLoop_ofLoop recording .snapshot loop) (by decide)
        · exact absurd later (by decide)
      · exact commits_loop (replayLoop_ofLoop recording) (by decide)
      · rw [movesAhead_replayLoop, allocated]
        exact List.append_nil _
    · rename_i unallocated
      simp only [Bool.not_eq_true] at unallocated
      exact ⟨show .snapshot ∉ bufOpReplayDone by decide,
        show commits Instr.mayReturn isReplayComplete bufOpReplayDone = true by decide,
        by rw [unallocated]; rfl, rfl⟩
  obtain ⟨past, playing, moves, servo⟩ := left
  refine ⟨plays.completed, plays.current, fun rests => ?_, fun ahead => ?_, fun _ _ => ?_,
    fun _ => ?_⟩
  · exact absurd (by simpa [State.playing] using playing) rests
  · exact absurd (by simpa using ahead) past
  · simpa [none] using moves
  · simpa [none, servo] using during

/-- A move of the worker is the next of those planned. -/
theorem plays_move {env : Env} {servoId angle : Nat} {rest : Code} {done : EchoDevice × Thread}
    (replaying : Replaying pair.1) (plays : PlaysOn planned pos pair)
    (code : pair.1.code .worker = .setAngle servoId angle :: rest)
    (taken : exec pair.1 .worker env (.setAngle servoId angle) rest = some done) :
    PlaysOn planned pos (pair.1.settle .worker done.1 done.2,
      { pair.2 with current := { pair.2.current with
        moves := pair.2.current.moves ++ [(servoId, angle)] } }) := by
  have member : .setAngle servoId angle ∈ pair.1.code .worker := by simp [code]
  have runs : pair.1.playing := (move_ahead replaying.worker member).1
  have past : .snapshot ∉ rest := (code ▸ replaying.worker).snapshot_first
  have ahead := plays.ahead runs (by simp [code, past])
  have moved := positions_run ⟨servoId, angle, env.i2c⟩ pair.1.dev.servo
  have split : movesAhead (pair.1.code .worker) = (servoId, angle) :: movesAhead rest := by
    rw [code]
    rfl
  rw [split, List.append_cons] at ahead
  have playing : commits Instr.mayReturn isReplayComplete rest := by
    simpa [State.playing, code, isReplayComplete, Instr.mayReturn] using runs
  cases taken
  refine ⟨plays.completed, ?_, fun rests => ?_, fun member => ?_, fun _ _ => ?_, fun _ => ?_⟩
  · have inside : pair.2.current.moves ++ [(servoId, angle)] <+:
        if pair.2.current.allocated then planned else [] := ahead ▸ List.prefix_append _ _
    split at inside
    · exact inside
    · simp at inside
  · exact absurd (by simpa [State.playing] using playing) rests
  · exact absurd (by simpa using member) past
  · simpa using ahead
  · rw [settle_dev, positions, replay_append]
    exact moved.trans (congrArg (positions · [(servoId, angle)]) (plays.during runs))

/-- At its completion a replay has made its moves, and the servos are back. -/
theorem plays_complete {env : Env} {rest : Code} {done : EchoDevice × Thread}
    (replaying : Replaying pair.1) (plays : PlaysOn planned pos pair)
    (fixed : positions pos planned = pos)
    (code : pair.1.code .worker = .lockReplayComplete :: rest)
    (taken : exec pair.1 .worker env .lockReplayComplete rest = some done) :
    PlaysOn planned pos (pair.1.settle .worker done.1 done.2,
      { pair.2 with completed := pair.2.completed ++ [pair.2.current] }) := by
  obtain rfl := (code ▸ replaying.worker).of_complete
  have runs : pair.1.playing := by simp [State.playing, code, isReplayComplete]
  have moves : pair.2.current.moves = if pair.2.current.allocated then planned else [] := by
    have none : movesAhead (pair.1.code .worker) = [] := by
      rw [code]
      rfl
    rw [← plays.ahead runs (by rw [code]; decide), none, List.append_nil]
  have back : pair.1.dev.servo.pos = pos := by
    rw [plays.during runs, moves]
    split
    · exact fixed
    · rfl
  cases taken
  refine ⟨fun played member => ?_, plays.current, fun _ => back, fun ahead => ?_, fun runs => ?_,
    fun runs => ?_⟩
  · rcases List.mem_append.mp member with earlier | last
    · exact plays.completed played earlier
    · rw [List.mem_singleton.mp last]
      exact moves
  · exact absurd (by simpa using ahead) (by decide)
  · exact absurd (by simpa [State.playing] using runs) (by decide)
  · exact absurd (by simpa [State.playing] using runs) (by decide)

/-- Others than the worker have no part in the replays. -/
theorem update_other {state reached : State} {plays : Plays} (replaying : Replaying state)
    (actor : action.actor ≠ some .worker) (moved : next state action = some reached) :
    plays.update state action reached = plays ∧ reached.dev.servo = state.dev.servo := by
  have none : state.servoCall? action = none := by
    by_contra some
    obtain ⟨call, makes⟩ := Option.ne_none_iff_exists'.mp some
    obtain ⟨tid, env, instr, rest, rfl, code, moves⟩ := movesServo_of makes
    have other : tid ≠ .worker := fun same => actor (congrArg Option.some same)
    have own := replaying.callers tid other instr (by simp [code])
    cases moves <;> cases own
  refine ⟨?_, servo_of_none moved none⟩
  unfold Plays.update
  simp only [none]
  split
  · exact absurd rfl actor
  · rename_i tid env head
    have other : tid ≠ .worker := fun same => actor (congrArg Option.some same)
    obtain ⟨rest, code⟩ := code_of_head head
    cases replaying.callers tid other .snapshot (by simp [code])
  · rename_i head
    rcases replaying.head head with own | ⟨-, env, rfl⟩
    · cases own
    · exact absurd rfl actor
  · rfl

theorem update_worker {env : Env} {instr : Instr} {rest : Code} {reached : State}
    (code : pair.1.code .worker = instr :: rest) (own : instr.ofWorker = true)
    (plain : instr ≠ .lockReplayComplete ∧ instr ≠ .snapshot ∧ instr.move? = none) :
    pair.2.update pair.1 (.step .worker env) reached = pair.2 ∧
      pair.1.servoCall? (.step .worker env) = none := by
  cases instr <;> first
    | exact absurd own Bool.false_ne_true
    | exact absurd plain.2.2 (Option.some_ne_none _)
    | exact absurd rfl plain.1
    | exact absurd rfl plain.2.1
    | simp [Plays.update, State.servoCall?, State.instr?, code]

/-- The worker picks up the item between two replays. -/
theorem plays_pick {reached : State} (replaying : Replaying pair.1)
    (plays : PlaysOn planned pos pair) (pending : pair.1.dev.buffer.replayPending = true)
    (code : reached.code .worker = replayWorker)
    (moved : next pair.1 .startWork = some reached) :
    PlaysOn planned pos (reached, pair.2.update pair.1 .startWork reached) := by
  have rests : ¬ pair.1.playing := by
    cases replaying.stage with
    | none mode gone => exact gone.playing
    | starting tid mode own sole item playing => exact playing
    | pending mode item starting playing => exact playing
    | playing mode runs item => simp [item] at pending
  have servo : reached.dev.servo = pair.1.dev.servo := servo_of_none moved rfl
  have back : reached.dev.servo.pos = pos := by rw [servo, plays.between rests]
  exact ⟨plays.completed, List.nil_prefix, fun _ => back, fun _ => rfl,
    fun _ past => absurd (by rw [code]; decide) past, fun _ => back⟩

/-- In mode `REPLAY` the loop is not left before its end. -/
theorem plays_silent {env : Env} {instr : Instr} {rest : Code} {done : EchoDevice × Thread}
    (replaying : Replaying pair.1) (plays : PlaysOn planned pos pair)
    (code : pair.1.code .worker = instr :: rest)
    (taken : exec pair.1 .worker env instr rest = some done) (own : instr.ofWorker = true)
    (plain : instr ≠ .lockReplayComplete ∧ instr ≠ .snapshot ∧ instr.move? = none)
    (left : Leaves pair.1 instr rest done.2.code) :
    PlaysOn planned pos (pair.1.settle .worker done.1 done.2,
      pair.2.update pair.1 (.step .worker env) (pair.1.settle .worker done.1 done.2)) := by
  have silent : pair.2.update pair.1 (.step .worker env)
      (pair.1.settle .worker done.1 done.2) = pair.2 ∧
      pair.1.servoCall? (.step .worker env) = none := update_worker code own plain
  obtain ⟨update, calls⟩ := silent
  rw [update]
  have servo : done.1.servo = pair.1.dev.servo :=
    servo_of_none (next_step.mpr ⟨instr, rest, done, code, taken, rfl⟩) calls
  refine plays.tail replaying.worker code own plain ?_ servo
  rw [settle_code]
  generalize done.2.code = reached at left
  cases left with
  | next => rfl
  | back returns => simp [Instr.ofWorker_stays own] at returns
  | stop loop other =>
    subst loop
    have rule : commits Instr.mayReturn isReplayComplete rest = true :=
      obeys_head (code ▸ replaying.start .worker)
    have runs : pair.1.playing := by simp [State.playing, code, Instr.mayReturn, rule]
    cases replaying.stage with
    | none mode gone => exact absurd runs gone.playing
    | starting tid mode => exact absurd mode other
    | pending mode => exact absurd mode other
    | playing mode => exact absurd mode other
  | unroll same => exact absurd same plain.2.1

theorem plays_step {recording : List EchoMove} {env : Env} {instr : Instr} {rest : Code}
    {done : EchoDevice × Thread} (replaying : Replaying pair.1)
    (plays : PlaysOn (recording.map EchoMove.key) pos pair)
    (fixed : positions pos (recording.map EchoMove.key) = pos)
    (fits : recording.length ≤ echoFifoSize) (same : pair.1.dev.buffer.moveFifo = recording)
    (code : pair.1.code .worker = instr :: rest)
    (taken : exec pair.1 .worker env instr rest = some done) (own : instr.ofWorker = true)
    (left : Leaves pair.1 instr rest done.2.code) :
    PlaysOn (recording.map EchoMove.key) pos (pair.1.settle .worker done.1 done.2,
      pair.2.update pair.1 (.step .worker env) (pair.1.settle .worker done.1 done.2)) := by
  by_cases snapshot : instr = .snapshot
  · subst snapshot
    have update : pair.2.update pair.1 (.step .worker env)
        (pair.1.settle .worker done.1 done.2) =
        { pair.2 with current := { pair.2.current with allocated := env.allocated } } := by
      simp [Plays.update, State.servoCall?, State.instr?, code]
    exact update ▸ plays_snapshot replaying plays fits same code taken
  by_cases complete : instr = .lockReplayComplete
  · subst complete
    have update : pair.2.update pair.1 (.step .worker env)
        (pair.1.settle .worker done.1 done.2) =
        { pair.2 with completed := pair.2.completed ++ [pair.2.current] } := by
      simp [Plays.update, State.servoCall?, State.instr?, code]
    exact update ▸ plays_complete replaying plays fixed code taken
  cases move : instr.move? with
  | some target =>
    obtain ⟨servoId, angle, rfl⟩ : ∃ servoId angle, instr = .setAngle servoId angle := by
      cases instr <;> first | exact ⟨_, _, rfl⟩ | cases move
    have update : pair.2.update pair.1 (.step .worker env)
        (pair.1.settle .worker done.1 done.2) =
        { pair.2 with current := { pair.2.current with
          moves := pair.2.current.moves ++ [(servoId, angle)] } } := by
      simp [Plays.update, State.servoCall?, code]
    exact update ▸ plays_move replaying plays code taken
  | none =>
    exact plays_silent replaying plays code taken own ⟨complete, snapshot, move⟩ left

theorem playsOn_next {recording : List EchoMove} (replaying : Replaying pair.1)
    (plays : PlaysOn (recording.map EchoMove.key) pos pair)
    (fixed : positions pos (recording.map EchoMove.key) = pos)
    (fits : recording.length ≤ echoFifoSize) (same : pair.1.dev.buffer.moveFifo = recording)
    (moved : nextPlays pair action = some after) :
    PlaysOn (recording.map EchoMove.key) pos after := by
  obtain ⟨reached, stepped, rfl⟩ := withHistory_next moved
  cases worker_moves replaying.owned stepped with
  | still other thread =>
    obtain ⟨update, servo⟩ := update_other replaying other stepped
    rw [update]
    exact plays.still (congrArg Thread.code thread) servo
  | start pending code =>
    exact plays_pick replaying plays pending code stepped
  | step env instr rest done code taken own left =>
    exact plays_step replaying plays fixed fits same code taken own left

end Plays

/-- No step of the replays records or clears. -/
theorem recording_next {state after : State} {action : Action} (replaying : Replaying state)
    (fits : state.dev.buffer.moveFifo.length ≤ echoFifoSize)
    (moved : next state action = some after) :
    after.dev.buffer.moveFifo = state.dev.buffer.moveFifo := by
  rcases next_device moved with ⟨tid, env, instr, rest, done, rfl, code, taken, rfl⟩ | frame
  · rw [settle_dev]
    have head : state.instr? (.step tid env) = some instr := instr?_step code
    have kind := replaying.head head
    cases instr with
    | snapshot =>
      simp only [exec] at taken
      split at taken <;> cases taken
      · exact replayRefill_eq _ fits
      · rfl
    | recordMove => rcases kind with own | ⟨own, -⟩ <;> cases own
    | clearBuffer => rcases kind with own | ⟨own, -⟩ <;> cases own
    | _ => exact (exec_frame taken).fifo (by simp [Instr.writes])
  · exact frame.fifo (by simp)

/-- A thread that stands by obeys the rules of the replays. -/
theorem obeys_of_standsBy {tid : Tid} {code : Code} (other : tid ≠ .worker)
    (stands : ∀ instr ∈ code, tid.runs instr = true ∧ instr.bystands = true) :
    obeys startRule code ∧ obeys onceRule code := by
  have queue : ∀ rest : Code, (∀ later ∈ rest, tid.runs later = true ∧ later.bystands = true) →
      .queueWork ∉ rest := fun rest all ahead => by cases (all _ ahead).2
  constructor
  · refine obeys_of_forall stands fun instr rest own all => ?_
    have unqueued : commits Instr.mayLeave isQueueWork rest = false := by
      by_contra committed
      exact queue rest all (queueWork_of_commits (by simpa using committed))
    cases instr with
    | shouldStop => cases tid <;> first | exact absurd rfl other | cases own.1
    | lockStartReplay | lockInactivity | snapshot => cases own.2
    | lockSetMode => cases own.2
    | _ => simp [startRule, unqueued]
  · refine obeys_of_forall stands fun instr rest own all => ?_
    cases instr with
    | queueWork => cases own.2
    | _ => rfl

/-- Where nothing is under way a replay can begin. -/
theorem replaying_initial {state : State} (owned : Owned state) (standBy : StandBy state)
    (mode : state.dev.state.mode ≠ .replay)
    (work : state.dev.buffer.replayPending = false ∧ state.code .worker = []) :
    Replaying state := by
  have queue : ∀ tid, .queueWork ∉ state.code tid := fun tid ahead => by
    cases standBy tid .queueWork ahead
  have starting : ¬ state.someStarting := by
    rintro ⟨tid, starting⟩
    exact queue tid (queueWork_of_commits starting)
  have rules : ∀ tid, obeys startRule (state.code tid) ∧ obeys onceRule (state.code tid) := by
    intro tid
    by_cases worker : tid = .worker
    · simp [worker, work.2]
    · exact obeys_of_standsBy worker fun instr ahead =>
        ⟨owned tid instr ahead, standBy tid instr ahead⟩
  refine ⟨owned, fun tid => (rules tid).1, fun tid => (rules tid).2,
    work.2 ▸ .tail List.nil_suffix, fun tid _ instr ahead => ?_,
    .none mode ⟨work.1, by simp [State.playing, work.2], starting⟩⟩
  simp [Instr.ofReplays, standBy tid instr ahead]

section Reached
variable {begin taught : State} {pins : List EchoGpio} {pair : State × Plays}
variable {lessons actions : List Action}

theorem playsOn_of_run (ready : Replaying taught) (worker : taught.code .worker = [])
    (fits : taught.dev.buffer.moveFifo.length ≤ echoFifoSize)
    (fixed : positions taught.dev.servo.pos (taught.dev.buffer.moveFifo.map EchoMove.key) =
      taught.dev.servo.pos)
    (run : Run nextPlays ReplaysOnly (taught, Plays.initial) actions pair) :
    PlaysOn (taught.dev.buffer.moveFifo.map EchoMove.key) taught.dev.servo.pos pair := by
  have rests : ¬ taught.playing := by simp [State.playing, worker]
  have whole : Replaying pair.1 ∧ pair.1.dev.buffer.moveFifo = taught.dev.buffer.moveFifo ∧
      PlaysOn (taught.dev.buffer.moveFifo.map EchoMove.key) taught.dev.servo.pos pair := by
    refine run.invariant (fun pair => Replaying pair.1 ∧
      pair.1.dev.buffer.moveFifo = taught.dev.buffer.moveFifo ∧
      PlaysOn (taught.dev.buffer.moveFifo.map EchoMove.key) taught.dev.servo.pos pair) ?_ ?_
    · exact ⟨ready, rfl, by simp [Plays.initial], List.nil_prefix, fun _ => rfl, fun _ => rfl,
        fun runs => absurd runs rests, fun runs => absurd runs rests⟩
    · rintro - before action after - ⟨replaying, same, plays⟩ ok moved
      have stepped := (withHistory_some.mp moved).1
      exact ⟨replaying_next replaying ok stepped,
        (recording_next replaying (same ▸ fits) stepped).trans same,
        playsOn_next replaying plays fixed fits same moved⟩
  exact whole.2.2

/-- After a session every replay makes the last moves of the session in order, if there
is memory for its snapshot, and brings the servos back to where the session ended. -/
theorem teach_then_replay (ready : Ready begin)
    (teach : Run nextCalls InTurn (begin, []) lessons (taught, pins)) (standBy : StandBy taught)
    (run : Run nextPlays ReplaysOnly (taught, Plays.initial) actions pair) :
    Reproduces (movesOf begin.dev.servo.pos pins) taught pair := by
  obtain ⟨owned, mode, work, -⟩ := teaching_of_run ready teach
  have outcome := outcome_of_teaching ready teach standBy
  simp only [State.outcome, Outcome.mk.injEq] at outcome
  obtain ⟨pos, recorded⟩ := outcome
  have fits : taught.dev.buffer.moveFifo.length ≤ echoFifoSize := by
    have length := congrArg List.length recorded
    rw [List.length_map, length_window] at length
    omega
  have fixed : positions taught.dev.servo.pos (taught.dev.buffer.moveFifo.map EchoMove.key) =
      taught.dev.servo.pos := by
    rw [recorded, pos]
    exact positions_window
  have plays := playsOn_of_run (replaying_initial owned standBy mode work) work.2 fits fixed run
  rw [recorded] at plays
  refine ⟨fun played member allocated => ?_, fun played member unallocated => ?_, plays.current,
    plays.between⟩
  · rw [plays.completed played member, if_pos allocated]
  · rw [plays.completed played member, unallocated]
    rfl

end Reached

/-- The test of `InTurn` where only the listed threads run. -/
def inTurn (tids : List Tid) (pair : State × List EchoGpio) (action : Action) : Bool :=
  movesOnly tids pair.1 action &&
    match action with
    | .call _ (.input _) => tids.all pair.1.idle
    | .step .. | .tick _ | .signal _ => true
    | _ => false

theorem inTurn_sound {tids : List Tid} {pair : State × List EchoGpio} {action : Action}
    (idle : ∀ tid, tid ∉ tids → pair.1.code tid = []) (passed : inTurn tids pair action = true) :
    InTurn pair action := by
  simp only [inTurn, Bool.and_eq_true] at passed
  unfold InTurn
  split
  · intro tid instr ahead
    by_cases listed : tid ∈ tids
    · have rests : pair.1.idle tid = true := List.all_eq_true.mp passed.2 tid listed
      simp only [State.idle, List.isEmpty_iff] at rests
      simp [rests] at ahead
    · simp [idle tid listed] at ahead
  · trivial
  · trivial
  · trivial
  · exact absurd passed.2 (by split <;> simp_all)

theorem ready_initial {servo : EchoServoCtx} {clock : Nat} : Ready (State.initial servo clock) := by
  refine ⟨by rintro ⟨⟩, rfl, by simp [State.workBusy, State.initial, EchoDevice.initial, State.idle,
    State.code, Thread.initial], owned_initial servo clock, fun tid instr ahead => ?_⟩
  simp [State.code, State.initial, Thread.initial] at ahead

/-- Calls of one interrupt thread are a session. -/
theorem exists_session (servo : EchoServoCtx) (pins : List EchoGpio) (check : State → Bool)
    (passed : (run (guarded (inTurn [.irq 0]) nextCalls) (State.initial servo 0, [])
      (serially pins)).any (fun pair => pair.1.idle (.irq 0) && pair.2 == pins && check pair.1) =
        true) :
    ∃ taught, Run nextCalls InTurn (State.initial servo 0, []) (serially pins) (taught, pins) ∧
      StandBy taught ∧ check taught = true := by
  obtain ⟨pair, ran, facts⟩ := exists_run nextCalls (inTurn [.irq 0]) _ _ _ passed
  obtain ⟨taught, calls⟩ := pair
  simp only [Bool.and_eq_true, beq_iff_eq, State.idle, List.isEmpty_iff] at facts
  obtain ⟨⟨returned, rfl⟩, checked⟩ := facts
  have listed : ∀ pair action, inTurn [.irq 0] pair action = true →
      movesOnly [.irq 0] pair.1 action = true := fun pair action passed => by
    simp only [inTurn, Bool.and_eq_true] at passed
    exact passed.1
  have unlisted : ∀ {actions pair},
      Run nextCalls (inTurn [.irq 0] · · = true) (State.initial servo 0, []) actions pair →
      ∀ tid, tid ∉ [.irq 0] → pair.1.code tid = [] := by
    intro actions pair before tid
    refine code_of_run [.irq 0] before.forget ?_
    rintro state action ⟨calls, passed⟩
    exact listed _ _ passed
  refine ⟨taught, ran.strengthen InTurn fun earlier pair action before passed =>
    inTurn_sound (unlisted before) passed, fun tid instr ahead => ?_, checked⟩
  by_cases own : tid ∈ [.irq 0]
  · obtain rfl := List.mem_singleton.mp own
    simp [returned] at ahead
  · simp [unlisted ran tid own] at ahead

/-- Servos whose mirror is not where the base is. -/
def apartServo : EchoServoCtx :=
  ⟨true, fun servo => if servo = echoServoTilt2 then 45 else 90, fun _ => 0⟩

/-- The timer starts a replay of two moves, and then a request starts another. -/
def twoReplays : List Action :=
  .expire :: steps .timer 4 ++ .startWork :: steps .worker 21 ++
  .call (.proc 0) (.ioctl (.setMode (some 2))) :: steps (.proc 0) 6 ++
  .startWork :: steps .worker 21

theorem teach_then_replay_twoReplays :
    ∃ taught pair, run nextCalls (State.initial apartServo 0, []) (serially [.up, .left]) =
        some (taught, [.up, .left]) ∧
      run nextPlays (taught, Plays.initial) twoReplays = some pair ∧
      pair.2.completed.length = 2 ∧
      Reproduces (movesOf apartServo.pos [.up, .left]) taught pair := by
  obtain ⟨taught, teach, standBy, replays⟩ := exists_session apartServo [.up, .left]
    (fun taught => (run nextPlays (taught, Plays.initial) twoReplays).any
      fun pair => pair.2.completed.length == 2) (by decide)
  simp only [Option.any_eq_true, beq_iff_eq] at replays
  obtain ⟨pair, ran, length⟩ := replays
  have replays : Run nextPlays ReplaysOnly (taught, Plays.initial) twoReplays pair := by
    refine Run.ofExecution ran fun action member _ tid request called => ?_
    subst called
    simp [twoReplays, steps] at member
    rw [member.2]
    decide
  exact ⟨taught, pair, teach.execution, ran, length,
    teach_then_replay ready_initial teach standBy replays⟩

/-- The allocation of the worker's snapshot fails. -/
def replayWithoutMemory : List Action :=
  .expire :: steps .timer 4 ++ .startWork :: .step .worker ⟨fun _ => 0, false, true⟩ ::
  steps .worker 5

theorem replayWithoutMemory_plays :
    ∃ taught pair, Run nextCalls InTurn (State.initial simServo 0, []) (serially [.up])
        (taught, [.up]) ∧ StandBy taught ∧
      Run nextPlays ReplaysOnly (taught, Plays.initial) replayWithoutMemory pair ∧
      ¬ ReplaysAll (movesOf simServo.pos [.up]) pair.2 := by
  obtain ⟨taught, teach, standBy, replays⟩ := exists_session simServo [.up]
    (fun taught => (run nextPlays (taught, Plays.initial) replayWithoutMemory).any
      fun pair => pair.2.completed == [⟨false, []⟩]) (by decide)
  simp only [Option.any_eq_true, beq_iff_eq] at replays
  obtain ⟨pair, ran, completed⟩ := replays
  refine ⟨taught, pair, teach, standBy, ?_, fun all => ?_⟩
  · refine Run.ofExecution ran fun action member _ tid request called => ?_
    subst called
    simp [replayWithoutMemory, steps] at member
  · have same := all ⟨false, []⟩ (by simp [completed])
    exact absurd same (by decide)

end EchoRobot
