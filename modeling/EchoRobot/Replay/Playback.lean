import EchoRobot.Lifecycle.WellFormed
import Mathlib.Algebra.GroupWithZero.Nat

/-! One run of the replay worker from its start to its end, and what it does on the
way: which moves of its snapshot it issues, how long it sleeps before each, and how it
reports its completion. -/

namespace EchoRobot

open Interleaving

/-- What a step of the worker does to the rest of the driver. -/
inductive Event where
  | counted
  | slept (ms : Nat)
  | moved (servoId angle : Nat)
  | announced
  | woken (queue : EchoQueue)
  | completed
  | finished
  deriving DecidableEq

def Instr.event (delay : Nat) : Instr → Option Event
  | .incReplayCount => some .counted
  | .msleep => some (.slept delay)
  | .setAngle servoId angle => some (.moved servoId angle)
  | .setNewDataAvail true => some .announced
  | .wakeUp queue => some (.woken queue)
  | .lockReplayComplete => some .completed
  | .setReplayFinished true => some .finished
  | _ => none

/-- The recording that the worker found, if it had memory for a snapshot of it; what
`should_stop` answered; the speed at each division; and what the worker did. -/
structure Playback where
  snapshot : Option (List EchoMove)
  answers : List Bool
  speeds : List Nat
  trace : List Event
  steps : Nat
  keeps : Bool

def Playback.initial : Playback := ⟨none, [], [], [], 0, true⟩

/-- One step of the worker. -/
def Playback.record (playback : Playback) (state : State) (env : Env) (instr : Instr)
    (after : State) : Playback where
  snapshot := if instr = .snapshot ∧ env.allocated = true then some state.dev.buffer.moveFifo
    else playback.snapshot
  answers := if instr = .shouldStop then
      playback.answers ++ [decide (state.dev.state.mode ≠ .replay)]
    else playback.answers
  speeds := if instr = .divideDelay then playback.speeds ++ [state.dev.buffer.replaySpeed]
    else playback.speeds
  trace := playback.trace ++ (instr.event (state.thread .worker).delay).toList
  steps := playback.steps + 1
  keeps := playback.keeps &&
    decide (after.dev.buffer.moveFifo = state.dev.buffer.moveFifo)

def Playback.update (playback : Playback) (state : State) (action : Action) (after : State) :
    Playback :=
  match action, state.instr? action with
  | .step .worker env, some instr => playback.record state env instr after
  | _, _ => playback

abbrev nextPlayback := withHistory next Playback.update

/-- `notify` of the worker's `ops` table. -/
def notifyEvents : List Event := [.announced, .woken .read]

/-- `replay_done` of the worker's `ops` table. -/
def replayDoneEvents : List Event :=
  [.completed, .finished, .woken .replayDone] ++ notifyEvents

/-- A move that is played at a speed. -/
def EchoMove.events (move : EchoMove) (speed : Nat) : List Event :=
  [.slept (max 10 (move.delayMs / speed)), .moved move.servoId move.angle] ++ notifyEvents

def playEvents (moves : List EchoMove) (speeds : List Nat) : List Event :=
  (List.zipWith EchoMove.events moves speeds).flatten

/-- How often `should_stop` let the worker go on. -/
def Playback.unstopped (playback : Playback) : Nat :=
  (playback.answers.takeWhile (! ·)).length

/-- The snapshot has been played up to the first answer that stopped it. -/
structure PlaysPrefix (moves : List EchoMove) (playback : Playback) : Prop where
  within : playback.unstopped ≤ moves.length
  stopped : playback.unstopped < moves.length → playback.answers[playback.unstopped]? = some true
  speeds : playback.speeds.length = playback.unstopped
  positive : ∀ speed ∈ playback.speeds, 1 ≤ speed
  trace : playback.trace = .counted ::
    (playEvents (moves.take playback.unstopped) playback.speeds ++ replayDoneEvents)

/-- The worker always gets on and ends within a number of steps, none of which changes
the recording, and then has played what it was to play. -/
structure PlaysFaithfully (start : State) (pair : State × Playback) : Prop where
  enabled : pair.1.code .worker ≠ [] → ∀ env, ∃ after, next pair.1 (.step .worker env) = some after
  bounded : pair.2.steps + (pair.1.code .worker).length ≤ 7 * echoFifoSize + 7
  keeps : pair.2.keeps = true
  played : pair.1.code .worker = [] → ∀ moves, pair.2.snapshot = some moves →
    PlaysPrefix moves pair.2 ∧
      pair.1.dev.buffer.replayCount = start.dev.buffer.replayCount + 1
  unallocated : pair.1.code .worker = [] → pair.2.snapshot = none →
    pair.2.trace = replayDoneEvents ∧ pair.2.answers = [] ∧
      pair.1.dev.buffer.replayCount = start.dev.buffer.replayCount

/-- A state whose recording fits, and in which every speed is positive. -/
structure Playable (state : State) : Prop where
  owned : Owned state
  fits : state.dev.buffer.moveFifo.length ≤ echoFifoSize
  speed : 1 ≤ state.dev.buffer.replaySpeed
  speeds : ∀ tid speed, .setReplaySpeed speed ∈ state.code tid → 1 ≤ speed

/-- The end of the code has been decided on: what has been done and what is still to be
done make up the whole. -/
inductive Decided (playback : Playback) (rest : List Event) : Prop where
  | unallocated (snapshot : playback.snapshot = none) (answers : playback.answers = [])
      (trace : playback.trace ++ rest = replayDoneEvents)
  | played (moves : List EchoMove) (snapshot : playback.snapshot = some moves)
      (within : playback.unstopped ≤ moves.length)
      (stopped : playback.unstopped < moves.length →
        playback.answers[playback.unstopped]? = some true)
      (speeds : playback.speeds.length = playback.unstopped)
      (trace : playback.trace ++ rest = .counted ::
        (playEvents (moves.take playback.unstopped) playback.speeds ++ replayDoneEvents))

/-- The steps of an iteration after the delay is known. -/
def EchoMove.effects (move : EchoMove) : Code :=
  [.msleep, .setAngle move.servoId move.angle] ++ notifyReaders

/-- The moves `before` have been played, the moves `later` are still to come. -/
structure Progress (playback : Playback) (before later : List EchoMove) (asked divided : Nat) :
    Prop where
  snapshot : playback.snapshot = some (before ++ later)
  answers : playback.answers = List.replicate (before.length + asked) false
  speeds : playback.speeds.length = before.length + divided

/-- Where the worker is in its function, and what it has done. -/
inductive PlayedTo (thread : Thread) (playback : Playback) : Code → Prop where
  | waiting (fresh : playback = Playback.initial) : PlayedTo thread playback replayWorker
  | counting (moves : List EchoMove) (progress : Progress playback [] moves 0 0)
      (trace : playback.trace = []) :
      PlayedTo thread playback (replayLoop moves ++ bufOpReplayDone)
  | asking (before later : List EchoMove) (progress : Progress playback before later 0 0)
      (trace : playback.trace = .counted :: playEvents before playback.speeds) :
      PlayedTo thread playback (later.flatMap replayMove ++ bufOpReplayDone)
  | testing (before : List EchoMove) (move : EchoMove) (later : List EchoMove)
      (progress : Progress playback before (move :: later) 1 0)
      (trace : playback.trace = .counted :: playEvents before playback.speeds) :
      PlayedTo thread playback (.testSpeed move.delayMs :: .divideDelay :: (move.effects ++
        (later.flatMap replayMove ++ bufOpReplayDone)))
  | dividing (before : List EchoMove) (move : EchoMove) (later : List EchoMove)
      (progress : Progress playback before (move :: later) 1 0)
      (trace : playback.trace = .counted :: playEvents before playback.speeds)
      (delay : thread.delay = move.delayMs) (divides : thread.divides = true) :
      PlayedTo thread playback (.divideDelay :: (move.effects ++
        (later.flatMap replayMove ++ bufOpReplayDone)))
  | moving (before : List EchoMove) (move : EchoMove) (later : List EchoMove) (left : Code)
      (suffix : left <:+ move.effects) (progress : Progress playback before (move :: later) 1 1)
      (trace : playback.trace ++ left.filterMap (Instr.event thread.delay) =
        .counted :: playEvents (before ++ [move]) playback.speeds) :
      PlayedTo thread playback (left ++ (later.flatMap replayMove ++ bufOpReplayDone))
  | completing (left : Code) (suffix : left <:+ bufOpReplayDone)
      (decided : Decided playback (left.filterMap (Instr.event thread.delay))) :
      PlayedTo thread playback left

theorem playEvents_snoc {moves : List EchoMove} {speeds : List Nat} (move : EchoMove) (speed : Nat)
    (same : speeds.length = moves.length) :
    playEvents (moves ++ [move]) (speeds ++ [speed]) =
      playEvents moves speeds ++ move.events speed := by
  simp [playEvents, List.zipWith_append same.symm]

theorem unstopped_eq {playback : Playback} {count : Nat} {last : List Bool}
    (answers : playback.answers = List.replicate count false ++ last)
    (stops : last.head? ≠ some false) : playback.unstopped = count := by
  have none : last.takeWhile (! ·) = [] := by
    cases last with
    | nil => rfl
    | cons answer last => cases answer <;> simp at stops ⊢
  simp [Playback.unstopped, answers, none]

/-- What has been asked has been answered, and all moves have been played. -/
theorem decided_of_all {playback : Playback} {moves : List EchoMove}
    (progress : Progress playback moves [] 0 0)
    (trace : playback.trace = .counted :: playEvents moves playback.speeds) :
    Decided playback replayDoneEvents := by
  have all : playback.unstopped = moves.length :=
    @unstopped_eq _ _ [] (by simpa using progress.answers) (by simp)
  refine .played moves (by simpa using progress.snapshot) (by omega) (by omega) ?_ ?_
  · rw [all, progress.speeds, Nat.add_zero]
  · rw [all, trace, List.take_length, List.cons_append]

section Step
variable {state after : State} {playback : Playback} {env : Env} {instr : Instr} {rest : Code}
variable {done : EchoDevice × Thread}

theorem exec_event (effect : (instr.event 0).isSome = true)
    (taken : exec state .worker env instr rest = some done) :
    done.2.code = rest ∧ done.2.delay = (state.thread .worker).delay := by
  cases instr <;> first | (cases taken; exact ⟨rfl, rfl⟩) | cases effect

theorem record_event (playback : Playback) (state after : State) (env : Env)
    (effect : (instr.event 0).isSome = true) (left : Code) :
    let recorded := playback.record state env instr after
    recorded.snapshot = playback.snapshot ∧ recorded.answers = playback.answers ∧
      recorded.speeds = playback.speeds ∧
      recorded.trace ++ left.filterMap (Instr.event (state.thread .worker).delay) =
        playback.trace ++
          (instr :: left).filterMap (Instr.event (state.thread .worker).delay) := by
  cases instr with
  | setNewDataAvail value =>
    cases value with
    | true => simp [Playback.record, Instr.event]
    | false => cases effect
  | setReplayFinished value =>
    cases value with
    | true => simp [Playback.record, Instr.event]
    | false => cases effect
  | _ => first | (simp [Playback.record, Instr.event]; done) | cases effect

/-- A step of the completion. -/
theorem completing_step {left : Code} (suffix : instr :: left <:+ bufOpReplayDone)
    (decided : Decided playback
      ((instr :: left).filterMap (Instr.event (state.thread .worker).delay)))
    (taken : exec state .worker env instr left = some done) :
    PlayedTo done.2 (playback.record state env instr after) done.2.code := by
  have all : ∀ instr ∈ bufOpReplayDone, (instr.event 0).isSome = true := by decide
  have effect := all instr (suffix.subset (by simp))
  obtain ⟨code, delay⟩ := exec_event effect taken
  obtain ⟨snapshot, answers, speeds, trace⟩ := record_event playback state after env effect left
  rw [code]
  refine .completing left ((List.suffix_cons instr left).trans suffix) ?_
  rw [delay]
  cases decided with
  | unallocated none unasked whole =>
    exact .unallocated (snapshot.trans none) (answers.trans unasked) (trace.trans whole)
  | played moves found within stopped length whole =>
    have unstopped : (playback.record state env instr after).unstopped = playback.unstopped := by
      simp only [Playback.unstopped, answers]
    refine .played moves (snapshot.trans found) ?_ ?_ ?_ ?_
    · rwa [unstopped]
    · rwa [unstopped, answers]
    · rwa [unstopped, speeds]
    · rw [trace, unstopped, speeds]
      exact whole

/-- The question whether to go on, or the completion behind the last move. -/
theorem asking_step {before later : List EchoMove} (progress : Progress playback before later 0 0)
    (trace : playback.trace = .counted :: playEvents before playback.speeds)
    (code : instr :: rest = later.flatMap replayMove ++ bufOpReplayDone)
    (taken : exec state .worker env instr rest = some done) :
    PlayedTo done.2 (playback.record state env instr after) done.2.code := by
  cases later with
  | nil =>
    have decided := decided_of_all progress trace
    rw [List.flatMap_nil, List.nil_append] at code
    refine completing_step (code ▸ List.suffix_rfl) ?_ taken
    rw [code]
    exact decided
  | cons move later =>
    obtain ⟨rfl, rfl⟩ := List.cons.inj code
    simp only [exec] at taken
    split at taken <;> cases taken
    · rename_i mode
      refine .testing before move later ⟨?_, ?_, ?_⟩ ?_
      · simpa [Playback.record] using progress.snapshot
      · simp [Playback.record, progress.answers, mode, List.replicate_succ']
      · simpa [Playback.record] using progress.speeds
      · simpa [Playback.record, Instr.event] using trace
    · rename_i mode
      have answers : (playback.record state env .shouldStop after).answers =
          List.replicate before.length false ++ [true] := by
        simp [Playback.record, progress.answers, mode]
      have unstopped := unstopped_eq answers (by simp)
      have speeds : (playback.record state env .shouldStop after).speeds = playback.speeds := by
        simp [Playback.record]
      have same : (playback.record state env .shouldStop after).trace = playback.trace := by
        simp [Playback.record, Instr.event]
      refine .completing _ List.suffix_rfl (.played (before ++ move :: later) ?_ ?_ ?_ ?_ ?_)
      · simpa [Playback.record] using progress.snapshot
      · simp [unstopped]
      · simp [unstopped, answers]
      · rw [unstopped, speeds, progress.speeds, Nat.add_zero]
      · rw [unstopped, List.take_left, speeds, same, trace]
        rfl

/-- A step of an iteration whose delay is known. -/
theorem moving_step {before later : List EchoMove} {move : EchoMove} {left : Code}
    (suffix : left <:+ move.effects) (progress : Progress playback before (move :: later) 1 1)
    (trace : playback.trace ++ left.filterMap (Instr.event (state.thread .worker).delay) =
      .counted :: playEvents (before ++ [move]) playback.speeds)
    (code : instr :: rest = left ++ (later.flatMap replayMove ++ bufOpReplayDone))
    (taken : exec state .worker env instr rest = some done) :
    PlayedTo done.2 (playback.record state env instr after) done.2.code := by
  cases left with
  | nil =>
    have onward : Progress playback (before ++ [move]) later 0 0 :=
      ⟨by simpa using progress.snapshot, by simpa using progress.answers,
        by simpa using progress.speeds⟩
    exact asking_step onward (by simpa using trace) code taken
  | cons head left =>
    obtain ⟨rfl, rfl⟩ := List.cons.inj code
    have all : ∀ instr ∈ move.effects, (instr.event 0).isSome = true := by
      simp [EchoMove.effects, notifyReaders, Instr.event]
    have effect := all instr (suffix.subset (by simp))
    obtain ⟨code, delay⟩ := exec_event effect taken
    obtain ⟨snapshot, answers, speeds, whole⟩ := record_event playback state after env effect left
    rw [code]
    refine .moving before move later left ((List.suffix_cons instr left).trans suffix)
      ⟨snapshot.trans progress.snapshot, answers.trans progress.answers, ?_⟩ ?_
    · rw [speeds, progress.speeds]
    · rw [delay, whole, speeds, trace]

/-- The snapshot, for which there may be no memory. -/
theorem waiting_step (fits : state.dev.buffer.moveFifo.length ≤ echoFifoSize)
    (taken : exec state .worker env .snapshot bufOpReplayDone = some done) :
    PlayedTo done.2 (Playback.initial.record state env .snapshot after) done.2.code := by
  simp only [exec] at taken
  split at taken <;> cases taken
  · rename_i allocated
    have same : replaySnapshot state.dev.buffer.moveFifo = state.dev.buffer.moveFifo := by
      simp [replaySnapshot, Nat.min_eq_left fits]
    rw [same]
    refine .counting _ ⟨?_, ?_, ?_⟩ ?_ <;>
      simp [Playback.record, Playback.initial, allocated, Instr.event]
  · rename_i unallocated
    refine .completing _ List.suffix_rfl (.unallocated ?_ ?_ ?_)
    · simp [Playback.record, Playback.initial, unallocated]
    · rfl
    · rfl

/-- The division, after which the delay of the move is known. -/
theorem dividing_step {before later : List EchoMove} {move : EchoMove}
    (progress : Progress playback before (move :: later) 1 0)
    (trace : playback.trace = .counted :: playEvents before playback.speeds)
    (delay : (state.thread .worker).delay = move.delayMs)
    (divides : (state.thread .worker).divides = true)
    (taken : exec state .worker env .divideDelay (move.effects ++
      (later.flatMap replayMove ++ bufOpReplayDone)) = some done) :
    PlayedTo done.2 (playback.record state env .divideDelay after) done.2.code := by
  cases taken
  refine .moving before move later _ List.suffix_rfl ⟨?_, ?_, ?_⟩ ?_
  · simpa [Playback.record] using progress.snapshot
  · simpa [Playback.record] using progress.answers
  · simp [Playback.record, progress.speeds]
  · have same : playback.speeds.length = before.length := progress.speeds
    have ms : (if move.delayMs / state.dev.buffer.replaySpeed < 10 then 10
        else move.delayMs / state.dev.buffer.replaySpeed) =
        max 10 (move.delayMs / state.dev.buffer.replaySpeed) := by
      split <;> omega
    simp [Playback.record, playEvents_snoc move state.dev.buffer.replaySpeed same, trace, delay,
      divides, Instr.event, EchoMove.effects, EchoMove.events, notifyReaders, notifyEvents, ms]

/-- Every step of the worker leads to the next point of its function. -/
theorem playedTo_step (fits : state.dev.buffer.moveFifo.length ≤ echoFifoSize)
    (positive : 1 ≤ state.dev.buffer.replaySpeed)
    (played : PlayedTo (state.thread .worker) playback (instr :: rest))
    (taken : exec state .worker env instr rest = some done) :
    PlayedTo done.2 (playback.record state env instr after) done.2.code := by
  generalize whole : instr :: rest = code at played
  cases played with
  | waiting fresh =>
    obtain ⟨rfl, rfl⟩ := List.cons.inj whole
    subst fresh
    exact waiting_step fits taken
  | counting moves progress trace =>
    obtain ⟨rfl, rfl⟩ := List.cons.inj whole
    cases taken
    refine .asking [] moves ⟨?_, ?_, ?_⟩ ?_
    · simpa [Playback.record] using progress.snapshot
    · simpa [Playback.record] using progress.answers
    · simpa [Playback.record] using progress.speeds
    · simp [Playback.record, trace, Instr.event, playEvents]
  | asking before later progress trace => exact asking_step progress trace whole taken
  | testing before move later progress trace =>
    obtain ⟨rfl, rfl⟩ := List.cons.inj whole
    cases taken
    refine .dividing before move later ⟨?_, ?_, ?_⟩ ?_ rfl (decide_eq_true positive)
    · simpa [Playback.record] using progress.snapshot
    · simpa [Playback.record] using progress.answers
    · simpa [Playback.record] using progress.speeds
    · simpa [Playback.record, Instr.event] using trace
  | dividing before move later progress trace delay divides =>
    obtain ⟨rfl, rfl⟩ := List.cons.inj whole
    exact dividing_step progress trace delay divides taken
  | moving before move later left suffix progress trace =>
    exact moving_step suffix progress trace whole taken
  | completing left suffix decided =>
    subst whole
    exact completing_step suffix decided taken

theorem exec_ofWorker (state : State) (own : instr.ofWorker = true) (env : Env) (rest : Code) :
    ∃ done, exec state .worker env instr rest = some done := by
  cases instr <;> first | (cases own; done) | simp only [exec]
  all_goals repeat' split
  all_goals exact ⟨_, rfl⟩

/-- The steps that an instruction may lead to. -/
def Instr.mostSteps : Instr → Nat
  | .snapshot => 7 * echoFifoSize + 2
  | _ => 1

def mostSteps (code : Code) : Nat := (code.map Instr.mostSteps).sum

theorem length_le_mostSteps (code : Code) : code.length ≤ mostSteps code := by
  induction code with
  | nil => exact Nat.le_refl 0
  | cons instr rest ih =>
    have one : 1 ≤ instr.mostSteps := by
      cases instr <;> first | exact Nat.le_refl 1 | exact Nat.le_add_left 1 _
    simp only [mostSteps, List.map_cons, List.sum_cons, List.length_cons] at ih ⊢
    omega

theorem mostSteps_append (first second : Code) :
    mostSteps (first ++ second) = mostSteps first + mostSteps second := by
  simp [mostSteps]

theorem mostSteps_replayLoop (moves : List EchoMove) :
    mostSteps (replayLoop moves) = 7 * moves.length + 1 := by
  have played : mostSteps (moves.flatMap replayMove) = 7 * moves.length := by
    induction moves with
    | nil => rfl
    | cons move later ih =>
      rw [List.flatMap_cons, mostSteps_append, ih, List.length_cons]
      simp only [replayMove, notifyReaders, mostSteps, Instr.mostSteps, List.cons_append,
        List.nil_append, List.map_cons, List.map_nil, List.sum_cons, List.sum_nil]
      omega
  have first : mostSteps (replayLoop moves) = 1 + mostSteps (moves.flatMap replayMove) := rfl
  omega

/-- A step of the worker brings it nearer to its end. -/
theorem mostSteps_step (shape : WorkerCode (instr :: rest))
    (taken : exec state .worker env instr rest = some done) (own : instr.ofWorker = true) :
    mostSteps done.2.code + 1 ≤ mostSteps (instr :: rest) := by
  have head : mostSteps (instr :: rest) = instr.mostSteps + mostSteps rest := rfl
  have one : 1 ≤ instr.mostSteps := by
    cases instr <;> first | exact Nat.le_refl 1 | exact Nat.le_add_left 1 _
  generalize done.2.code = left, exec_code taken = leaves
  cases leaves with
  | next => omega
  | back returns => simp [Instr.ofWorker_stays own] at returns
  | stop same =>
    subst same
    obtain ⟨left, rfl⟩ := shape.of_shouldStop
    rw [mostSteps_append] at head
    omega
  | unroll same =>
    subst same
    have played := mostSteps_replayLoop (replaySnapshot state.dev.buffer.moveFifo)
    have fits : (replaySnapshot state.dev.buffer.moveFifo).length ≤ echoFifoSize := by
      simp only [replaySnapshot, List.length_take]
      omega
    have most : Instr.snapshot.mostSteps = 7 * echoFifoSize + 2 := rfl
    rw [mostSteps_append]
    omega

/-- No step of the worker changes a recording that fits. -/
theorem fifo_worker (fits : state.dev.buffer.moveFifo.length ≤ echoFifoSize)
    (own : instr.ofWorker = true) (taken : exec state .worker env instr rest = some done) :
    done.1.buffer.moveFifo = state.dev.buffer.moveFifo := by
  cases instr with
  | snapshot =>
    simp only [exec] at taken
    split at taken <;> cases taken
    · exact replayRefill_eq _ fits
    · rfl
  | _ => first | (cases own; done) | exact (exec_frame taken).fifo (by simp [Instr.writes])

/-- The counter counts what the worker does. -/
theorem replayCount_worker (taken : exec state .worker env instr rest = some done) :
    done.1.buffer.replayCount = state.dev.buffer.replayCount +
      (instr.event (state.thread .worker).delay).toList.count .counted := by
  cases instr with
  | incReplayCount =>
    cases taken
    rfl
  | setNewDataAvail value =>
    cases taken
    cases value <;> rfl
  | setReplayFinished value =>
    cases taken
    cases value <;> rfl
  | _ =>
    rw [(exec_frame taken).replayCount (by simp [Instr.writes])]
    simp [Instr.event]

end Step

section Run
variable {begin start : State} {actions : List Action} {pair : State × Playback}

/-- What holds of the driver and of what has been watched during a run of the worker. -/
structure Watched (start : State) (pair : State × Playback) : Prop where
  playable : Playable pair.1
  shape : WorkerCode (pair.1.code .worker)
  played : PlayedTo (pair.1.thread .worker) pair.2 (pair.1.code .worker)
  bounded : pair.2.steps + mostSteps (pair.1.code .worker) ≤ 7 * echoFifoSize + 7
  keeps : pair.2.keeps = true
  positive : ∀ speed ∈ pair.2.speeds, 1 ≤ speed
  counted : pair.1.dev.buffer.replayCount =
    start.dev.buffer.replayCount + pair.2.trace.count .counted

theorem playable_next {state after : State} {action : Action} (playable : Playable state)
    (moved : next state action = some after) : Playable after where
  owned := owned_next playable.owned moved
  fits := capacity_next playable.fits moved
  speed := replaySpeed_next playable.speed playable.speeds moved
  speeds := setReplaySpeed_next playable.speeds moved

/-- Every state that the driver reaches is one of these. -/
theorem playable_of_run {servo : EchoServoCtx} {clock : Nat} {state : State}
    (run : Run next anyStep (State.initial servo clock) actions state) : Playable state := by
  refine run.invariant Playable ⟨owned_initial servo clock, ?_, ?_, ?_⟩
    fun _ _ _ _ _ playable _ moved => playable_next playable moved
  · exact Nat.zero_le _
  · exact Nat.le_refl 1
  · simp [State.code, State.initial, Thread.initial]

theorem playback_worker {state after : State} {playback : Playback} {env : Env} {instr : Instr}
    {rest : Code} (code : state.code .worker = instr :: rest) :
    playback.update state (.step .worker env) after = playback.record state env instr after := by
  simp [Playback.update, instr?_step code]

theorem playback_other {state after : State} {playback : Playback} {action : Action}
    (other : action.actor ≠ some .worker) : playback.update state action after = playback := by
  cases action with
  | step tid env =>
    cases tid with
    | worker => exact absurd rfl other
    | _ => rfl
  | _ => rfl

/-- Nobody else counts replays. -/
theorem replayCount_other {state after : State} {action : Action} (owned : Owned state)
    (other : action.actor ≠ some .worker) (moved : next state action = some after) :
    after.dev.buffer.replayCount = state.dev.buffer.replayCount := by
  rcases next_device moved with ⟨tid, env, instr, rest, done, rfl, code, taken, rfl⟩ | frame
  · refine (exec_frame taken).replayCount fun writes => ?_
    have own := owned tid instr (by simp [code])
    obtain rfl : instr = .incReplayCount := by
      cases instr <;> first | rfl | simp [Instr.writes] at writes
    cases tid with
    | worker => exact other rfl
    | _ => cases own
  · exact frame.replayCount (by simp)

/-- What is watched does not depend on the other threads. -/
theorem watched_other {state after : State} {playback : Playback} {action : Action}
    (watched : Watched start (state, playback)) (other : action.actor ≠ some .worker)
    (moved : next state action = some after) :
    Watched start (after, playback.update state action after) := by
  have same := thread_next other moved
  have code : after.code .worker = state.code .worker := congrArg Thread.code same
  have count := replayCount_other watched.playable.owned other moved
  rw [playback_other other]
  refine ⟨playable_next watched.playable moved,
    workerCode_next watched.playable.owned watched.shape moved, ?_, ?_, watched.keeps,
    watched.positive, count.trans watched.counted⟩
  · rw [same, code]
    exact watched.played
  · rw [code]
    exact watched.bounded

theorem watched_next {state after : State} {playback : Playback} {action : Action}
    (watched : Watched start (state, playback)) (picks : action ≠ .startWork)
    (moved : next state action = some after) :
    Watched start (after, playback.update state action after) := by
  have playable := playable_next watched.playable moved
  have shape := workerCode_next watched.playable.owned watched.shape moved
  cases worker_moves watched.playable.owned moved with
  | still other => exact watched_other watched other moved
  | start => exact absurd rfl picks
  | step env instr rest done code taken own =>
    rw [playback_worker code]
    have fifo := fifo_worker watched.playable.fits own taken
    have count := replayCount_worker taken
    have nearer := mostSteps_step (code ▸ watched.shape) taken own
    have bounded := watched.bounded
    refine ⟨playable, shape, ?_, ?_, ?_, ?_, ?_⟩
    · rw [settle_thread, settle_code]
      exact playedTo_step watched.playable.fits watched.playable.speed (code ▸ watched.played) taken
    · dsimp only [Playback.record] at bounded ⊢
      rw [code] at bounded
      rw [settle_code]
      omega
    · have keeps := watched.keeps
      dsimp only [Playback.record] at keeps fifo ⊢
      rw [settle_dev, keeps, fifo, decide_eq_true rfl]
      rfl
    · intro speed member
      simp only [Playback.record] at member
      split at member
      · rcases List.mem_append.mp member with before | last
        · exact watched.positive speed before
        · exact List.mem_singleton.mp last ▸ watched.playable.speed
      · exact watched.positive speed member
    · have before := watched.counted
      dsimp only [Playback.record] at before ⊢
      rw [settle_dev, count, before, List.count_append, Nat.add_assoc]

theorem count_playEvents (moves : List EchoMove) (speeds : List Nat) :
    (playEvents moves speeds).count .counted = 0 := by
  induction moves generalizing speeds with
  | nil => rfl
  | cons move later ih =>
    cases speeds with
    | nil => rfl
    | cons speed speeds =>
      have rest := ih speeds
      simp only [playEvents] at rest
      simp [playEvents, EchoMove.events, notifyEvents, rest]

/-- When the worker is back, everything has been decided on and done. -/
theorem PlayedTo.ended {thread : Thread} {playback : Playback}
    (played : PlayedTo thread playback []) : Decided playback [] := by
  generalize whole : ([] : Code) = code at played
  cases played with
  | completing left suffix decided =>
    subst whole
    exact decided
  | asking => simp [bufOpReplayDone] at whole
  | moving => simp [bufOpReplayDone] at whole
  | _ => cases whole

theorem watched_of_run (playable : Playable begin) (picked : next begin .startWork = some start)
    (run : Run nextPlayback (fun _ action => action ≠ .startWork) (start, Playback.initial)
      actions pair) : Watched start pair := by
  obtain ⟨-, started⟩ := next_startWork.mp picked
  have first : start.code .worker = replayWorker := by
    rw [← started]
    simp
  refine run.invariant (Watched start) ?_ ?_
  · refine ⟨playable_next playable picked, ?_, ?_, ?_, rfl, by simp [Playback.initial], rfl⟩
    · exact first ▸ .tail List.suffix_rfl
    · exact first ▸ .waiting rfl
    · dsimp only
      rw [first]
      decide
  · rintro - before action after - watched picks both
    obtain ⟨reached, moved, rfl⟩ := withHistory_next both
    exact watched_next watched picks moved

/-- From its start to its end the worker plays what `should_stop` lets it play, whatever
the other threads do. -/
theorem replay_plays_prefix (playable : Playable begin)
    (picked : next begin .startWork = some start)
    (run : Run nextPlayback (fun _ action => action ≠ .startWork) (start, Playback.initial)
      actions pair) : PlaysFaithfully start pair := by
  have watched := watched_of_run playable picked run
  have ended : pair.1.code .worker = [] → Decided pair.2 [] := fun back =>
    (back ▸ watched.played).ended
  constructor
  · intro ahead env
    obtain ⟨instr, rest, code⟩ := List.exists_cons_of_ne_nil ahead
    have own := watched.playable.owned .worker instr (by simp [code])
    obtain ⟨done, taken⟩ := exec_ofWorker pair.1 own env rest
    exact ⟨_, next_step.mpr ⟨instr, rest, done, code, taken, rfl⟩⟩
  · have bounded := watched.bounded
    have shorter := length_le_mostSteps (pair.1.code .worker)
    omega
  · exact watched.keeps
  · intro back moves found
    cases ended back with
    | unallocated none => simp [found] at none
    | played other snapshot within stopped speeds trace =>
      obtain rfl : moves = other := Option.some.inj (found.symm.trans snapshot)
      rw [List.append_nil] at trace
      refine ⟨⟨within, stopped, speeds, watched.positive, trace⟩, ?_⟩
      rw [watched.counted, trace, List.count_cons_self, List.count_append, count_playEvents]
      rfl
  · intro back none
    cases ended back with
    | unallocated _ answers trace =>
      rw [List.append_nil] at trace
      refine ⟨trace, answers, ?_⟩
      rw [watched.counted, trace]
      rfl
    | played other snapshot => simp [none] at snapshot

end Run

/-- A replay of two moves is about to start. -/
def twoMoves : State :=
  let state := State.initial simServo 0
  { state with dev := { state.dev with
    buffer := ⟨[⟨1, 45, 60⟩, ⟨0, 120, 35⟩], true, 1, 0⟩
    state := { state.dev.state with mode := .replay } } }

theorem playable_twoMoves : Playable twoMoves :=
  ⟨owned_initial simServo 0, by decide, by decide, by
    simp [twoMoves, State.code, State.initial, Thread.initial]⟩

/-- The speed is changed behind the first move. -/
def replayFaster : List Action :=
  steps .worker 9 ++ [.call (.proc 0) (.ioctl (.setSpeed (some 3)))] ++ steps (.proc 0) 2 ++
  steps .worker 12

theorem replay_plays_prefix_twoMoves : ∃ start pair, next twoMoves .startWork = some start ∧
    run nextPlayback (start, Playback.initial) replayFaster = some pair ∧
    pair.1.code .worker = [] ∧ .slept 60 ∈ pair.2.trace ∧ .slept 11 ∈ pair.2.trace ∧
    PlaysFaithfully start pair := by
  have passed : ((next twoMoves .startWork).bind fun start =>
      run nextPlayback (start, Playback.initial) replayFaster).any (fun pair =>
        pair.1.idle .worker && decide (.slept 60 ∈ pair.2.trace ∧ .slept 11 ∈ pair.2.trace)) =
      true := by decide
  obtain ⟨pair, both, facts⟩ := (Option.any_eq_true _ _).mp passed
  obtain ⟨start, picked, ran⟩ := Option.bind_eq_some_iff.mp both
  simp only [Bool.and_eq_true, decide_eq_true_eq] at facts
  have watched : Run nextPlayback (fun _ action => action ≠ .startWork)
      (start, Playback.initial) replayFaster pair := by
    refine .ofExecution ran fun action member _ same => ?_
    simp [same, replayFaster, steps] at member
  exact ⟨start, pair, picked, ran, by simpa [State.idle] using facts.1, facts.2.1, facts.2.2,
    replay_plays_prefix playable_twoMoves picked watched⟩

end EchoRobot
