import EchoRobot.Interleaving.Pacing
import EchoRobot.Replay.Playback

/-! The replay in real time. `msleep` may be late, and whatever else the worker does takes
little time; then the moves come at the pace of the recording. -/

namespace EchoRobot

open Interleaving

/-- In ns. -/
def Event.takes : Event → Nat
  | .slept ms => ms * 1000000
  | _ => 0

/-- What the worker is about to sleep. -/
def State.pause (state : State) : Nat :=
  match state.code .worker with
  | .msleep :: _ => (state.thread .worker).delay * 1000000
  | _ => 0

/-- The playback with a clock: when the worker did what, and when it came to where it is. -/
structure Pace where
  playback : Playback
  log : List (Event × Nat)
  since : Nat

def Pace.initial (begun : Nat) : Pace := ⟨Playback.initial, [], begun⟩

def Pace.update (pace : Pace) (state : State) (action : Action) (after : State) : Pace :=
  match action, state.instr? action with
  | .step .worker env, some instr =>
    { playback := pace.playback.record state env instr after
      log := pace.log ++
        (instr.event (state.thread .worker).delay).toList.map fun event => (event, state.clock)
      since := state.clock }
  | _, _ => pace

abbrev nextPace := withHistory next Pace.update

/-- The worker sleeps no shorter than it is told to. Time passes while it is at work only as
long as it is not later than `late` with what it does next. -/
def InPace (late begun : Nat) (pair : State × Pace) : Action → Prop
  | .step .worker _ => pair.2.since + pair.1.pause ≤ pair.1.clock
  | .tick ns => pair.1.code .worker ≠ [] →
    pair.1.clock + ns ≤ latest begun pair.2.log + pair.1.pause + late
  | .startWork => False
  | _ => True

instance (late begun : Nat) (pair : State × Pace) (action : Action) :
    Decidable (InPace late begun pair action) := by
  unfold InPace
  split <;> infer_instance

theorem playback_update (pace : Pace) (state : State) (action : Action) (after : State) :
    (pace.update state action after).playback = pace.playback.update state action after := by
  cases action with
  | step tid env =>
    cases tid with
    | worker =>
      simp only [Pace.update, Playback.update]
      cases state.instr? (.step .worker env) <;> rfl
    | _ => rfl
  | _ => rfl

/-- What has been done so far came at its time. -/
structure OnPace (late begun : Nat) (pair : State × Pace) : Prop where
  logged : pair.2.log.map Prod.fst = pair.2.playback.trace
  paced : Paced Event.takes late begun pair.2.log
  since : latest begun pair.2.log ≤ pair.2.since
  clock : pair.2.since ≤ pair.1.clock
  prompt : pair.1.code .worker ≠ [] → pair.1.clock ≤ latest begun pair.2.log + pair.1.pause + late

section Step
variable {late begun : Nat} {state after : State} {pace : Pace} {action : Action}

/-- Only a sleep takes time. -/
theorem takes_pause {instr : Instr} {rest : Code} {event : Event}
    (code : state.code .worker = instr :: rest)
    (done : instr.event (state.thread .worker).delay = some event) :
    event.takes = state.pause := by
  unfold State.pause
  rw [code]
  cases instr with
  | setNewDataAvail value =>
    cases value <;> cases done
    rfl
  | setReplayFinished value =>
    cases value <;> cases done
    rfl
  | _ =>
    cases done
    try rfl

theorem pause_silent {instr : Instr} {rest : Code} (code : state.code .worker = instr :: rest)
    (silent : instr.event (state.thread .worker).delay = none) : state.pause = 0 := by
  unfold State.pause
  rw [code]
  cases instr with
  | msleep => cases silent
  | _ => rfl

theorem onPace_worker {env : Env} {instr : Instr} {rest : Code} {done : EchoDevice × Thread}
    (on : OnPace late begun (state, pace)) (slept : pace.since + state.pause ≤ state.clock)
    (code : state.code .worker = instr :: rest) :
    OnPace late begun (state.settle .worker done.1 done.2,
      pace.update state (.step .worker env) (state.settle .worker done.1 done.2)) := by
  have prompt := on.prompt (by simp [code])
  have since := on.since
  have logged := on.logged
  dsimp only at prompt since logged
  simp only [Pace.update, instr?_step code]
  cases effect : instr.event (state.thread .worker).delay with
  | none =>
    have rested := pause_silent code effect
    rw [rested] at prompt
    refine ⟨?_, ?_, ?_, le_rfl, fun _ => ?_⟩
    · simpa [Playback.record, effect] using logged
    · simpa using on.paced
    · simp only [Option.toList_none, List.map_nil, List.append_nil]
      omega
    · simp only [Option.toList_none, List.map_nil, List.append_nil, settle_clock]
      omega
  | some event =>
    have takes := takes_pause code effect
    refine ⟨?_, on.paced.snoc ?_ ?_, ?_, le_rfl, fun _ => ?_⟩
    · simp [Playback.record, effect, logged]
    · dsimp only
      omega
    · rw [takes]
      exact prompt
    · simp
    · simp only [Option.toList_some, List.map_cons, List.map_nil, latest_snoc, settle_clock]
      omega

theorem clock_steady (other : ∀ ns, action ≠ .tick ns) (moved : next state action = some after) :
    after.clock = state.clock := by
  cases action with
  | call tid request =>
    obtain ⟨-, rfl⟩ := next_call.mp moved
    rfl
  | step tid env =>
    obtain ⟨instr, rest, done, -, -, rfl⟩ := next_step.mp moved
    rfl
  | expire =>
    obtain ⟨-, rfl⟩ := next_expire.mp moved
    rfl
  | startWork =>
    obtain ⟨-, rfl⟩ := next_startWork.mp moved
    rfl
  | tick ns => exact absurd rfl (other ns)
  | signal tid =>
    obtain ⟨-, rfl⟩ := next_signal.mp moved
    rfl

/-- The others do not disturb the worker's time. -/
theorem onPace_next (owned : Owned state) (on : OnPace late begun (state, pace))
    (ok : InPace late begun (state, pace) action) (moved : next state action = some after) :
    OnPace late begun (after, pace.update state action after) := by
  cases worker_moves owned moved with
  | start => cases ok
  | step env instr rest done code taken own => exact onPace_worker on ok code
  | still other same =>
    have code : after.code .worker = state.code .worker := congrArg Thread.code same
    have pause : after.pause = state.pause := by
      unfold State.pause
      rw [code, same]
    have still : pace.update state action after = pace := by
      unfold Pace.update
      split
      · exact absurd rfl other
      · rfl
    rw [still]
    by_cases tick : ∃ ns, action = .tick ns
    · obtain ⟨ns, rfl⟩ := tick
      obtain rfl := next_tick.mp moved
      exact ⟨on.logged, on.paced, on.since, on.clock.trans (Nat.le_add_right ..), ok⟩
    · have steady := clock_steady (not_exists.mp tick) moved
      refine ⟨on.logged, on.paced, on.since, ?_, fun busy => ?_⟩
      · rw [steady]
        exact on.clock
      · dsimp only at busy ⊢
        rw [steady, pause]
        exact on.prompt (code ▸ busy)

end Step

/-- When the replay moved a servo. -/
def moments (log : List (Event × Nat)) : List Nat :=
  log.filterMap fun entry => match entry.1 with
    | .moved _ _ => some entry.2
    | _ => none

/-- In ms, before a move that is played at a speed. -/
def EchoMove.pause (move : EchoMove) (speed : Nat) : Nat := max 10 (move.delayMs / speed)

theorem playEvents_cons (move : EchoMove) (moves : List EchoMove) (speed : Nat)
    (speeds : List Nat) : playEvents (move :: moves) (speed :: speeds) =
      .slept (move.pause speed) :: .moved move.servoId move.angle :: .announced :: .woken .read ::
        playEvents moves speeds := rfl

theorem log_cons {log : List (Event × Nat)} {event : Event} {events : List Event}
    (same : log.map Prod.fst = event :: events) :
    ∃ moment later, log = (event, moment) :: later ∧ later.map Prod.fst = events := by
  obtain ⟨⟨_, moment⟩, later, rfl, rfl, rest⟩ := List.map_eq_cons_iff.mp same
  exact ⟨moment, later, rfl, rest⟩

theorem moments_done {log : List (Event × Nat)} (events : log.map Prod.fst = replayDoneEvents) :
    moments log = [] := by
  refine List.filterMap_eq_nil_iff.mpr fun entry member => ?_
  have inside : entry.1 ∈ replayDoneEvents := events ▸ List.mem_map_of_mem member
  obtain ⟨event, moment⟩ := entry
  cases event with
  | moved => simp [replayDoneEvents, notifyEvents] at inside
  | _ => rfl

/-- From move to move the replay takes the pause, and what the four events are late. -/
theorem paced_moves {late begun moved : Nat} {moves : List EchoMove} {speeds : List Nat}
    {log : List (Event × Nat)} (paced : Paced Event.takes late begun log)
    (events : log.map Prod.fst = playEvents moves speeds ++ replayDoneEvents)
    (early : moved ≤ begun) (near : begun ≤ moved + 2 * late) :
    (moments log).length = (List.zipWith EchoMove.pause moves speeds).length ∧
      Paced (· * 1000000) (4 * late) moved
        ((List.zipWith EchoMove.pause moves speeds).zip (moments log)) := by
  have silent : ∀ {log : List (Event × Nat)}, log.map Prod.fst = replayDoneEvents →
      (moments log).length = 0 := fun events => by rw [moments_done events, List.length_nil]
  induction moves generalizing speeds log begun moved with
  | nil => exact ⟨silent events, trivial⟩
  | cons move moves ih =>
    cases speeds with
    | nil => exact ⟨silent events, trivial⟩
    | cons speed speeds =>
      rw [playEvents_cons] at events
      obtain ⟨slept, log, rfl, afterSleep⟩ := log_cons events
      obtain ⟨moment, log, rfl, afterMove⟩ := log_cons afterSleep
      obtain ⟨announced, log, rfl, afterNews⟩ := log_cons afterMove
      obtain ⟨woken, log, rfl, onward⟩ := log_cons afterNews
      obtain ⟨sleeps, moves, announces, wakes, later⟩ := paced
      simp only [Event.takes] at sleeps moves announces wakes
      have after : moment ≤ woken := by omega
      have soon : woken ≤ moment + 2 * late := by omega
      obtain ⟨length, later⟩ := ih later onward after soon
      refine ⟨congrArg (· + 1) length, ?_, later⟩
      dsimp only
      omega

section Run
variable {late : Nat} {begin start : State} {actions : List Action} {pair : State × Pace}

theorem watched_of_pace (playable : Playable begin) (picked : next begin .startWork = some start)
    (run : Run nextPace (InPace late start.clock) (start, Pace.initial start.clock) actions pair) :
    Watched start (pair.1, pair.2.playback) ∧ OnPace late start.clock pair := by
  constructor
  · refine watched_of_run playable picked ((run.viewed Pace.playback playback_update).mono _ ?_)
    rintro state action ⟨pace, -, ok⟩ rfl
    exact ok
  · have playable := playable_next playable picked
    refine (run.invariant (fun pair => Playable pair.1 ∧ OnPace late start.clock pair) ?_ ?_).2
    · refine ⟨playable, rfl, trivial, le_rfl, le_rfl, fun _ => ?_⟩
      exact (Nat.le_add_right ..).trans (Nat.le_add_right ..)
    · rintro - ⟨before, pace⟩ action after - ⟨playable, on⟩ ok both
      obtain ⟨reached, moved, rfl⟩ := withHistory_next both
      exact ⟨playable_next playable moved, onPace_next playable.owned on ok moved⟩

/-- Every move comes its pause after the one before it. -/
structure KeepsPace (late begun : Nat) (moves : List EchoMove) (pace : Pace) : Prop where
  within : pace.playback.speeds.length ≤ moves.length
  positive : ∀ speed ∈ pace.playback.speeds, 1 ≤ speed
  length : (moments pace.log).length = pace.playback.speeds.length
  paced : Paced (· * 1000000) (4 * late) begun
    ((List.zipWith EchoMove.pause moves pace.playback.speeds).zip (moments pace.log))

theorem keepsPace_of_run {moves : List EchoMove} (playable : Playable begin)
    (picked : next begin .startWork = some start)
    (run : Run nextPace (InPace late start.clock) (start, Pace.initial start.clock) actions pair)
    (back : pair.1.code .worker = []) (found : pair.2.playback.snapshot = some moves) :
    KeepsPace late start.clock moves pair.2 := by
  obtain ⟨watched, on⟩ := watched_of_pace playable picked run
  have logged := on.logged
  have paced := on.paced
  cases (back ▸ watched.played : PlayedTo _ _ []).ended with
  | unallocated none => simp [found] at none
  | played other snapshot within stopped speeds trace =>
    obtain rfl : moves = other := Option.some.inj (found.symm.trans snapshot)
    rw [List.append_nil] at trace
    obtain ⟨counted, log, whole, events⟩ := log_cons (logged.trans trace)
    rw [whole] at paced
    obtain ⟨counts, later⟩ := paced
    simp only [Event.takes] at counts
    have after : start.clock ≤ counted := by omega
    have soon : counted ≤ start.clock + 2 * late := by omega
    obtain ⟨length, paced⟩ := paced_moves later events after soon
    have all : List.zipWith EchoMove.pause (moves.take pair.2.playback.unstopped)
        pair.2.playback.speeds = List.zipWith EchoMove.pause moves pair.2.playback.speeds := by
      refine (List.zipWith_eq_zipWith_take_min.trans ?_).symm
      rw [speeds, Nat.min_eq_right within, List.take_of_length_le speeds.le]
    have made : moments pair.2.log = moments log := by rw [whole]; rfl
    rw [all, ← made] at length paced
    refine ⟨speeds.trans_le within, watched.positive, ?_, paced⟩
    rw [length, List.length_zipWith, speeds, Nat.min_eq_right within]

end Run

end EchoRobot
