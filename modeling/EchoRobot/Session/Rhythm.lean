import EchoRobot.Replay.Pace
import EchoRobot.Session.Timing
import Mathlib.Data.List.Chain

/-! The rhythm of a session and of its replay: between two moves the replay takes the time
that the session took, at the speed it is played at. -/

namespace EchoRobot

open Interleaving

/-- When a move was recorded, and whether its session had begun before it. -/
structure Stamp where
  moment : Nat
  within : Bool

def recordsMove (mode : EchoMode) : RobotEvent → Bool
  | .input _ _ => mode != .replay
  | _ => false

/-- The stamps of the moves on record. -/
def nextStamps (seen : Robot × Nat) (stamps : List Stamp) (event : RobotEvent) : List Stamp :=
  if clearsBuffer event then []
  else if recordsMove seen.1.mode event then
    echoBufferRecord stamps ⟨seen.2, seen.1.mode == .teach⟩
  else stamps

def anyEvent (_ : Robot × Nat) (_ : List Stamp) (_ : RobotEvent) : Prop := True

instance (seen : Robot × Nat) (stamps : List Stamp) (event : RobotEvent) :
    Decidable (anyEvent seen stamps event) := .isTrue trivial

/-- The driver, with the stamps of its recording. -/
abbrev StampedHappens := Beside Happens State.view anyEvent nextStamps

abbrev stampedNext := nextBeside RobotSystem.next RobotSystem.view anyEvent nextStamps

theorem stamped_agrees : Agrees StampedHappens stampedNext StandsBeside :=
  driver_agrees.beside fun _ _ stands => stands.view

/-- A new session leaves out the time since the one before. -/
def gap (before after : Stamp) : Nat :=
  if after.within then toU32 (ktimeMsDelta after.moment before.moment) else 0

theorem zip_echoBufferRecord {Move Other : Type} {fifo : List Move} {stamps : List Other}
    (same : fifo.length = stamps.length) (move : Move) (stamp : Other) :
    (echoBufferRecord fifo move).zip (echoBufferRecord stamps stamp) =
      echoBufferRecord (fifo.zip stamps) (move, stamp) := by
  unfold echoBufferRecord
  rw [List.length_zip, ← same, Nat.min_self]
  split
  · rw [List.zip_append (by simp [same]), List.zip, List.drop_zipWith]
    rfl
  · rw [List.zip_append same]
    rfl

theorem length_record_eq {Move Other : Type} {fifo : List Move} {stamps : List Other}
    (same : fifo.length = stamps.length) (move : Move) (stamp : Other) :
    (echoBufferRecord fifo move).length = (echoBufferRecord stamps stamp).length := by
  unfold echoBufferRecord
  rw [← same]
  split <;> simp [same]

theorem isChain_echoBufferRecord {Entry : Type} {related : Entry → Entry → Prop}
    {fifo : List Entry} {entry : Entry} (chain : fifo.IsChain related)
    (last : ∀ before ∈ fifo.getLast?, related before entry) :
    (echoBufferRecord fifo entry).IsChain related := by
  unfold echoBufferRecord
  refine List.IsChain.append ?_ (.singleton entry) ?_
  · split
    · exact chain.drop 1
    · exact chain
  · intro before member after single
    obtain rfl : entry = after := by simpa using single
    refine last before ?_
    split at member
    · rw [List.getLast?_drop] at member
      split at member
      · cases member
      · exact member
    · exact member

/-- The recording holds the gaps between its stamps. -/
structure Stamped (pair : RobotSystem × List Stamp) : Prop where
  length : pair.1.robot.recording.length = pair.2.length
  gaps : (pair.1.robot.recording.zip pair.2).IsChain
    fun one two => two.1.delayMs = gap one.2 two.2
  last : pair.1.robot.mode = .teach → ∀ stamp ∈ pair.2.getLast?,
    stamp.moment = pair.1.robot.lastMove

section Step
variable {pair after : RobotSystem × List Stamp} {event : RobotEvent}

theorem stamped_empty {system : RobotSystem} (none : system.robot.recording = []) :
    Stamped (system, []) := by
  refine ⟨?_, ?_, by rintro - stamp ⟨⟩⟩ <;> dsimp only <;> rw [none]
  · rfl
  · exact .nil

theorem stamped_next (stamped : Stamped pair) (moved : stampedNext pair event = some after) :
    Stamped after := by
  obtain ⟨system, stamps⟩ := pair
  obtain ⟨reached, stamps'⟩ := after
  obtain ⟨-, moved, next⟩ := nextBeside_some.mp moved
  have length := stamped.length
  have last := stamped.last
  dsimp only at moved next length last
  rw [RobotSystem.view] at next
  cases ages_next moved with
  | teaches arms clears clock robot =>
    rw [nextStamps, if_pos clears] at next
    subst next
    exact stamped_empty (by rw [robot]; rfl)
  | resets arms clears clock robot =>
    rw [nextStamps, if_pos clears] at next
    subst next
    exact stamped_empty (by rw [robot]; rfl)
  | records servo delta active clock robot =>
    have records : (system.robot.mode != .replay) = true := by simpa using active
    rw [nextStamps, if_neg (by simp [clearsBuffer]), recordsMove, if_pos records] at next
    subst next
    refine ⟨?_, ?_, ?_⟩ <;> dsimp only <;> rw [robot, Robot.input, if_neg active]
    · exact length_record_eq length _ _
    · dsimp only [Robot.notify, Robot.counted]
      rw [zip_echoBufferRecord length]
      refine isChain_echoBufferRecord stamped.gaps fun before member => ?_
      have held : before.2 ∈ stamps.getLast? := by
        rw [← List.map_snd_zip length.ge, List.getLast?_map]
        exact Option.mem_map_of_mem Prod.snd member
      cases mode : system.robot.mode with
      | idle =>
        -- A session that begins with an input times it from itself.
        rw [if_pos rfl, ktimeMsDelta_of_le le_rfl, Nat.sub_self]
        rfl
      | teach =>
        rw [← last mode before.2 held]
        rfl
      | replay => exact absurd mode active
    · intro teach stamp member
      obtain rfl : stamp = ⟨system.clock, system.robot.mode == .teach⟩ := by
        simpa [echoBufferRecord] using member.symm
      rfl
  | passes ns =>
    subst next
    exact ⟨length, stamped.gaps, last⟩
  | goesOn arms clears clock same =>
    have silent : recordsMove system.robot.mode event = false := by
      cases event <;> first | rfl | exact arms
    rw [nextStamps, if_neg (by simp [clears]), if_neg (by simp [silent])] at next
    subst next
    refine ⟨?_, ?_, fun mode => ?_⟩ <;> dsimp only
    · rw [same.recording]
      exact length
    · rw [same.recording]
      exact stamped.gaps
    · rw [same.last]
      exact last (same.mode mode).1

theorem stamped_run {pos : Fin echoNumServos → Nat} {clock : Nat} {events : List RobotEvent}
    (ran : run stampedNext (RobotSystem.initial pos clock, []) events = some after) :
    Stamped after :=
  run_invariant ran (stamped_empty rfl) fun _ _ _ stamped moved => stamped_next stamped moved

end Step

section Events
variable {state entered after : State} {tid : Tid}

theorem run_of_stops {action : Action} (enters : next state action = some entered)
    (stops : Stops tid entered after) : ∃ actions, Run next anyStep state actions after := by
  obtain ⟨-, count, ran⟩ := stops
  have first : Run next anyStep state ([] ++ [action]) entered := .step .refl trivial enters
  exact ⟨_, first.trans (.ofExecution ran fun _ _ _ => trivial)⟩

theorem run_of_happens {event : RobotEvent} (happened : Happens state event after) :
    ∃ actions, Run next anyStep state actions after := by
  cases happened with
  | request enters stops => exact run_of_stops enters stops
  | input enters stops => exact run_of_stops enters stops
  | expire enters stops => exact run_of_stops enters stops
  | perform enters stops => exact run_of_stops enters stops
  | resume awake stops =>
    obtain ⟨-, count, ran⟩ := stops
    exact ⟨_, .ofExecution ran fun _ _ _ => trivial⟩
  | interrupt leaves => exact ⟨_, .step .refl trivial leaves⟩
  | pass ns => exact ⟨_, .step .refl trivial (next_tick.mpr rfl)⟩

/-- Events, each taken to its end, are a run. -/
theorem run_of_happening {events : List RobotEvent}
    (happening : Happening Happens state events after) :
    ∃ actions, Run next anyStep state actions after := by
  induction happening with
  | refl => exact ⟨_, .refl⟩
  | step before happened ih =>
    obtain ⟨earlier, ran⟩ := ih
    obtain ⟨later, onward⟩ := run_of_happens happened
    exact ⟨_, ran.trans onward⟩

end Events

/-- Between two moves the replay takes as long as the session did, at the speed of the second
one, but not less than 10 ms, and up to four times `late` more. -/
structure Echoes (late : Nat) (stamps : List Stamp) (pace : Pace) : Prop where
  within : (moments pace.log).length ≤ stamps.length
  paused : ∀ index, (inside : index + 1 < (moments pace.log).length) →
    (held : index + 1 < stamps.length) → ∃ speed ∈ pace.playback.speeds[index + 1]?, 1 ≤ speed ∧
      let pause := max 10 (gap stamps[index] stamps[index + 1] / speed) * 1000000
      (moments pace.log)[index] + pause ≤ (moments pace.log)[index + 1] ∧
        (moments pace.log)[index + 1] ≤ (moments pace.log)[index] + pause + 4 * late

section Echo
variable {late begun : Nat} {pace : Pace} {stamps : List Stamp}

theorem echoes_of_pace {moves : List EchoMove} (keeps : KeepsPace late begun moves pace)
    (length : moves.length = stamps.length)
    (gaps : (moves.zip stamps).IsChain fun one two => two.1.delayMs = gap one.2 two.2) :
    Echoes late stamps pace := by
  have within := keeps.within
  have made := keeps.length
  refine ⟨by omega, fun index inside held => ?_⟩
  have known : index + 1 < pace.playback.speeds.length := made ▸ inside
  have taught : index + 1 < moves.length := length ▸ held
  refine ⟨pace.playback.speeds[index + 1], List.getElem?_eq_getElem known,
    keeps.positive _ (List.getElem_mem known), ?_⟩
  have delay := List.isChain_iff_getElem.mp gaps index (by simp [taught, held])
  have both : index + 1 < ((List.zipWith EchoMove.pause moves pace.playback.speeds).zip
      (moments pace.log)).length := by
    simp [inside, known, taught]
  have paced := keeps.paced.between both
  simp only [List.getElem_zip, List.getElem_zipWith] at delay paced
  rw [EchoMove.pause, delay] at paced
  exact paced

/-- What a session recorded, and whatever goes on beside the replay. -/
theorem replay_echoes_session {servo : EchoServoCtx} {clock : Nat} {events : List RobotEvent}
    {begin start : State} {actions : List Action} {pair : State × Pace}
    (happening : Happening StampedHappens (State.initial servo clock, []) events (begin, stamps))
    (picked : next begin .startWork = some start)
    (run : Run nextPace (InPace late start.clock) (start, Pace.initial start.clock) actions pair)
    (back : pair.1.code .worker = [])
    (found : pair.2.playback.snapshot = some begin.dev.buffer.moveFifo) :
    Echoes late stamps pair.2 := by
  have begins : StandsBeside (State.initial servo clock, ([] : List Stamp))
      (RobotSystem.initial servo.pos clock, []) := ⟨stands_initial servo clock, rfl⟩
  obtain ⟨⟨system, stamps'⟩, ran, stands, same⟩ := stamped_agrees.run_sound begins happening
  obtain rfl : stamps = stamps' := same
  have stamped := stamped_run ran
  have recording : system.robot.recording = begin.dev.buffer.moveFifo :=
    congrArg Robot.recording stands.robot
  obtain ⟨earlier, reached⟩ := run_of_happening happening.alone
  have keeps := keepsPace_of_run (playable_of_run reached) picked run back found
  exact echoes_of_pace keeps (recording ▸ stamped.length) (recording ▸ stamped.gaps)

end Echo

theorem happening_snoc {events : List RobotEvent} {event : RobotEvent} {middle after : State}
    {start : State × List Stamp} {stamps : List Stamp}
    (happening : Happening StampedHappens start events (middle, stamps))
    (happened : Happens middle event after) :
    Happening StampedHappens start (events ++ [event])
      (after, nextStamps middle.view stamps event) :=
  .step happening ⟨happened, trivial, rfl⟩

theorem stops_of_run {state after : State} {action : Action} {tid : Tid} {count : Nat}
    (ran : run next state (action :: steps tid count) = some after)
    (idle : after.idle tid = true) :
    ∃ entered, next state action = some entered ∧ Stops tid entered after := by
  obtain ⟨entered, enters, onward⟩ := Option.bind_eq_some_iff.mp ran
  exact ⟨entered, enters, Or.inl (by simpa [State.idle] using idle), count, onward⟩

/-- The second direction comes 40 ms after the first. -/
def upThenLeft : List RobotEvent := [.input 0 .up, .pass 40000000, .input 0 .left, .expire]

/-- The worker sleeps 10.3 ms and 40 ms; meanwhile somebody asks for the state. -/
def playBoth : List Action :=
  steps .worker 5 ++ [.tick 10300000] ++ steps .worker 4 ++ [.call (.proc 0) (.ioctl .getState)] ++
  steps .worker 3 ++ [.tick 40000000] ++ steps .worker 9

theorem replay_echoes_session_upThenLeft :
    ∃ (begin start : State) (stamps : List Stamp) (pair : State × Pace),
    Happening StampedHappens (State.initial simServo 0, []) upThenLeft (begin, stamps) ∧
    next begin .startWork = some start ∧ pair.1.code .worker = [] ∧
    (moments pair.2.log).length = 2 ∧ Echoes 1000000 stamps pair.2 := by
  have passed : ((run next (State.initial simServo 0)
      (.call (.irq 0) (.input .up) :: steps (.irq 0) 10)).bind fun up =>
      (next up (.tick 40000000)).bind fun later =>
      (run next later (.call (.irq 0) (.input .left) :: steps (.irq 0) 10)).bind fun left =>
      (run next left (.expire :: steps .timer 4)).bind fun begin =>
      (next begin .startWork).bind fun start =>
      (run (guarded (fun pair action => decide (InPace 1000000 start.clock pair action)) nextPace)
        (start, Pace.initial start.clock) playBoth).map fun pair : State × Pace =>
          up.idle (.irq 0) && left.idle (.irq 0) && begin.idle .timer && pair.1.idle .worker &&
          decide (pair.2.playback.snapshot = some begin.dev.buffer.moveFifo) &&
          decide ((moments pair.2.log).length = 2)) = some true := by decide
  simp only [Option.map_eq_some_iff, Option.bind_eq_some_iff, Bool.and_eq_true,
    decide_eq_true_eq] at passed
  obtain ⟨up, first, later, waits, left, second, begin, silence, start, picked, pair, played,
    ⟨⟨⟨⟨upIdle, leftIdle⟩, timerIdle⟩, workerIdle⟩, found⟩, both⟩ := passed
  obtain ⟨_, enters, stops⟩ := stops_of_run first upIdle
  obtain ⟨_, enters', stops'⟩ := stops_of_run second leftIdle
  obtain ⟨_, expires, starts⟩ := stops_of_run silence timerIdle
  obtain rfl := next_tick.mp waits
  have nothing : Happening StampedHappens (State.initial simServo 0, []) []
      (State.initial simServo 0, []) := .refl
  have happening := happening_snoc (happening_snoc (happening_snoc (happening_snoc nothing
    (.input enters stops)) (.pass 40000000)) (.input enters' stops')) (.expire expires starts)
  have paced : Run nextPace (InPace 1000000 start.clock) (start, Pace.initial start.clock)
      playBoth pair := (Run.ofGuarded played).mono _ fun _ _ ok => of_decide_eq_true ok
  have back : pair.1.code .worker = [] := by simpa [State.idle] using workerIdle
  exact ⟨begin, start, _, pair, happening, picked, back, both,
    replay_echoes_session happening picked paced back found⟩

end EchoRobot
