import EchoRobot.Model.Threads
import Mathlib.Algebra.GroupWithZero.Nat
import Mathlib.Data.List.Nodup

/-! The delays of recorded moves. The clock is sampled before the lock that
protects `last_move_time` is taken, and a `TEACH` request stores its own sample
after the mode, so samples and stores may come in different orders. -/

namespace EchoRobot

open Interleaving

/-- A delay with the times it was measured from and to. -/
structure Measured where
  earlier : Nat
  later : Nat
  delayMs : Nat

def Measured.length (measured : Measured) : Nat := measured.later - measured.earlier

/-- `start` is when the teach session in force began; `origin` is what each
thread has measured its delay from, `unrecorded` lists the threads that have
measured but not recorded, `recorded` the delays recorded in this session, and
`log` those of all sessions, each with the start of its own. -/
structure Session where
  start : Nat
  origin : Tid → Nat
  unrecorded : List Tid
  recorded : List Measured
  log : List (Nat × Measured)

def Session.initial (clock : Nat) : Session := ⟨clock, fun _ => 0, [], [], []⟩

/-- The delay a thread is about to record. -/
def Session.held (session : Session) (state : State) (tid : Tid) : Measured :=
  ⟨session.origin tid, (state.thread tid).now, (state.thread tid).delayMs⟩

/-- The step begins a teach session: a request, or the first input from `IDLE`. -/
def opensSession (state : State) (action : Action) : Bool :=
  match state.instr? action with
  | some (.lockSetMode .teach) => true
  | some .lockHandleInput => state.dev.state.mode == .idle
  | _ => false

def Session.update (session : Session) (state : State) (action : Action) (_ : State) : Session :=
  if opensSession state action then { session with start := state.clock, recorded := [] } else
  match action, state.instr? action with
  | .step tid _, some .seqlockDelay =>
    { session with
      origin := Function.update session.origin tid state.dev.state.lastMoveTime
      unrecorded := tid :: session.unrecorded }
  | .step tid _, some (.recordMove _) =>
    { session with
      unrecorded := session.unrecorded.erase tid
      recorded := session.recorded ++ [session.held state tid]
      log := session.log ++ [(session.start, session.held state tid)] }
  | _, _ => session

abbrev nextSession := withHistory next Session.update

/-- The delay is the real time between two moments of the session. -/
def Measured.real (measured : Measured) (start : Nat) (now : Nat) : Prop :=
  start ≤ measured.earlier ∧ measured.earlier ≤ measured.later ∧ measured.later ≤ now ∧
    measured.delayMs = measured.length / 1000000

/-- Milliseconds since the session began. -/
def elapsedMs (pair : State × Session) : Nat := (pair.1.clock - pair.2.start) / 1000000

/-- Every delay of the recording was measured in the session it belongs to. -/
def Logged (pair : State × Session) : Prop :=
  ∀ move ∈ pair.1.dev.buffer.moveFifo, ∃ start measured, (start, measured) ∈ pair.2.log ∧
    measured.delayMs = move.delayMs ∧ measured.real start pair.1.clock

structure DelaysReal (pair : State × Session) : Prop where
  logged : Logged pair
  real : ∀ measured ∈ pair.2.recorded, measured.real pair.2.start pair.1.clock
  bounded : ∀ measured ∈ pair.2.recorded, measured.delayMs ≤ elapsedMs pair
  sum : (pair.2.recorded.map Measured.delayMs).sum ≤ elapsedMs pair

/-- The time an action stores in `last_move_time`. -/
def storedTime (state : State) (action : Action) : Option Nat :=
  match action, state.instr? action with
  | .step tid _, some .seqlockDelay | .step tid _, some .setLastMoveTime =>
    some (state.thread tid).now
  | _, some .lockHandleInput => if state.dev.state.mode = .idle then some state.clock else none
  | _, _ => none

def isStore : Instr → Bool
  | .seqlockDelay | .setLastMoveTime => true
  | _ => false

def isRecord : Instr → Bool
  | .recordMove _ => true
  | _ => false

/-- The thread holds a clock sample that it has not stored. -/
def State.sampled (state : State) (tid : Tid) : Prop :=
  (state.code tid).head?.any isStore = true

/-- The thread has measured a delay that it has not recorded. -/
def State.measured (state : State) (tid : Tid) : Prop :=
  (state.code tid).head?.any isRecord = true

/-- Times are stored in the order in which they were sampled; a delay is measured
only after the session's own time is stored; and a session begins only while no
delay is measured and not recorded. -/
structure StoresInOrder (pair : State × Session) (action : Action) : Prop where
  order : ∀ time, storedTime pair.1 action = some time →
    ∀ other, action.actor ≠ some other → pair.1.sampled other → time ≤ (pair.1.thread other).now
  opened : pair.1.instr? action = some .seqlockDelay →
    pair.2.start ≤ pair.1.dev.state.lastMoveTime
  settled : opensSession pair.1 action = true → ∀ tid, ¬ pair.1.measured tid

/-- A session lasts less than `2 ^ 32` milliseconds. -/
def ShortSession (pair : State × Session) (action : Action) : Prop :=
  pair.1.instr? action = some .seqlockDelay → elapsedMs pair < u32Size

/-- Neither a store nor a record is next. -/
def untimed (code : Code) : Bool := !code.head?.any isStore && !code.head?.any isRecord

/-- A sample is followed by its store, a measurement by its record, and nothing
else comes before a store or a record. -/
def timeRule : Instr → Code → Bool
  | .ktimeGet, rest => rest.head?.any isStore
  | .seqlockDelay, rest => rest.head?.any isRecord
  | _, rest => untimed rest

theorem timeRule_lawful : CodeRule timeRule where
  entry tid code entry := by
    cases entry with
    | read id nonblock count => cases nonblock <;> rfl
    | input id pin => cases pin <;> rfl
    | _ => rfl
  timer := by decide
  worker := by decide
  stop := by decide
  unroll moves rest shape := by
    refine obeys_replayLoop (fun instr before own loop => ?_) (obeys_tail shape)
    have head : untimed (before ++ rest) = true := by
      refine head_loop (fun head => !head.any isStore && !head.any isRecord) loop ?_
        (obeys_head shape)
      intro first own
      cases first <;> first | rfl | cases own
    cases instr <;> first | exact head | cases own

/-- The delays recorded or about to be recorded fill at most the time from the
start of the session to `last_move_time`. -/
structure Timed (pair : State × Session) : Prop where
  last : pair.1.dev.state.lastMoveTime ≤ pair.1.clock
  start : pair.2.start ≤ pair.1.clock
  samples : ∀ tid, pair.1.sampled tid →
    pair.1.dev.state.lastMoveTime ≤ (pair.1.thread tid).now ∧
      (pair.1.thread tid).now ≤ pair.1.clock
  unrecorded : ∀ tid, tid ∈ pair.2.unrecorded ↔ pair.1.measured tid
  once : pair.2.unrecorded.Nodup
  real : ∀ measured ∈ pair.2.recorded ++ pair.2.unrecorded.map (pair.2.held pair.1),
    measured.real pair.2.start pair.1.dev.state.lastMoveTime
  total : ((pair.2.recorded ++ pair.2.unrecorded.map (pair.2.held pair.1)).map
    Measured.length).sum ≤ pair.1.dev.state.lastMoveTime - pair.2.start

variable {pair after : State × Session} {action : Action}

theorem not_sampled {state : State} {tid : Tid} (idle : untimed (state.code tid) = true) :
    ¬ state.sampled tid := by
  simp only [untimed, Bool.and_eq_true, Bool.not_eq_true'] at idle
  simp [State.sampled, idle.1]

theorem not_measured {state : State} {tid : Tid} (idle : untimed (state.code tid) = true) :
    ¬ state.measured tid := by
  simp only [untimed, Bool.and_eq_true, Bool.not_eq_true'] at idle
  simp [State.measured, idle.2]

theorem not_sampled_of_measured {state : State} {tid : Tid} (measured : state.measured tid) :
    ¬ state.sampled tid := by
  unfold State.measured State.sampled at *
  cases head : (state.code tid).head? with
  | none => simp
  | some instr =>
    rw [head] at measured
    cases instr <;> first | (simp [isStore]; done) | cases measured

/-- Only the actor's thread changes, and it has nothing timed before it. -/
def TimeStill (before after : State) : Prop :=
  ∀ tid, after.thread tid = before.thread tid ∨
    untimed (before.code tid) = true ∧ untimed (after.code tid) = true

theorem sampled_still {before after : State} {tid : Tid} (still : TimeStill before after)
    (sampled : after.sampled tid) :
    before.sampled tid ∧ after.thread tid = before.thread tid := by
  rcases still tid with same | ⟨-, idle⟩
  · exact ⟨by simpa [State.sampled, State.code, same] using sampled, same⟩
  · exact absurd sampled (not_sampled idle)

theorem measured_still {before after : State} {tid : Tid} (still : TimeStill before after) :
    after.measured tid ↔ before.measured tid := by
  rcases still tid with same | ⟨idle, idle'⟩
  · simp [State.measured, State.code, same]
  · simp [not_measured idle, not_measured idle']

theorem held_still {before after : State} {tid : Tid} (session : Session)
    (still : TimeStill before after) (measured : before.measured tid) :
    session.held after tid = session.held before tid := by
  rcases still tid with same | ⟨idle, -⟩
  · simp [Session.held, same]
  · exact absurd measured (not_measured idle)

/-- A step that stores and records nothing, and begins no session. -/
theorem timed_still {state : State} (timed : Timed pair) (still : TimeStill pair.1 state)
    (last : state.dev.state.lastMoveTime = pair.1.dev.state.lastMoveTime)
    (clock : pair.1.clock ≤ state.clock) : Timed (state, pair.2) := by
  have held : pair.2.unrecorded.map (pair.2.held state) =
      pair.2.unrecorded.map (pair.2.held pair.1) :=
    List.map_congr_left fun tid member =>
      held_still pair.2 still ((timed.unrecorded tid).mp member)
  refine ⟨?_, timed.start.trans clock, fun tid sampled => ?_, fun tid => ?_, timed.once, ?_, ?_⟩
  · exact last ▸ timed.last.trans clock
  · obtain ⟨before, same⟩ := sampled_still still sampled
    obtain ⟨lower, upper⟩ := timed.samples tid before
    simp only [last, same]
    exact ⟨lower, upper.trans clock⟩
  · exact (timed.unrecorded tid).trans (measured_still still).symm
  · simp only [held, last]
    exact timed.real
  · simp only [held, last]
    exact timed.total

theorem Entry.untimed {tid : Tid} {code : Code} (entry : Entry tid code) :
    EchoRobot.untimed code = true := by
  cases entry with
  | read id nonblock count => cases nonblock <;> rfl
  | input id pin => cases pin <;> rfl
  | _ => rfl

theorem timeStill_of_next {state after : State} (shape : Obeys timeRule state)
    (moved : next state action = some after)
    (plain : ∀ instr, state.instr? action = some instr →
      isStore instr = false ∧ isRecord instr = false ∧ instr ≠ .ktimeGet) :
    TimeStill state after := by
  intro tid
  by_cases actor : action.actor = some tid
  · right
    cases acts actor moved with
    | call request may idle =>
      rw [idle, settle_code]
      exact ⟨rfl, (entry_of_mayCall may).untimed⟩
    | step env instr rest done code taken =>
      obtain ⟨store, record, sample⟩ := plain instr (instr?_step code)
      have rule := obeys_head (code ▸ shape tid)
      rw [code, settle_code]
      refine ⟨by simp [untimed, store, record], ?_⟩
      generalize done.2.code = reached, exec_code taken = left
      cases left with
      | next => cases instr <;> first | exact rule | exact absurd rfl sample | cases store
      | back => rfl
      | stop => rfl
      | unroll => rfl
    | expire pending idle =>
      rw [idle, settle_code]
      exact ⟨rfl, rfl⟩
    | startWork pending idle =>
      rw [idle, settle_code]
      exact ⟨rfl, rfl⟩
    | signal asleep =>
      rw [settle_code]
      rcases asleep_cases asleep with ⟨rest, code, -⟩ | ⟨rest, code, -⟩ <;>
        exact ⟨by rw [code]; rfl, rfl⟩
  · exact Or.inl (thread_next actor moved)

/-- A new session has nothing measured. -/
theorem timed_open {state : State} (timed : Timed pair) (still : TimeStill pair.1 state)
    (settled : ∀ tid, ¬ pair.1.measured tid) (clock : state.clock = pair.1.clock)
    (last : state.dev.state.lastMoveTime ≤ pair.1.clock)
    (samples : ∀ tid, pair.1.sampled tid → state.thread tid = pair.1.thread tid →
      state.dev.state.lastMoveTime ≤ (pair.1.thread tid).now) :
    Timed (state, { pair.2 with start := pair.1.clock, recorded := [] }) := by
  have none : pair.2.unrecorded = [] := List.eq_nil_iff_forall_not_mem.mpr fun tid member =>
    settled tid ((timed.unrecorded tid).mp member)
  refine ⟨clock ▸ last, clock ▸ Nat.le_refl _, fun tid sampled => ?_, fun tid => ?_,
    timed.once, ?_, ?_⟩
  · obtain ⟨before, same⟩ := sampled_still still sampled
    simp only [same, clock]
    exact ⟨samples tid before same, (timed.samples tid before).2⟩
  · exact (timed.unrecorded tid).trans (measured_still still).symm
  · simp [none]
  · simp [none]

theorem Measured.real_mono {measured : Measured} {start now later : Nat}
    (real : measured.real start now) (le : now ≤ later) : measured.real start later :=
  ⟨real.1, real.2.1, real.2.2.1.trans le, real.2.2.2⟩

section Step
variable {tid : Tid} {env : Env} {rest : Code} {done : EchoDevice × Thread}

/-- What a step leaves of the other threads. -/
theorem settle_others {state : State} {dev : EchoDevice} {thread : Thread} {other : Tid}
    (ne : other ≠ tid) :
    ((state.settle tid dev thread).sampled other ↔ state.sampled other) ∧
      ((state.settle tid dev thread).measured other ↔ state.measured other) := by
  simp [State.sampled, State.measured, settle_code_of_ne _ _ _ _ _ ne]

theorem held_others {session : Session} {state : State} {dev : EchoDevice} {thread : Thread}
    {tids : List Tid} (absent : tid ∉ tids) :
    tids.map (session.held (state.settle tid dev thread)) = tids.map (session.held state) := by
  apply List.map_congr_left
  intro other member
  have ne : other ≠ tid := by rintro rfl; exact absent member
  simp only [Session.held, settle_thread_of_ne _ _ _ _ _ ne]

theorem timed_sample (timed : Timed pair) (code : pair.1.code tid = .ktimeGet :: rest)
    (rule : timeRule .ktimeGet rest = true)
    (taken : exec pair.1 tid env .ktimeGet rest = some done) :
    Timed (pair.1.settle tid done.1 done.2, pair.2) := by
  cases taken
  have before : ¬ pair.1.measured tid := by simp [State.measured, code, isRecord]
  have absent : tid ∉ pair.2.unrecorded := fun member => before ((timed.unrecorded tid).mp member)
  refine ⟨timed.last, timed.start, fun other sampled => ?_, fun other => ?_, timed.once, ?_, ?_⟩
  · by_cases own : other = tid
    · subst own
      rw [settle_thread]
      exact ⟨timed.last, Nat.le_refl _⟩
    · rw [settle_thread_of_ne _ _ _ _ _ own]
      exact timed.samples other ((settle_others own).1.mp sampled)
  · by_cases own : other = tid
    · subst own
      refine iff_of_false absent fun measured => not_sampled_of_measured measured ?_
      rw [State.sampled, settle_code]
      exact rule
    · exact (timed.unrecorded other).trans (settle_others own).2.symm
  · rw [held_others absent]
    exact timed.real
  · rw [held_others absent]
    exact timed.total

/-- What a store leaves of the samples that other threads hold. -/
theorem samples_store {dev : EchoDevice} {thread : Thread} (timed : Timed pair)
    (ok : StoresInOrder pair (.step tid env))
    (stored : storedTime pair.1 (.step tid env) = some dev.state.lastMoveTime)
    (left : untimed thread.code = true ∨ thread.code.head?.any isRecord = true) (other : Tid)
    (sampled : (pair.1.settle tid dev thread).sampled other) :
    dev.state.lastMoveTime ≤ ((pair.1.settle tid dev thread).thread other).now ∧
      ((pair.1.settle tid dev thread).thread other).now ≤ pair.1.clock := by
  by_cases own : other = tid
  · subst own
    rcases left with idle | record
    · exact absurd sampled (not_sampled (by rwa [settle_code]))
    · refine absurd sampled (not_sampled_of_measured ?_)
      rwa [State.measured, settle_code]
  · rw [settle_thread_of_ne _ _ _ _ _ own]
    have before := (settle_others own).1.mp sampled
    have actor : (Action.step tid env).actor ≠ some other := by
      simpa [Action.actor] using Ne.symm own
    exact ⟨ok.order _ stored other actor before, (timed.samples other before).2⟩

theorem timed_store (timed : Timed pair) (ok : StoresInOrder pair (.step tid env))
    (code : pair.1.code tid = .setLastMoveTime :: rest)
    (rule : timeRule .setLastMoveTime rest = true)
    (taken : exec pair.1 tid env .setLastMoveTime rest = some done) :
    Timed (pair.1.settle tid done.1 done.2, pair.2) := by
  have stored : storedTime pair.1 (.step tid env) = some (pair.1.thread tid).now := by
    simp [storedTime, instr?_step code]
  cases taken
  obtain ⟨lower, upper⟩ := timed.samples tid (by simp [State.sampled, code, isStore])
  have before : ¬ pair.1.measured tid := by simp [State.measured, code, isRecord]
  have absent : tid ∉ pair.2.unrecorded := fun member => before ((timed.unrecorded tid).mp member)
  refine ⟨upper, timed.start, samples_store timed ok stored (Or.inl rule), fun other => ?_,
    timed.once, ?_, ?_⟩
  · by_cases own : other = tid
    · subst own
      refine iff_of_false absent (not_measured ?_)
      rwa [settle_code]
    · exact (timed.unrecorded other).trans (settle_others own).2.symm
  · rw [held_others absent]
    exact fun measured member => Measured.real_mono (timed.real measured member) lower
  · rw [held_others absent]
    exact timed.total.trans (Nat.sub_le_sub_right lower _)

/-- The delay measured from `last_move_time` to a later sample fits in an `u32`. -/
theorem delayMs_of_short {later earlier : Nat} (ordered : earlier ≤ later)
    (short : (later - earlier) / 1000000 < u32Size) :
    toU32 (ktimeMsDelta later earlier) = (later - earlier) / 1000000 := by
  rw [ktimeMsDelta_of_le ordered, toU32_of_lt short]

/-- A measurement adds its own entry to the held ones and changes no other. -/
theorem held_measured (absent : tid ∉ pair.2.unrecorded)
    (ordered : pair.1.dev.state.lastMoveTime ≤ (pair.1.thread tid).now)
    (small : ((pair.1.thread tid).now - pair.1.dev.state.lastMoveTime) / 1000000 < u32Size)
    (taken : exec pair.1 tid env .seqlockDelay rest = some done) :
    let session : Session := { pair.2 with
      origin := Function.update pair.2.origin tid pair.1.dev.state.lastMoveTime
      unrecorded := tid :: pair.2.unrecorded }
    session.unrecorded.map (session.held (pair.1.settle tid done.1 done.2)) =
      ⟨pair.1.dev.state.lastMoveTime, (pair.1.thread tid).now,
        ((pair.1.thread tid).now - pair.1.dev.state.lastMoveTime) / 1000000⟩ ::
      pair.2.unrecorded.map (pair.2.held pair.1) := by
  intro session
  cases taken
  set state := pair.1.settle tid
    { pair.1.dev with state := { pair.1.dev.state with lastMoveTime := (pair.1.thread tid).now } }
    { pair.1.thread tid with
      code := rest
      delayMs := toU32 (ktimeMsDelta (pair.1.thread tid).now pair.1.dev.state.lastMoveTime) }
  have own : session.held state tid =
      ⟨pair.1.dev.state.lastMoveTime, (pair.1.thread tid).now,
        ((pair.1.thread tid).now - pair.1.dev.state.lastMoveTime) / 1000000⟩ := by
    simp [session, state, Session.held, delayMs_of_short ordered small]
  have others : pair.2.unrecorded.map (session.held state) =
      pair.2.unrecorded.map (pair.2.held pair.1) := by
    rw [held_others absent]
    apply List.map_congr_left
    intro other member
    have ne : other ≠ tid := by rintro rfl; exact absent member
    simp [session, Session.held, Function.update_of_ne ne]
  show session.held state tid :: pair.2.unrecorded.map (session.held state) = _
  rw [own, others]

theorem timed_measure (timed : Timed pair) (ok : StoresInOrder pair (.step tid env))
    (short : ShortSession pair (.step tid env)) (code : pair.1.code tid = .seqlockDelay :: rest)
    (rule : timeRule .seqlockDelay rest = true)
    (taken : exec pair.1 tid env .seqlockDelay rest = some done) :
    Timed (pair.1.settle tid done.1 done.2,
      { pair.2 with
        origin := Function.update pair.2.origin tid pair.1.dev.state.lastMoveTime
        unrecorded := tid :: pair.2.unrecorded }) := by
  have head : pair.1.instr? (.step tid env) = some .seqlockDelay := instr?_step code
  have stored : storedTime pair.1 (.step tid env) = some (pair.1.thread tid).now := by
    simp [storedTime, head]
  have opened := ok.opened head
  obtain ⟨lower, upper⟩ := timed.samples tid (by simp [State.sampled, code, isStore])
  have elapsed : (pair.1.thread tid).now - pair.1.dev.state.lastMoveTime ≤
      pair.1.clock - pair.2.start := by omega
  have small := (Nat.div_le_div_right elapsed).trans_lt (short head)
  have before : ¬ pair.1.measured tid := by simp [State.measured, code, isRecord]
  have absent : tid ∉ pair.2.unrecorded := fun member => before ((timed.unrecorded tid).mp member)
  have held := held_measured absent lower small taken
  cases taken
  refine ⟨upper, timed.start, samples_store timed ok stored (Or.inr rule), fun other => ?_,
    timed.once.cons absent, ?_, ?_⟩
  · by_cases same : other = tid
    · subst same
      refine iff_of_true (by simp) ?_
      rw [State.measured, settle_code]
      exact rule
    · refine (List.mem_cons.trans (or_iff_right same)).trans ?_
      exact (timed.unrecorded other).trans (settle_others same).2.symm
  · rw [held]
    intro measured member
    rcases List.mem_cons.mp (List.perm_middle.mem_iff.mp member) with rfl | known
    · exact ⟨opened, lower, Nat.le_refl _, rfl⟩
    · exact Measured.real_mono (timed.real measured known) lower
  · rw [held, (List.perm_middle.map Measured.length).sum_nat, List.map_cons, List.sum_cons]
    refine (Nat.add_le_add_left timed.total _).trans ?_
    show (pair.1.thread tid).now - pair.1.dev.state.lastMoveTime +
      (pair.1.dev.state.lastMoveTime - pair.2.start) ≤ (pair.1.thread tid).now - pair.2.start
    omega

theorem timed_record {servoId : Nat} (timed : Timed pair)
    (code : pair.1.code tid = .recordMove servoId :: rest)
    (rule : timeRule (.recordMove servoId) rest = true)
    (taken : exec pair.1 tid env (.recordMove servoId) rest = some done) :
    Timed (pair.1.settle tid done.1 done.2,
      { pair.2 with
        unrecorded := pair.2.unrecorded.erase tid
        recorded := pair.2.recorded ++ [pair.2.held pair.1 tid]
        log := pair.2.log ++ [(pair.2.start, pair.2.held pair.1 tid)] }) := by
  have member : tid ∈ pair.2.unrecorded :=
    (timed.unrecorded tid).mpr (by simp [State.measured, code, isRecord])
  have absent : tid ∉ pair.2.unrecorded.erase tid := timed.once.not_mem_erase
  cases taken
  set session : Session := { pair.2 with
    unrecorded := pair.2.unrecorded.erase tid
    recorded := pair.2.recorded ++ [pair.2.held pair.1 tid]
    log := pair.2.log ++ [(pair.2.start, pair.2.held pair.1 tid)] }
  set state := pair.1.settle tid
    { pair.1.dev with buffer := { pair.1.dev.buffer with
      moveFifo := echoBufferRecord pair.1.dev.buffer.moveFifo
        ⟨servoId, (pair.1.thread tid).newAngle, (pair.1.thread tid).delayMs⟩ } }
    { pair.1.thread tid with code := rest }
  have entries : (session.recorded ++ session.unrecorded.map (session.held state)).Perm
      (pair.2.recorded ++ pair.2.unrecorded.map (pair.2.held pair.1)) := by
    have moved : session.unrecorded.map (session.held state) =
        (pair.2.unrecorded.erase tid).map (pair.2.held pair.1) := held_others absent
    rw [moved, List.append_assoc]
    exact ((List.perm_cons_erase member).map _).symm.append_left _
  refine ⟨timed.last, timed.start, fun other sampled => ?_, fun other => ?_, timed.once.erase _,
    ?_, ?_⟩
  · by_cases own : other = tid
    · subst own
      exact absurd sampled (not_sampled (by rwa [settle_code]))
    · rw [settle_thread_of_ne _ _ _ _ _ own]
      exact timed.samples other ((settle_others own).1.mp sampled)
  · by_cases own : other = tid
    · subst own
      refine iff_of_false absent (not_measured ?_)
      rwa [settle_code]
    · rw [show other ∈ session.unrecorded ↔ other ∈ pair.2.unrecorded from
        List.mem_erase_of_ne own]
      exact (timed.unrecorded other).trans (settle_others own).2.symm
  · exact fun measured inside => timed.real measured (entries.mem_iff.mp inside)
  · rw [(entries.map Measured.length).sum_nat]
    exact timed.total

/-- Besides the stores, only the start of a session writes `last_move_time`. -/
theorem lastMoveTime_still {state : State} {instr : Instr}
    (taken : exec state tid env instr rest = some done) (store : isStore instr = false)
    (opens : instr = .lockHandleInput → state.dev.state.mode ≠ .idle) :
    done.1.state.lastMoveTime = state.dev.state.lastMoveTime := by
  cases instr with
  | lockHandleInput =>
    have other := opens rfl
    simp only [exec, leave] at taken
    split at taken
    · cases taken; rfl
    · contradiction
    · cases taken; rfl
  | seqlockDelay => cases store
  | setLastMoveTime => cases store
  | _ => exact (exec_frame taken).lastMoveTime (by simp [Instr.writes])

end Step

theorem clock_next {state after : State} (moved : next state action = some after) :
    state.clock ≤ after.clock := by
  cases action with
  | call tid request => obtain ⟨-, rfl⟩ := next_call.mp moved; rfl
  | step tid env => obtain ⟨instr, rest, done, -, -, rfl⟩ := next_step.mp moved; rfl
  | expire => obtain ⟨-, rfl⟩ := next_expire.mp moved; rfl
  | startWork => obtain ⟨-, rfl⟩ := next_startWork.mp moved; rfl
  | tick ns =>
    obtain rfl := next_tick.mp moved
    exact Nat.le_add_right _ _
  | signal tid => obtain ⟨-, rfl⟩ := next_signal.mp moved; rfl

/-- The two sections that begin a session. -/
theorem timed_opens {state : State} (timed : Timed pair) (shape : Obeys timeRule pair.1)
    (ok : StoresInOrder pair action) (opens : opensSession pair.1 action = true)
    (moved : next pair.1 action = some state) :
    Timed (state, { pair.2 with start := pair.1.clock, recorded := [] }) := by
  have settled := ok.settled opens
  unfold opensSession at opens
  split at opens
  · rename_i head
    have still := timeStill_of_next shape moved (by simp [head, isStore, isRecord])
    obtain ⟨tid, env, rest, done, rfl, code, taken, rfl⟩ := next_instr head moved
    cases taken
    exact timed_open timed still settled rfl timed.last fun other sampled _ =>
      (timed.samples other sampled).1
  · rename_i head
    have idle : pair.1.dev.state.mode = .idle := by simpa using opens
    have still := timeStill_of_next shape moved (by simp [head, isStore, isRecord])
    have stored : storedTime pair.1 action = some pair.1.clock := by
      simp [storedTime, head, idle]
    obtain ⟨tid, env, rest, done, rfl, code, taken, rfl⟩ := next_instr head moved
    simp only [exec, idle] at taken
    cases taken
    refine timed_open timed still settled rfl (Nat.le_refl _) fun other sampled _ => ?_
    refine ok.order _ stored other (fun actor => ?_) sampled
    obtain rfl : tid = other := by simpa [Action.actor] using actor
    simp [State.sampled, code, isStore] at sampled
  · cases opens

theorem timed_next (timed : Timed pair) (shape : Obeys timeRule pair.1)
    (ok : StoresInOrder pair action) (short : ShortSession pair action)
    (moved : nextSession pair action = some after) : Timed after := by
  obtain ⟨state, stepped, rfl⟩ := withHistory_next moved
  by_cases opens : opensSession pair.1 action = true
  · unfold Session.update
    rw [if_pos opens]
    exact timed_opens timed shape ok opens stepped
  · cases head : pair.1.instr? action with
    | none =>
      have update : pair.2.update pair.1 action state = pair.2 := by
        simp [Session.update, opens, head]
      rw [update]
      refine timed_still timed (timeStill_of_next shape stepped (by simp [head])) ?_
        (clock_next stepped)
      rcases next_device stepped with ⟨tid, env, instr, rest, done, rfl, code, -, -⟩ | frame
      · simp [instr?_step code] at head
      · exact frame.lastMoveTime (by simp)
    | some instr =>
      have still := timeStill_of_next shape stepped
      obtain ⟨tid, env, rest, done, rfl, code, taken, rfl⟩ := next_instr head stepped
      have rule := obeys_head (code ▸ shape tid)
      simp only [Session.update, opens, head]
      cases instr with
      | ktimeGet => exact timed_sample timed code rule taken
      | setLastMoveTime => exact timed_store timed ok code rule taken
      | seqlockDelay => exact timed_measure timed ok short code rule taken
      | recordMove servoId => exact timed_record timed code rule taken
      | _ =>
        refine timed_still timed (still (by simp [head, isStore, isRecord])) ?_ (Nat.le_refl _)
        refine lastMoveTime_still taken rfl fun same idle => opens ?_
        first
        | (simp [opensSession, head, idle]; done)
        | cases same

theorem log_grows {state : State} (session : Session) {entry : Nat × Measured}
    (member : entry ∈ session.log) : entry ∈ (session.update pair.1 action state).log := by
  unfold Session.update
  split
  · exact member
  · split
    · exact member
    · exact List.mem_append_left _ member
    · exact member

theorem logged_next (logged : Logged pair) (reached : Timed after)
    (moved : nextSession pair action = some after) : Logged after := by
  obtain ⟨stepped, history⟩ := withHistory_some.mp moved
  have old : ∀ move ∈ pair.1.dev.buffer.moveFifo,
      ∃ start measured, (start, measured) ∈ after.2.log ∧
      measured.delayMs = move.delayMs ∧ measured.real start after.1.clock := by
    intro move member
    obtain ⟨start, measured, listed, delay, real⟩ := logged move member
    exact ⟨start, measured, history ▸ log_grows pair.2 listed, delay,
      Measured.real_mono real (clock_next stepped)⟩
  intro move member
  rcases next_device stepped with ⟨tid, env, instr, rest, done, rfl, code, taken, settled⟩ | frame
  · have fifo : after.1.dev.buffer.moveFifo = done.1.buffer.moveFifo := by rw [← settled]; rfl
    rw [fifo] at member
    cases instr with
    | recordMove servoId =>
      cases taken
      rcases mem_of_mem_echoBufferRecord member with before | rfl
      · exact old move before
      · have head : pair.1.instr? (.step tid env) = some (.recordMove servoId) := instr?_step code
        have entry : (after.2.start, pair.2.held pair.1 tid) ∈ after.2.log ∧
            pair.2.held pair.1 tid ∈ after.2.recorded := by
          rw [history]
          simp [Session.update, opensSession, head]
        have real := reached.real _ (List.mem_append_left _ entry.2)
        exact ⟨_, _, entry.1, rfl, Measured.real_mono real reached.last⟩
    | clearBuffer =>
      cases taken
      simp at member
    | snapshot =>
      simp only [exec] at taken
      split at taken
      · cases taken
        exact old move (mem_of_mem_replayRefill member)
      · cases taken
        exact old move member
    | _ => exact old move ((exec_frame taken).fifo (by simp [Instr.writes]) ▸ member)
  · exact old move (frame.fifo (by simp) ▸ member)

/-- Whole milliseconds of the parts are at most those of their sum. -/
theorem sum_delayMs_le {entries : List Measured} {start now : Nat}
    (real : ∀ measured ∈ entries, measured.real start now) :
    (entries.map Measured.delayMs).sum ≤ (entries.map Measured.length).sum / 1000000 := by
  induction entries with
  | nil => simp
  | cons first rest ih =>
    have own := (real first (by simp)).2.2.2
    have later := ih fun measured member => real measured (by simp [member])
    simp only [List.map_cons, List.sum_cons, own]
    omega

variable {servo : EchoServoCtx} {clock : Nat} {actions : List Action}

/-- In every run that stores times in the order of their samples, the delays
recorded in a session are real times between moments of that session. -/
theorem delays_real
    (run : Run nextSession (fun pair action => StoresInOrder pair action ∧ ShortSession pair action)
      (State.initial servo clock, Session.initial clock) actions pair) : DelaysReal pair := by
  have ⟨timed, logged⟩ : Timed pair ∧ Logged pair := by
    refine run.invariant (fun pair => Timed pair ∧ Logged pair) ⟨?_, ?_⟩ ?_
    · refine ⟨Nat.zero_le _, Nat.le_refl _, fun tid sampled => ?_, fun tid => ?_, List.nodup_nil,
        ?_, ?_⟩
      · simp [State.sampled, State.code, State.initial, Thread.initial] at sampled
      · simp [State.measured, State.code, State.initial, Thread.initial, Session.initial]
      · simp [Session.initial]
      · simp [Session.initial]
    · intro move member
      simp [State.initial, EchoDevice.initial] at member
    · rintro earlier before action after ran ⟨timed, logged⟩ ok moved
      have reached := timed_next timed (timeRule_lawful.of_run ran.forget.any) ok.1 ok.2 moved
      exact ⟨reached, logged_next logged reached moved⟩
  have real : ∀ measured ∈ pair.2.recorded,
      measured.real pair.2.start pair.1.dev.state.lastMoveTime := fun measured member =>
    timed.real measured (List.mem_append_left _ member)
  have last := timed.last
  refine ⟨logged, fun measured member => Measured.real_mono (real measured member) last,
    fun measured member => ?_, (sum_delayMs_le real).trans (Nat.div_le_div_right ?_)⟩
  · obtain ⟨begun, ordered, ended, delay⟩ := real measured member
    rw [delay]
    refine Nat.div_le_div_right ?_
    unfold Measured.length
    omega
  · have total := timed.total
    rw [List.map_append, List.sum_append] at total
    omega

/-- A `TEACH` request and, five milliseconds later, two joystick steps that
overlap but sample and store in one order. -/
def overlappingSteps : List Action :=
  [.call (.proc 0) (writeCmd echoCmdTeach)] ++ steps (.proc 0) 9 ++ [.tick 5000000] ++
  [.call (.irq 0) (.input .up), .call (.irq 1) (.input .left)] ++
  steps (.irq 0) 4 ++ steps (.irq 1) 3 ++ [.tick 2000000] ++ steps (.irq 1) 1 ++
  (List.range 6).flatMap fun _ => [.step (.irq 0) Env.good, .step (.irq 1) Env.good]

/-- The test of the two conditions where only the listed threads run. -/
def storesInOrder (tids : List Tid) (pair : State × Session) (action : Action) : Bool :=
  ((storedTime pair.1 action).all fun time => tids.all fun other =>
    action.actor == some other || !(pair.1.code other).head?.any isStore ||
      decide (time ≤ (pair.1.thread other).now)) &&
  (pair.1.instr? action != some .seqlockDelay ||
    decide (pair.2.start ≤ pair.1.dev.state.lastMoveTime ∧ elapsedMs pair < u32Size)) &&
  (!opensSession pair.1 action || tids.all fun other => untimed (pair.1.code other))

theorem storesInOrder_sound {tids : List Tid} (idle : ∀ tid, tid ∉ tids → pair.1.code tid = [])
    (passed : storesInOrder tids pair action = true) :
    StoresInOrder pair action ∧ ShortSession pair action := by
  simp only [storesInOrder, Bool.and_eq_true, Bool.or_eq_true, bne_iff_ne, ne_eq,
    decide_eq_true_eq] at passed
  obtain ⟨⟨order, opened⟩, settled⟩ := passed
  refine ⟨⟨fun time stored other actor sampled => ?_, fun head => ?_, fun opens tid => ?_⟩,
    fun head => ?_⟩
  · by_cases listed : other ∈ tids
    · rw [stored] at order
      have inside := List.all_eq_true.mp order other listed
      simp only [Bool.or_eq_true, beq_iff_eq, Bool.not_eq_true', decide_eq_true_eq] at inside
      rcases inside with (own | still) | le
      · exact absurd own actor
      · exact absurd (still.symm.trans sampled) (by decide)
      · exact le
    · simp [State.sampled, idle other listed] at sampled
  · exact (opened.resolve_left (fun other => other head)).1
  · by_cases listed : tid ∈ tids
    · have all := settled.resolve_left (by simp [opens])
      exact not_measured (List.all_eq_true.mp all tid listed)
    · simp [State.measured, idle tid listed]
  · exact (opened.resolve_left (fun other => other head)).2

theorem delays_real_overlappingSteps :
    ∃ pair, run nextSession (State.initial simServo 0, Session.initial 0) overlappingSteps =
        some pair ∧
      pair.2.recorded.map Measured.delayMs = [5, 2] ∧ DelaysReal pair := by
  obtain ⟨pair, ran, recorded⟩ := exists_run nextSession
    (fun pair action => movesOnly [.proc 0, .irq 0, .irq 1] pair.1 action &&
      storesInOrder [.proc 0, .irq 0, .irq 1] pair action)
    (State.initial simServo 0, Session.initial 0) overlappingSteps
    (fun pair => pair.2.recorded.map Measured.delayMs == [5, 2]) (by decide)
  simp only [Bool.and_eq_true, beq_iff_eq] at ran recorded
  have ordered := ran.strengthen
    (fun pair action => StoresInOrder pair action ∧ ShortSession pair action)
    fun earlier pair action before passed => storesInOrder_sound
      (fun tid => code_of_run _ before.forget fun _ _ ⟨_, listed, _⟩ => listed) passed.2
  exact ⟨pair, ran.execution, recorded, delays_real ordered⟩

/-- Two threads sample the clock in one order and store in the other. -/
def storesCross : List Action :=
  [.call (.irq 0) (.input .up)] ++ steps (.irq 0) 4 ++ [.tick 10000000] ++
  [.call (.irq 1) (.input .left)] ++ steps (.irq 1) 5 ++ steps (.irq 0) 2

theorem storesCross_wraps :
    ∃ pair, run nextSession (State.initial simServo 0, Session.initial 0) storesCross = some pair ∧
      (∃ move ∈ pair.1.dev.buffer.moveFifo, elapsedMs pair < move.delayMs) ∧ ¬ DelaysReal pair := by
  obtain ⟨pair, ran, facts⟩ := exists_run nextSession (fun _ _ => true)
    (State.initial simServo 0, Session.initial 0) storesCross
    (fun pair => pair.1.dev.buffer.moveFifo.any (fun move => elapsedMs pair < move.delayMs) &&
      pair.2.recorded.any fun measured => elapsedMs pair < measured.delayMs) (by decide)
  simp only [Bool.and_eq_true, List.any_eq_true, decide_eq_true_eq] at facts
  obtain ⟨stored, measured, member, exceeds⟩ := facts
  refine ⟨pair, ran.execution, stored, fun delays => ?_⟩
  exact absurd (delays.bounded measured member) (by omega)

end EchoRobot
