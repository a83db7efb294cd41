import EchoRobot.Model.Threads

/-! The move counter and the recording. They are kept by different subsystems, counted
up together by an input and cleared together by `TEACH`; `RESET` clears only one. -/

namespace EchoRobot

open Interleaving

/-- Instructions that change the number of recorded moves or the counter. -/
def Instr.counts : Instr → Bool
  | .recordMove _ | .incTotalMoves | .clearBuffer | .resetTotalMoves => true
  | _ => false

/-- The thread is in a call that has not changed all that it changes of the two. -/
def State.counting (state : State) (tid : Tid) : Prop :=
  ∃ instr ∈ state.code tid, instr.counts = true

/-- Calls come one after the other, as far as they change the recording or the counter. -/
def CallsInTurn (state : State) (action : Action) : Prop :=
  ∀ tid request, action = .call tid request → ∀ other, ¬ state.counting other

/-- A `RESET` is made only while no move is counted. -/
def ResetsUncounted (state : State) (action : Action) : Prop :=
  ∀ tid, action = .call tid (.ioctl .reset) → state.dev.state.totalMoves = 0

/-- The recording holds as many moves as are counted, up to its capacity. -/
def CountsAgree (dev : EchoDevice) (counted : Nat) : Prop :=
  dev.buffer.moveFifo.length = min echoFifoSize counted

/-- A move is counted right after it is recorded, and a cleared recording is followed
by the reset of the counter or by nothing that counts. -/
def countRule (instr : Instr) (rest : Code) : Bool :=
  (match instr with
    | .recordMove _ => rest.head? == some .incTotalMoves
    | _ => rest.head? != some .incTotalMoves) &&
  (match instr with
    | .clearBuffer => rest.head? == some .resetTotalMoves || rest.all fun instr => !instr.counts
    | _ => rest.head? != some .resetTotalMoves) &&
  (match instr with
    | .incTotalMoves | .resetTotalMoves => rest.all fun instr => !instr.counts
    | _ => true)

/-- Neither the timer nor the worker counts. -/
theorem Instr.counts_foreign {instr : Instr} (counts : instr.counts = true) :
    instr.ofTimer = false ∧ instr.ofWorker = false ∧ instr.ofLoop = false := by
  cases instr <;> first | exact ⟨rfl, rfl, rfl⟩ | cases counts

theorem countRule_record {servoId : Nat} {rest : Code}
    (rule : countRule (.recordMove servoId) rest = true) :
    ∃ later, rest = .incTotalMoves :: later := by
  simp only [countRule, Bool.and_eq_true, beq_iff_eq] at rule
  exact List.head?_eq_some_iff.mp rule.1.1

theorem countRule_clear {rest : Code} (rule : countRule .clearBuffer rest = true) :
    (∃ later, rest = .resetTotalMoves :: later) ∨ ∀ instr ∈ rest, instr.counts = false := by
  simp only [countRule, Bool.and_eq_true, Bool.or_eq_true, beq_iff_eq, List.all_eq_true,
    Bool.not_eq_true'] at rule
  exact rule.1.2.imp_left List.head?_eq_some_iff.mp

theorem countRule_pay {instr : Instr} {rest : Code} (rule : countRule instr rest = true)
    (pays : instr = .incTotalMoves ∨ instr = .resetTotalMoves) :
    ∀ later ∈ rest, later.counts = false := by
  rcases pays with rfl | rfl <;>
    simp only [countRule, Bool.and_eq_true, List.all_eq_true, Bool.not_eq_true'] at rule <;>
    exact rule.2

theorem countRule_lawful : CodeRule countRule where
  entry tid code entry := by
    cases entry with
    | read id nonblock count => cases nonblock <;> rfl
    | input id pin => cases pin <;> rfl
    | _ => rfl
  timer := by decide
  worker := by decide
  stop := by decide
  unroll moves rest shape := by
    have later := obeys_head shape
    refine obeys_replayLoop (fun instr before own loop => ?_) (obeys_tail shape)
    have heads := head_loop
      (fun head => head != some .incTotalMoves && head != some .resetTotalMoves)
      loop (fun instr own => by cases instr <;> first | rfl | cases own)
      (by simpa [countRule] using later)
    cases instr <;> first | exact absurd own Bool.false_ne_true | simpa [countRule] using heads

section Heads
variable {state after : State} {action : Action} {tid : Tid} {instr : Instr}

theorem counting_of_head (head : (state.code tid).head? = some instr)
    (counts : instr.counts = true) : state.counting tid :=
  ⟨instr, List.mem_of_mem_head? head, counts⟩

/-- A thread gets to count by a call. -/
theorem counting_next (moved : next state action = some after) (counting : after.counting tid) :
    state.counting tid ∨ ∃ request, action = .call tid request := by
  obtain ⟨instr, ahead, counts⟩ := counting
  obtain ⟨timer, worker, loop⟩ := Instr.counts_foreign counts
  rcases ahead_next moved ahead with before | enters
  · exact Or.inl ⟨instr, before, counts⟩
  · cases enters with
    | request request may member => exact Or.inr ⟨request, rfl⟩
    | timer member => simp [inactivityTimerFn_runs _ member] at timer
    | worker member => simp [replayWorker_runs _ member] at worker
    | loop env rest code member => simp [replayLoop_ofLoop _ _ member] at loop

/-- Nothing of the two is owed at the beginning of a call. -/
theorem Entry.unowed {code : Code} (entry : Entry tid code) :
    code.head? ≠ some .incTotalMoves ∧ code.head? ≠ some .resetTotalMoves := by
  cases entry with
  | read id nonblock count => cases nonblock <;> exact ⟨by simp [echoRead], by simp [echoRead]⟩
  | input id pin => cases pin <;> exact ⟨by decide, by decide⟩
  | _ => exact ⟨by rintro ⟨⟩, by rintro ⟨⟩⟩

/-- A thread comes to owe something by its own step, which counts. -/
theorem owed_of_next (shape : Obeys countRule state) (moved : next state action = some after)
    (owed : instr = .incTotalMoves ∨ instr = .resetTotalMoves)
    (head : (after.code tid).head? = some instr) :
    (state.code tid).head? = some instr ∨
      ∃ other, state.instr? action = some other ∧ other.counts = true := by
  by_cases actor : action.actor = some tid
  swap
  · left
    rwa [State.code, thread_next actor moved] at head
  cases acts actor moved with
  | call request may =>
    have unowed := (entry_of_mayCall may).unowed
    rw [settle_code, Thread.code_begin] at head
    rcases owed with rfl | rfl <;> simp [head] at unowed
  | step env first rest done code taken =>
    have rule := obeys_head (code ▸ shape tid)
    rw [settle_code] at head
    generalize done.2.code = left, exec_code taken = leaves at head
    cases leaves with
    | next =>
      refine Or.inr ⟨first, instr?_step code, ?_⟩
      rcases owed with rfl | rfl <;> cases first <;> first | rfl | simp [countRule, head] at rule
    | back => cases head
    | stop => rcases owed with rfl | rfl <;> cases head
    | unroll => rcases owed with rfl | rfl <;> cases head
  | expire => rcases owed with rfl | rfl <;> cases head
  | startWork => rcases owed with rfl | rfl <;> cases head
  | signal => simp at head

/-- What is owed stays owed until the thread counts it. -/
theorem owed_next (moved : next state action = some after)
    (owed : instr = .incTotalMoves ∨ instr = .resetTotalMoves)
    (head : (state.code tid).head? = some instr) :
    (after.code tid).head? = some instr ∨ state.instr? action = some instr := by
  obtain ⟨rest, code⟩ := List.head?_eq_some_iff.mp head
  rcases stands_next code (by rcases owed with rfl | rfl <;> simp) moved with still | ⟨env, rfl⟩
  · exact Or.inl (by simp [still])
  · exact Or.inr (instr?_step code)

/-- A step that does not count leaves the length of the recording and the counter. -/
theorem uncounted_next (moved : next state action = some after)
    (uncounted : ∀ instr, state.instr? action = some instr → instr.counts = false) :
    after.dev.buffer.moveFifo.length = state.dev.buffer.moveFifo.length ∧
      after.dev.state.totalMoves = state.dev.state.totalMoves := by
  rcases next_device moved with ⟨tid, env, instr, rest, done, rfl, code, taken, rfl⟩ | frame
  · have other := uncounted instr (instr?_step code)
    rw [settle_dev]
    cases instr with
    | snapshot =>
      simp only [exec] at taken
      split at taken <;> cases taken
      · exact ⟨length_replayRefill _, rfl⟩
      · exact ⟨rfl, rfl⟩
    | recordMove | incTotalMoves | clearBuffer | resetTotalMoves => cases other
    | _ =>
      have frame := exec_frame taken
      rw [frame.fifo (by simp [Instr.writes]), frame.totalMoves (by simp [Instr.writes])]
      exact ⟨rfl, rfl⟩
  · rw [frame.fifo (by simp), frame.totalMoves (by simp)]
    exact ⟨rfl, rfl⟩

end Heads

/-- A `RESET` that has not cleared the recording. -/
def resetting (code : Code) : Prop := .clearBuffer ∈ code ∧ .resetTotalMoves ∉ code

/-- At most one thread counts, and what it owes is what the two differ by. -/
structure Counted (state : State) : Prop where
  single : ∀ tid other, state.counting tid → state.counting other → tid = other
  agree : (∀ tid, (state.code tid).head? ≠ some .incTotalMoves ∧
      (state.code tid).head? ≠ some .resetTotalMoves) →
    CountsAgree state.dev state.dev.state.totalMoves
  recorded : ∀ tid, (state.code tid).head? = some .incTotalMoves →
    CountsAgree state.dev (state.dev.state.totalMoves + 1)
  cleared : ∀ tid, (state.code tid).head? = some .resetTotalMoves →
    state.dev.buffer.moveFifo = []
  reset : ∀ tid, resetting (state.code tid) → state.dev.state.totalMoves = 0

section Step
variable {state after : State} {action : Action} {tid : Tid} {instr : Instr}

theorem counting_of_resetting (reset : resetting (state.code tid)) : state.counting tid :=
  ⟨.clearBuffer, reset.1, rfl⟩

theorem reset_of_code {request : Request} (reset : resetting request.code) :
    request = .ioctl .reset := by
  cases request with
  | read nonblock count =>
    cases nonblock <;> simp [resetting, Request.code, echoRead, buildSnapshot] at reset
  | write count copied =>
    simp only [resetting, Request.code, echoWrite] at reset
    repeat' split at reset
    all_goals
      simp [echoStateSetMode, echoStateStartReplay, echoStateStop, stateOpStartReplay,
        stateOpCancelReplay, signalReplayDone, notifyReaders] at reset
  | ioctl ioc =>
    cases ioc with
    | reset => rfl
    | setSpeed copied =>
      cases copied with
      | none => simp [resetting, Request.code, echoIoctl] at reset
      | some speed =>
        simp only [resetting, Request.code, echoIoctl] at reset
        split at reset <;> simp at reset
    | setMode copied =>
      rcases copied with _ | _ | _ | _ | mode <;>
        simp [resetting, Request.code, echoIoctl, echoStateSetMode, echoStateStartReplay,
          echoStateStop, stateOpStartReplay, stateOpCancelReplay, signalReplayDone,
          notifyReaders] at reset
    | _ => simp [resetting, Request.code, echoIoctl, buildSnapshot] at reset
  | input pin =>
    cases pin <;>
      simp [resetting, Request.code, joyOpDirection, echoStateHandleInput, notifyReaders] at reset

/-- A thread gets into a `RESET` by the call, or is in it. -/
theorem resetting_next (moved : next state action = some after)
    (uncounted : ∀ instr, state.instr? action = some instr → instr.counts = false)
    (reset : resetting (after.code tid)) :
    resetting (state.code tid) ∨ action = .call tid (.ioctl .reset) := by
  by_cases actor : action.actor = some tid
  swap
  · left
    rwa [State.code, thread_next actor moved] at reset
  cases acts actor moved with
  | call request may =>
    rw [settle_code, Thread.code_begin] at reset
    exact Or.inr (by rw [reset_of_code reset])
  | step env first rest done code taken =>
    have other := uncounted first (instr?_step code)
    have resets : .resetTotalMoves ≠ first := by
      rintro rfl
      cases other
    left
    rw [settle_code] at reset
    rw [code]
    generalize done.2.code = left, exec_code taken = leaves at reset
    obtain ⟨clears, unreset⟩ := reset
    cases leaves with
    | next => exact ⟨by simp [clears], by simp [resets, unreset]⟩
    | back => simp at clears
    | stop => simp [bufOpReplayDone, signalReplayDone, notifyReaders] at clears
    | unroll =>
      have loop := (Instr.counts_foreign (show Instr.clearBuffer.counts = true from rfl)).2.2
      rcases List.mem_append.mp clears with inside | later
      · simp [replayLoop_ofLoop _ _ inside] at loop
      · refine ⟨by simp [later], fun ahead => ?_⟩
        rcases List.mem_cons.mp ahead with own | inside
        · exact resets own
        · exact unreset (List.mem_append_right _ inside)
  | expire => simp [resetting, inactivityTimerFn, stateOpStartReplay, notifyReaders] at reset
  | startWork =>
    simp [resetting, replayWorker, bufOpReplayDone, signalReplayDone, notifyReaders] at reset
  | signal => simp [resetting] at reset

theorem uncounted_counted (shape : Obeys countRule state) (alone : CallsInTurn state action)
    (resets : ResetsUncounted state action) (counted : Counted state)
    (moved : next state action = some after)
    (uncounted : ∀ instr, state.instr? action = some instr → instr.counts = false) :
    Counted after := by
  obtain ⟨length, counter⟩ := uncounted_next moved uncounted
  have owed : ∀ tid instr, (instr = .incTotalMoves ∨ instr = .resetTotalMoves) →
      ((after.code tid).head? = some instr ↔ (state.code tid).head? = some instr) := by
    intro tid instr kind
    constructor
    · intro head
      rcases owed_of_next shape moved kind head with before | ⟨other, acts, counts⟩
      · exact before
      · simp [uncounted other acts] at counts
    · intro head
      rcases owed_next moved kind head with still | acts
      · exact still
      · have counts := uncounted instr acts
        rcases kind with rfl | rfl <;> cases counts
  constructor
  · intro tid other first second
    rcases counting_next moved first with before | ⟨request, call⟩
    · rcases counting_next moved second with before' | ⟨request, call⟩
      · exact counted.single tid other before before'
      · exact absurd before (alone other request call tid)
    · rcases counting_next moved second with before' | ⟨request', call'⟩
      · exact absurd before' (alone tid request call other)
      · rw [call] at call'
        exact (Action.call.inj call').1
  · intro unowed
    unfold CountsAgree
    rw [length, counter]
    exact counted.agree fun tid => ⟨fun head => (unowed tid).1 ((owed tid _ (Or.inl rfl)).mpr head),
      fun head => (unowed tid).2 ((owed tid _ (Or.inr rfl)).mpr head)⟩
  · intro tid head
    unfold CountsAgree
    rw [length, counter]
    exact counted.recorded tid ((owed tid _ (Or.inl rfl)).mp head)
  · intro tid head
    have empty := counted.cleared tid ((owed tid _ (Or.inr rfl)).mp head)
    rw [empty, List.length_nil] at length
    exact List.length_eq_zero_iff.mp length
  · intro tid reset
    rw [counter]
    rcases resetting_next moved uncounted reset with before | call
    · exact counted.reset tid before
    · exact resets tid call

/-- A thread that counts leaves to the others nothing that is owed. -/
theorem counted_of_alone (alone : ∀ other, after.counting other → other = tid)
    (agree : (after.code tid).head? ≠ some .incTotalMoves →
      (after.code tid).head? ≠ some .resetTotalMoves →
      CountsAgree after.dev after.dev.state.totalMoves)
    (recorded : (after.code tid).head? = some .incTotalMoves →
      CountsAgree after.dev (after.dev.state.totalMoves + 1))
    (cleared : (after.code tid).head? = some .resetTotalMoves → after.dev.buffer.moveFifo = [])
    (reset : resetting (after.code tid) → after.dev.state.totalMoves = 0) : Counted after where
  single first second own own' := (alone first own).trans (alone second own').symm
  agree unowed := agree (unowed tid).1 (unowed tid).2
  recorded other head := recorded (alone other (counting_of_head head rfl) ▸ head)
  cleared other head := cleared (alone other (counting_of_head head rfl) ▸ head)
  reset other own := reset (alone other (counting_of_resetting own) ▸ own)

theorem counted_of_quiet (alone : ∀ other, after.counting other → other = tid)
    (quiet : ¬ after.counting tid) (agree : CountsAgree after.dev after.dev.state.totalMoves) :
    Counted after :=
  counted_of_alone alone (fun _ _ => agree)
    (fun head => absurd (counting_of_head head rfl) quiet)
    (fun head => absurd (counting_of_head head rfl) quiet)
    fun reset => absurd (counting_of_resetting reset) quiet

section Counts
variable {env : Env} {rest : Code} {done : EchoDevice × Thread}

theorem not_counting_settle (left : done.2.code = rest)
    (quiet : ∀ later ∈ rest, later.counts = false) :
    ¬ (state.settle tid done.1 done.2).counting tid := by
  rintro ⟨later, ahead, counts⟩
  rw [settle_code, left] at ahead
  simp [quiet later ahead] at counts

/-- Nothing is owed where the only thread that counts owes nothing. -/
theorem Counted.unowed (counted : Counted state) (code : state.code tid = instr :: rest)
    (own : ∀ other, state.counting other → other = tid) (unrecorded : instr ≠ .incTotalMoves)
    (uncleared : instr ≠ .resetTotalMoves) :
    CountsAgree state.dev state.dev.state.totalMoves := by
  refine counted.agree fun other => ?_
  by_cases same : other = tid
  · subst same
    simp [code, unrecorded, uncleared]
  · exact ⟨fun head => same (own other (counting_of_head head rfl)),
      fun head => same (own other (counting_of_head head rfl))⟩

/-- A recorded move is owed to the counter. -/
theorem counted_recordMove {servoId : Nat} (shape : Obeys countRule state)
    (agree : CountsAgree state.dev state.dev.state.totalMoves)
    (code : state.code tid = .recordMove servoId :: rest)
    (taken : exec state tid env (.recordMove servoId) rest = some done)
    (single : ∀ other, (state.settle tid done.1 done.2).counting other → other = tid) :
    Counted (state.settle tid done.1 done.2) := by
  obtain ⟨length, counter, left⟩ : done.1.buffer.moveFifo.length =
        min echoFifoSize (state.dev.buffer.moveFifo.length + 1) ∧
      done.1.state.totalMoves = state.dev.state.totalMoves ∧ done.2.code = rest := by
    cases taken
    exact ⟨length_echoBufferRecord _ _ (by unfold CountsAgree at agree; omega), rfl, rfl⟩
  have later := obeys_tail (code ▸ shape tid)
  obtain ⟨rest, rfl⟩ := countRule_record (obeys_head (code ▸ shape tid))
  have quiet := countRule_pay (obeys_head later) (Or.inl rfl)
  refine counted_of_alone single ?_ ?_ ?_ ?_ <;> rw [settle_code, left]
  · simp
  · intro _
    rw [CountsAgree, settle_dev, length, counter, agree]
    omega
  · simp
  · rintro ⟨clears, -⟩
    cases quiet .clearBuffer (by simpa using clears)

/-- A cleared recording is owed to the counter, unless nothing was counted. -/
theorem counted_clearBuffer (shape : Obeys countRule state) (counted : Counted state)
    (code : state.code tid = .clearBuffer :: rest)
    (taken : exec state tid env .clearBuffer rest = some done)
    (single : ∀ other, (state.settle tid done.1 done.2).counting other → other = tid) :
    Counted (state.settle tid done.1 done.2) := by
  obtain ⟨fifo, counter, left⟩ : done.1.buffer.moveFifo = [] ∧
      done.1.state.totalMoves = state.dev.state.totalMoves ∧ done.2.code = rest := by
    cases taken
    exact ⟨rfl, rfl, rfl⟩
  rcases countRule_clear (obeys_head (code ▸ shape tid)) with ⟨more, rfl⟩ | quiet
  · refine counted_of_alone single ?_ ?_ ?_ ?_ <;> rw [settle_code, left]
    · simp
    · simp
    · exact fun _ => fifo
    · rintro ⟨-, unreset⟩
      simp at unreset
  · refine counted_of_quiet single (not_counting_settle left quiet) ?_
    have uncounted := counted.reset tid ⟨by simp [code], fun ahead => ?_⟩
    · rw [CountsAgree, settle_dev, fifo, counter, uncounted]
      rfl
    · rw [code] at ahead
      cases quiet .resetTotalMoves (by simpa using ahead)

end Counts

theorem counted_next (shape : Obeys countRule state) (alone : CallsInTurn state action)
    (resets : ResetsUncounted state action) (counted : Counted state)
    (moved : next state action = some after) : Counted after := by
  by_cases uncounted : ∀ instr, state.instr? action = some instr → instr.counts = false
  · exact uncounted_counted shape alone resets counted moved uncounted
  simp only [not_forall, Bool.not_eq_false] at uncounted
  obtain ⟨instr, head, counts⟩ := uncounted
  obtain ⟨tid, env, rest, done, rfl, code, taken, rfl⟩ := next_instr head moved
  have own : ∀ other, state.counting other → other = tid := fun other counting =>
    counted.single other tid counting ⟨instr, by simp [code], counts⟩
  have single : ∀ other, (state.settle tid done.1 done.2).counting other → other = tid := by
    intro other counting
    rcases counting_next moved counting with before | ⟨request, call⟩
    · exact own other before
    · cases call
  have rule := obeys_head (code ▸ shape tid)
  cases instr with
  | recordMove servoId =>
    exact counted_recordMove shape (counted.unowed code own (by simp) (by simp)) code taken single
  | clearBuffer => exact counted_clearBuffer shape counted code taken single
  | incTotalMoves =>
    have agree := counted.recorded tid (by simp [code])
    obtain ⟨fifo, counter, left⟩ : done.1.buffer.moveFifo = state.dev.buffer.moveFifo ∧
        done.1.state.totalMoves = state.dev.state.totalMoves + 1 ∧ done.2.code = rest := by
      cases taken
      exact ⟨rfl, rfl, rfl⟩
    refine counted_of_quiet single (not_counting_settle left (countRule_pay rule (Or.inl rfl))) ?_
    rw [CountsAgree, settle_dev, fifo, counter]
    exact agree
  | resetTotalMoves =>
    have empty := counted.cleared tid (by simp [code])
    obtain ⟨fifo, counter, left⟩ : done.1.buffer.moveFifo = state.dev.buffer.moveFifo ∧
        done.1.state.totalMoves = 0 ∧ done.2.code = rest := by
      cases taken
      exact ⟨rfl, rfl, rfl⟩
    refine counted_of_quiet single (not_counting_settle left (countRule_pay rule (Or.inr rfl))) ?_
    rw [CountsAgree, settle_dev, fifo, counter, empty]
    rfl
  | _ => cases counts

end Step

section Run
variable {servo : EchoServoCtx} {clock : Nat} {actions : List Action} {state : State}

theorem counted_initial : Counted (State.initial servo clock) := by
  have nothing : ∀ tid, (State.initial servo clock).code tid = [] := fun _ => rfl
  refine ⟨?_, fun _ => rfl, ?_, ?_, ?_⟩
  · rintro tid other ⟨instr, member, -⟩
    simp [nothing] at member
  · simp [nothing]
  · simp [nothing]
  · rintro tid ⟨clears, -⟩
    simp [nothing] at clears

/-- In runs whose calls come one after the other and that reset an uncounted recording
only, the recording holds the counted moves whenever no call is changing the two. -/
theorem counter_agrees
    (run : Run next (fun state action => CallsInTurn state action ∧ ResetsUncounted state action)
      (State.initial servo clock) actions state) (complete : ∀ tid, ¬ state.counting tid) :
    CountsAgree state.dev state.dev.state.totalMoves := by
  have counted : Counted state := by
    refine run.invariant Counted counted_initial ?_
    rintro actions before action after ran counted ⟨alone, resets⟩ moved
    exact counted_next (countRule_lawful.of_run ran.any) alone resets counted moved
  exact counted.agree fun tid => ⟨fun head => complete tid (counting_of_head head rfl),
    fun head => complete tid (counting_of_head head rfl)⟩

end Run

/-- The test of `CallsInTurn` while only the listed threads move. -/
def callsInTurn (tids : List Tid) (state : State) (action : Action) : Bool :=
  movesOnly tids state action &&
    match action with
    | .call .. => tids.all fun tid => (state.code tid).all fun instr => !instr.counts
    | _ => true

def resetsUncounted (state : State) (action : Action) : Bool :=
  match action with
  | .call _ (.ioctl .reset) => state.dev.state.totalMoves == 0
  | _ => true

section Tested
variable {servo : EchoServoCtx} {clock : Nat} {actions : List Action} {state : State}
variable {allowed : State → Action → Prop}

theorem callsInTurn_sound (tids : List Tid)
    (run : Run next allowed (State.initial servo clock) actions state)
    (tested : ∀ state action, allowed state action → callsInTurn tids state action = true) :
    Run next (fun state action => CallsInTurn state action ∧ allowed state action)
      (State.initial servo clock) actions state := by
  refine run.strengthen _ fun actions state action ran ok => ⟨?_, ok⟩
  rintro tid request rfl other ⟨instr, member, counts⟩
  have passed := tested state _ ok
  simp only [callsInTurn, Bool.and_eq_true, List.all_eq_true] at passed
  by_cases listed : other ∈ tids
  · have quiet := passed.2 other listed instr member
    simp [counts] at quiet
  · have idle := code_of_run tids ran (fun state action ok =>
      (Bool.and_eq_true_iff.mp (tested state action ok)).1) listed
    rw [idle] at member
    cases member

theorem resetsUncounted_sound {action : Action} (passed : resetsUncounted state action = true) :
    ResetsUncounted state action := by
  rintro tid rfl
  simpa [resetsUncounted] using passed

end Tested

/-- A joystick step, a `TEACH`, a `RESET` of the empty recording, and another step. -/
def teachAgain : List Action :=
  [.call (.irq 0) (.input .up)] ++ steps (.irq 0) 10 ++
  [.call (.proc 0) (writeCmd echoCmdTeach)] ++ steps (.proc 0) 9 ++
  [.call (.proc 0) (.ioctl .reset)] ++ steps (.proc 0) 16 ++
  [.call (.irq 0) (.input .left)] ++ steps (.irq 0) 10

theorem counter_agrees_teachAgain :
    ∃ state, run next (State.initial simServo 0) teachAgain = some state ∧
      state.dev.state.totalMoves = 1 ∧ CountsAgree state.dev state.dev.state.totalMoves := by
  obtain ⟨state, ran, facts⟩ := exists_run next
    (fun state action =>
      callsInTurn [.irq 0, .proc 0] state action && resetsUncounted state action)
    (State.initial simServo 0) teachAgain
    (fun state => state.dev.state.totalMoves == 1 && [Tid.irq 0, .proc 0].all state.idle)
    (by decide)
  simp only [Bool.and_eq_true, beq_iff_eq] at facts
  have turns := callsInTurn_sound [.irq 0, .proc 0] ran fun state action passed =>
    (Bool.and_eq_true_iff.mp passed).1
  have kept := turns.mono
    (fun state action => CallsInTurn state action ∧ ResetsUncounted state action)
    fun state action ok => ⟨ok.1, resetsUncounted_sound (Bool.and_eq_true_iff.mp ok.2).2⟩
  refine ⟨state, ran.execution, facts.1, counter_agrees kept fun tid => ?_⟩
  have idle := returned_of_run [.irq 0, .proc 0] ran (fun state action passed => by
    simp only [callsInTurn, Bool.and_eq_true] at passed
    exact passed.1.1) facts.2 tid
  rintro ⟨instr, member, -⟩
  simp [idle] at member

/-- A joystick step and a `RESET`, one after the other. -/
def resetAfterInput : List Action :=
  [.call (.irq 0) (.input .up)] ++ steps (.irq 0) 10 ++
  [.call (.proc 0) (.ioctl .reset)] ++ steps (.proc 0) 16

/-- The recording is empty, and one move is still counted. -/
theorem resetAfterInput_counts :
    ∃ state, Run next CallsInTurn (State.initial simServo 0) resetAfterInput state ∧
      (∀ tid, state.code tid = []) ∧ state.dev.buffer.moveFifo = [] ∧
      state.dev.state.totalMoves = 1 ∧ ¬ CountsAgree state.dev state.dev.state.totalMoves := by
  obtain ⟨state, ran, facts⟩ := exists_run next (callsInTurn [.irq 0, .proc 0])
    (State.initial simServo 0) resetAfterInput
    (fun state => state.dev.buffer.moveFifo.isEmpty && state.dev.state.totalMoves == 1 &&
      [Tid.irq 0, .proc 0].all state.idle) (by decide)
  simp only [Bool.and_eq_true, beq_iff_eq, List.isEmpty_iff] at facts
  obtain ⟨⟨empty, counted⟩, returned⟩ := facts
  have turns := (callsInTurn_sound [.irq 0, .proc 0] ran fun _ _ passed => passed).mono CallsInTurn
    fun _ _ ok => ok.1
  refine ⟨state, turns, ?_, empty, counted, ?_⟩
  · exact returned_of_run [.irq 0, .proc 0] ran (fun _ _ passed =>
      (Bool.and_eq_true_iff.mp passed).1) returned
  · rw [CountsAgree, empty, counted]
    decide

end EchoRobot
