import EchoRobot.Calls.Alone

/-! Reads of a file opened with `O_NONBLOCK`. The flag is tested once to decide whether
the call may go on and once more by the wait; another reader may clear it in between. -/

namespace EchoRobot

open Interleaving

/-- The last call of each thread, and whether its copy to the user failed. -/
structure Reads where
  request : Tid → Option Request
  faulted : Tid → Bool

def Reads.initial : Reads := ⟨fun _ => none, fun _ => false⟩

def Reads.update (reads : Reads) (state : State) (action : Action) (_ : State) : Reads :=
  match action with
  | .call tid request => ⟨Function.update reads.request tid (some request),
      Function.update reads.faulted tid false⟩
  | .step tid env =>
    if (state.instr? action).any Instr.copies ∧ env.copied = false then
      { reads with faulted := Function.update reads.faulted tid true }
    else reads
  | _ => reads

abbrev nextReads := withHistory next Reads.update

/-- The caller holds the snapshot as far as it asked for it. -/
def Received (count : Nat) (thread : Thread) : Prop :=
  ∃ held, thread.delivered = some (.copied held (min count sizeofEchoSnapshot) thread.snap)

/-- `-EAGAIN` or a snapshot, a failed copy to the user apart. -/
def ReadReturned (count : Nat) (faulted : Bool) (thread : Thread) : Prop :=
  thread.result = some (-EAGAIN) ∨
    thread.result = some (min count sizeofEchoSnapshot : Nat) ∧
      Received count thread ∨
    thread.result = some (-EFAULT) ∧ faulted = true

/-- A non-blocking read does not sleep, can always go on, and returns as it should. -/
structure NeverSleeps (pair : State × Reads) : Prop where
  awake : ∀ tid count, pair.2.request tid = some (.read true count) → pair.1.asleep tid = false
  enabled : ∀ tid count, pair.2.request tid = some (.read true count) → pair.1.code tid ≠ [] →
    ∀ env, ∃ after, next pair.1 (.step tid env) = some after
  returned : ∀ tid count, pair.2.request tid = some (.read true count) → pair.1.code tid = [] →
    ReadReturned count (pair.2.faulted tid) (pair.1.thread tid)

/-- Nobody clears the flag while a non-blocking reader is between its two tests. -/
def ClearsUnawaited (pair : State × Reads) (action : Action) : Prop :=
  pair.1.instr? action = some (.setNewDataAvail false) →
    ∀ tid count, pair.2.request tid = some (.read true count) →
      (pair.1.code tid).head? ≠ some .waitNewData

/-- What follows in a non-blocking read of `count` bytes: the copy, and after it the
return of its size. -/
def nonblockRule (count : Nat) : Instr → Code → Bool
  | .testNonblock, rest => rest.any Instr.copies
  | .copyToUser size, rest => decide (size = min count sizeofEchoSnapshot ∧
    rest = [.ret (min count sizeofEchoSnapshot : Nat)])
  | .ret value, rest => decide (value = (min count sizeofEchoSnapshot : Nat)) && rest.isEmpty
  | .waitNewData, rest => decide (rest.any Instr.copies = true ∧ rest.head? ≠ some .waitNewData)
  | instr, rest => instr.passes && !instr.mayReturn &&
    decide (rest.any Instr.copies = true ∧ rest.head? ≠ some .waitNewData)

theorem echoRead_nonblockRule (count : Nat) :
    obeys (nonblockRule count) (echoRead true count) = true := by
  simp [echoRead, buildSnapshot, nonblockRule, Instr.passes, Instr.mayReturn, Instr.copies]

/-- A non-blocking read that waits finds the flag set. -/
structure Reading (count : Nat) (pair : State × Reads) (tid : Tid) : Prop where
  shape : obeys (nonblockRule count) (pair.1.code tid) = true
  wakes : (pair.1.code tid).head? = some .waitNewData → pair.1.dev.newDataAvail = true
  copies : (pair.1.code tid).any Instr.copies = true ∨ pair.1.code tid = [] ∨
    Received count (pair.1.thread tid)
  returned : pair.1.code tid = [] →
    ReadReturned count (pair.2.faulted tid) (pair.1.thread tid)

section Reading
variable {state after : State} {reads : Reads} {tid : Tid} {count : Nat} {env : Env}
variable {instr : Instr} {rest : Code} {done : EchoDevice × Thread} {action : Action}

theorem Reading.awake (reading : Reading count (state, reads) tid) : state.asleep tid = false := by
  by_contra sleeps
  rcases asleep_cases (by simpa using sleeps) with ⟨rest, code, -⟩ | ⟨rest, code, unset⟩
  · have rule := obeys_head (code ▸ reading.shape)
    simp [nonblockRule, Instr.passes] at rule
  · have set := reading.wakes (by simp [code])
    simp [unset] at set

/-- Its next step is never refused. -/
theorem Reading.enabled (reading : Reading count (state, reads) tid) (ahead : state.code tid ≠ [])
    (env : Env) : ∃ after, next state (.step tid env) = some after := by
  obtain ⟨instr, rest, code⟩ := List.exists_cons_of_ne_nil ahead
  have taken : ∃ done, exec state tid env instr rest = some done := by
    by_cases waits : instr = .waitNewData
    · subst waits
      have set : state.dev.newDataAvail = true := reading.wakes (by simp [code])
      simp [exec, set]
    · have passes : instr.passes = true := by
        have rule := obeys_head (code ▸ reading.shape)
        cases instr <;> first
          | rfl
          | exact absurd rfl waits
          | simp [nonblockRule, Instr.passes] at rule
      obtain ⟨done, taken, -⟩ := exec_passes state tid env rest passes
      exact ⟨done, taken⟩
  obtain ⟨done, taken⟩ := taken
  exact ⟨_, next_step.mpr ⟨instr, rest, done, code, taken, rfl⟩⟩

/-- A step on the way to the copy. -/
theorem reading_onward (left : done.2.code = rest) (shape : obeys (nonblockRule count) rest = true)
    (copies : rest.any Instr.copies = true)
    (wakes : rest.head? = some .waitNewData → done.1.newDataAvail = true) :
    Reading count (state.settle tid done.1 done.2, reads) tid where
  shape := by rwa [settle_code, left]
  wakes head := wakes (by rwa [settle_code, left] at head)
  copies := Or.inl (by rwa [settle_code, left])
  returned back := by
    rw [settle_code, left] at back
    simp [back] at copies

/-- A step back to the caller. -/
theorem reading_back (left : done.2.code = [])
    (returned : ReadReturned count (reads.faulted tid) done.2) :
    Reading count (state.settle tid done.1 done.2, reads) tid where
  shape := by
    rw [settle_code, left]
    rfl
  wakes head := by simp [left] at head
  copies := Or.inr (Or.inl (by rw [settle_code, left]))
  returned _ := by rwa [settle_thread]

theorem reading_step (reading : Reading count (state, reads) tid)
    (code : state.code tid = instr :: rest) (taken : exec state tid env instr rest = some done) :
    Reading count (state.settle tid done.1 done.2,
      reads.update state (.step tid env) (state.settle tid done.1 done.2)) tid := by
  have shape : obeys (nonblockRule count) (instr :: rest) = true := code ▸ reading.shape
  have rule := obeys_head shape
  have later := obeys_tail shape
  cases instr with
  | testNonblock =>
    simp only [exec, leave] at taken
    split at taken <;> cases taken
    · rename_i set
      exact reading_onward rfl later rule fun _ => set
    · exact reading_back rfl (Or.inl rfl)
  | waitNewData =>
    simp only [exec] at taken
    split at taken <;> cases taken
    rename_i set
    exact reading_onward rfl later (of_decide_eq_true rule).1 fun _ => set
  | copyToUser size =>
    obtain ⟨rfl, last⟩ : size = min count sizeofEchoSnapshot ∧
      rest = [.ret (min count sizeofEchoSnapshot : Nat)] := of_decide_eq_true rule
    simp only [exec, leave] at taken
    split at taken <;> cases taken
    · refine ⟨by rwa [settle_code], fun head => ?_, Or.inr (Or.inr ?_), fun back => ?_⟩
      · simp [last] at head
      · rw [settle_thread]
        exact ⟨_, rfl⟩
      · simp [last] at back
    · rename_i failed
      have faulted : (reads.update state (.step tid env)
          (state.settle tid state.dev
            (({ state.thread tid with code := rest }).leave (some (-EFAULT))))).faulted tid =
          true := by
        simp [Reads.update, instr?_step code, failed, Instr.copies]
      exact reading_back rfl (Or.inr (Or.inr ⟨rfl, faulted⟩))
  | ret value =>
    simp only [nonblockRule, Bool.and_eq_true, decide_eq_true_eq] at rule
    have received : Received count (state.thread tid) := by
      rcases reading.copies with ahead | back | received
      · simp [code, List.isEmpty_iff.mp rule.2, Instr.copies] at ahead
      · simp [code] at back
      · exact received
    cases taken
    exact reading_back rfl (Or.inr (Or.inl ⟨by rw [rule.1]; rfl, received⟩))
  | _ =>
    simp only [nonblockRule, Bool.and_eq_true, Bool.not_eq_true', decide_eq_true_eq] at rule
    obtain ⟨⟨passes, stays⟩, copies, other⟩ := rule
    exact reading_onward (exec_through passes stays taken) later copies fun head =>
      absurd head other

/-- A read stays within the rule while nobody clears the flag that it waits for. -/
theorem reading_next {id : Nat} (reading : Reading count (state, reads) (.proc id))
    (requested : reads.request (.proc id) = some (.read true count))
    (ok : ClearsUnawaited (state, reads) action)
    (same : ∀ request, action ≠ .call (.proc id) request)
    (moved : next state action = some after) :
    Reading count (after, reads.update state action after) (.proc id) := by
  by_cases actor : action.actor = some (.proc id)
  · cases acts actor moved with
    | call request => exact absurd rfl (same request)
    | step env instr rest done code taken => exact reading_step reading code taken
    | signal asleep => simp [reading.awake] at asleep
  · have thread := thread_next actor moved
    have code : after.code (.proc id) = state.code (.proc id) := congrArg Thread.code thread
    have faulted : (reads.update state action after).faulted (.proc id) =
        reads.faulted (.proc id) := by
      cases action with
      | call caller request =>
        have other : Tid.proc id ≠ caller := fun same => actor (by rw [same]; rfl)
        simp [Reads.update, other]
      | step stepper env =>
        have other : Tid.proc id ≠ stepper := fun same => actor (by rw [same]; rfl)
        simp only [Reads.update]
        split
        · simp [other]
        · rfl
      | _ => rfl
    constructor
    · rw [code]
      exact reading.shape
    · rw [code]
      intro head
      have set := reading.wakes head
      by_cases clears : state.instr? action = some (.setNewDataAvail false)
      · exact absurd head (ok clears _ _ requested)
      · exact newDataAvail_next set clears moved
    · rw [code, thread]
      exact reading.copies
    · rw [code, thread, faulted]
      exact reading.returned

end Reading

section Run
variable {servo : EchoServoCtx} {clock : Nat} {actions : List Action} {pair : State × Reads}

/-- A call that has just been entered. -/
theorem reading_call {state : State} {reads : Reads} {tid : Tid} {count : Nat} :
    Reading count (state.enter tid (.read true count),
      reads.update state (.call tid (.read true count)) (state.enter tid (.read true count)))
      tid := by
  have code := enter_code state tid (.read true count)
  have member : (echoRead true count).any Instr.copies = true := by
    simp [echoRead, Instr.copies]
  refine ⟨?_, fun head => ?_, Or.inl ?_, fun back => ?_⟩
  · rw [code]
    exact echoRead_nonblockRule count
  · simp [Request.code, echoRead] at head
  · rwa [code]
  · rw [code] at back
    simp [Request.code, echoRead] at back

/-- Threads that are asked to read are processes, and read so. -/
theorem reading_of_run
    (run : Run nextReads ClearsUnawaited (State.initial servo clock, Reads.initial) actions pair)
    (tid : Tid) (count : Nat) (requested : pair.2.request tid = some (.read true count)) :
    Reading count pair tid := by
  have kept : ∀ tid count, pair.2.request tid = some (.read true count) →
      (∃ id, tid = .proc id) ∧ Reading count pair tid := by
    refine run.invariant (fun pair => ∀ tid count, pair.2.request tid = some (.read true count) →
      (∃ id, tid = .proc id) ∧ Reading count pair tid) ?_ ?_
    · rintro tid count ⟨⟩
    · rintro - ⟨before, reads⟩ action after - kept ok both tid count requested
      obtain ⟨reached, moved, rfl⟩ := withHistory_next both
      dsimp only at kept moved requested
      by_cases call : ∃ request, action = .call tid request
      · obtain ⟨request, rfl⟩ := call
        obtain rfl : request = .read true count := by simpa [Reads.update] using requested
        obtain ⟨⟨may, idle⟩, rfl⟩ := next_call.mp moved
        refine ⟨?_, reading_call⟩
        cases tid <;> first | exact ⟨_, rfl⟩ | cases may
      · have earlier : reads.request tid = some (.read true count) := by
          cases action with
          | call caller request =>
            have other : tid ≠ caller := fun same => call ⟨request, by rw [same]⟩
            simpa [Reads.update, other] using requested
          | step stepper env =>
            simp only [Reads.update] at requested
            split at requested <;> exact requested
          | _ => exact requested
        obtain ⟨⟨id, rfl⟩, reading⟩ := kept tid count earlier
        exact ⟨⟨id, rfl⟩, reading_next reading earlier ok (fun request same =>
          call ⟨request, same⟩) moved⟩
  exact (kept tid count requested).2

/-- A non-blocking read does not sleep while nobody clears the flag between its two
tests. -/
theorem nonblocking_never_sleeps
    (run : Run nextReads ClearsUnawaited (State.initial servo clock, Reads.initial) actions pair) :
    NeverSleeps pair where
  awake tid count requested := (reading_of_run run tid count requested).awake
  enabled tid count requested ahead env :=
    (reading_of_run run tid count requested).enabled ahead env
  returned tid count requested := (reading_of_run run tid count requested).returned

end Run

/-- Whoever clears the flag there puts the reader to sleep. -/
theorem cleared_sleeps {pair after : State × Reads} {action : Action}
    (clears : ¬ ClearsUnawaited pair action) (moved : nextReads pair action = some after) :
    ¬ NeverSleeps after := by
  intro never
  simp only [ClearsUnawaited, not_forall, not_not] at clears
  obtain ⟨clear, tid, count, requested, waits⟩ := clears
  obtain ⟨moved, history⟩ := withHistory_some.mp moved
  obtain ⟨clearer, env, rest, done, rfl, code, taken, settled⟩ := next_instr clear moved
  have other : tid ≠ clearer := by
    rintro rfl
    simp [code] at waits
  have thread : after.1.thread tid = pair.1.thread tid :=
    settled ▸ settle_thread_of_ne _ _ _ _ _ other
  obtain ⟨later, waiting⟩ := List.head?_eq_some_iff.mp waits
  have unset : after.1.dev.newDataAvail = false := by
    cases taken
    rw [← settled]
    rfl
  have still : after.2.request tid = some (.read true count) := by
    rw [history]
    simpa [Reads.update, clear, Instr.copies] using requested
  have code' : after.1.code tid = .waitNewData :: later :=
    (congrArg Thread.code thread).trans waiting
  have awake := never.awake tid count still
  simp [State.asleep, code', unset] at awake

/-- A notification is read without waiting, and the next read is told to come again. -/
def notifiedReads : List Action :=
  [.call (.proc 1) (.write sizeofEchoCmd (some ⟨echoCmdMove, 1, 45, 0⟩))] ++ steps (.proc 1) 4 ++
  [.call (.proc 0) (.read true sizeofEchoSnapshot)] ++ steps (.proc 0) 13 ++
  [.call (.proc 1) (.read true sizeofEchoSnapshot)] ++ steps (.proc 1) 1

theorem nonblocking_never_sleeps_notified :
    ∃ pair, run nextReads (State.initial simServo 0, Reads.initial) notifiedReads = some pair ∧
      (pair.1.thread (.proc 0)).result = some 28 ∧
      (pair.1.thread (.proc 1)).result = some (-EAGAIN) ∧ NeverSleeps pair := by
  obtain ⟨pair, ran, facts⟩ := exists_run nextReads
    (fun pair action => movesOnly [.proc 0, .proc 1] pair.1 action &&
      (pair.1.instr? action != some (.setNewDataAvail false) ||
        [Tid.proc 0, .proc 1].all fun tid => (pair.1.code tid).head? != some .waitNewData))
    (State.initial simServo 0, Reads.initial) notifiedReads
    (fun pair => (pair.1.thread (.proc 0)).result == some 28 &&
      (pair.1.thread (.proc 1)).result == some (-EAGAIN)) (by decide)
  have unawaited := ran.strengthen ClearsUnawaited <| by
    intro earlier pair action before passed clears tid count _
    simp only [Bool.and_eq_true, Bool.or_eq_true, bne_iff_ne, List.all_eq_true] at passed
    by_cases listed : tid ∈ [Tid.proc 0, .proc 1]
    · exact passed.2.resolve_left (not_not_intro clears) tid listed
    · have idle : pair.1.code tid = [] := by
        refine code_of_run [.proc 0, .proc 1] before.forget ?_ listed
        rintro state action ⟨history, passed⟩
        simp only [Bool.and_eq_true] at passed
        exact passed.1
      simp [idle]
  simp only [Bool.and_eq_true, beq_iff_eq] at facts
  exact ⟨pair, ran.execution, facts.1, facts.2, nonblocking_never_sleeps unawaited⟩

/-- Two readers find the same notification, and the first to clear it leaves the other to
wait. -/
def contendedRead : List Action :=
  [.call (.proc 2) (.write sizeofEchoCmd (some ⟨echoCmdMove, 1, 45, 0⟩))] ++ steps (.proc 2) 4 ++
  [.call (.proc 0) (.read true sizeofEchoSnapshot)] ++ steps (.proc 0) 1 ++
  [.call (.proc 1) (.read true sizeofEchoSnapshot)] ++ steps (.proc 1) 13

theorem contendedRead_sleeps :
    ∃ pair, run nextReads (State.initial simServo 0, Reads.initial) contendedRead = some pair ∧
      pair.2.request (.proc 0) = some (.read true sizeofEchoSnapshot) ∧
      pair.1.asleep (.proc 0) = true ∧ ¬ NeverSleeps pair := by
  obtain ⟨pair, ran, facts⟩ := exists_run nextReads (fun _ _ => true)
    (State.initial simServo 0, Reads.initial) contendedRead
    (fun pair => pair.2.request (.proc 0) == some (.read true sizeofEchoSnapshot) &&
      pair.1.asleep (.proc 0)) (by decide)
  simp only [Bool.and_eq_true, beq_iff_eq] at facts
  obtain ⟨requested, asleep⟩ := facts
  refine ⟨pair, ran.execution, requested, asleep, fun never => ?_⟩
  simp [never.awake _ _ requested] at asleep

end EchoRobot
