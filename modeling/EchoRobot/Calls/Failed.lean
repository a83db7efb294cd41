import EchoRobot.Calls.Alone

/-! Calls that fail. Most of them fail before they have changed anything; two do not. -/

namespace EchoRobot

open Interleaving

/-- When the call returns an error, the device and the other threads are as they were. -/
def FailsCleanly (tid : Tid) (env : Env) (request : Request) (state : State) : Prop :=
  ∀ final value, ReturnsAlone tid env request state final →
    (final.thread tid).result = some value → value < 0 →
    final.dev = state.dev ∧ ∀ other, other ≠ tid → final.thread other = state.thread other

/-- A read that clears the flag and cannot deliver what it has gathered, and a `REPLAY`
that takes back a completion before it is refused. -/
def Loses (env : Env) (dev : EchoDevice) : Request → Prop
  | .read .. => dev.newDataAvail = true ∧ env.copied = false
  | .write count (some cmd) => sizeofEchoCmd ≤ count ∧ cmd.command = echoCmdReplay ∧
    dev.state.mode = .replay ∧ dev.replayFinished = true
  | _ => False

/-- Instructions at which a call can fail, when the bus works and nobody signals. -/
def Instr.mayFail (copied : Bool) : Instr → Bool
  | .lockStartReplay | .setAngleOrReturn .. | .testNonblock => true
  | .copyToUser _ => !copied
  | .ret value => decide (value < 0)
  | _ => false

/-- What has been written, no later instruction fails after. -/
def failRule (copied : Bool) (instr : Instr) (rest : Code) : Bool :=
  instr.writes.isEmpty || rest.all fun later => !later.mayFail copied

section Finish
variable {state final : State} {tid : Tid} {env : Env} {instr : Instr} {rest : Code}
variable {done : EchoDevice × Thread}

/-- An instruction that fails changes nothing; one that does not leaves no error behind. -/
theorem exec_result (bus : env.i2c = fun _ => 0) (fresh : (state.thread tid).result = none)
    (taken : exec state tid env instr rest = some done) :
    done.2.result = none ∨ done.2.code = [] ∧
      ∀ value, done.2.result = some value → value < 0 →
        done.1 = state.dev ∧ instr.mayFail env.copied = true := by
  cases instr with
  | setAngleOrReturn servoId angle =>
    simp only [exec, leave, bus] at taken
    split at taken <;> cases taken
    · exact Or.inl fresh
    · rename_i failed
      have same := (echoServoSetAngle_good state.dev.servo servoId angle).resolve_left failed
      exact Or.inr ⟨rfl, fun value _ _ => ⟨by rw [same], rfl⟩⟩
  | copyToUser size =>
    simp only [exec, leave] at taken
    split at taken <;> cases taken
    · exact Or.inl fresh
    · rename_i failed
      exact Or.inr ⟨rfl, fun value _ _ => ⟨rfl, by simpa [Instr.mayFail] using failed⟩⟩
  | ret returned =>
    cases taken
    refine Or.inr ⟨rfl, fun value same negative => ⟨rfl, ?_⟩⟩
    obtain rfl := Option.some.inj same
    exact decide_eq_true negative
  | _ =>
    simp only [exec, leave] at taken
    repeat' split at taken
    all_goals first
      | contradiction
      | (cases taken; exact Or.inl fresh)
      | (cases taken; exact Or.inl rfl)
      | (cases taken; exact Or.inr ⟨rfl, fun value _ _ => ⟨rfl, rfl⟩⟩)

/-- Only the calling thread moves. -/
theorem Finishes.others (finishes : Finishes tid env state final) {other : Tid}
    (different : other ≠ tid) : final.thread other = state.thread other := by
  induction finishes with
  | back => rfl
  | step instr rest done code taken later ih =>
    exact ih.trans (settle_thread_of_ne _ _ _ _ _ different)

/-- Code without a failing instruction returns no error. -/
theorem Finishes.succeeds (finishes : Finishes tid env state final) (bus : env.i2c = fun _ => 0)
    (fresh : (state.thread tid).result = none)
    (sure : ∀ instr ∈ state.code tid, instr.ofSyscall = true ∧
      instr.mayFail env.copied = false) :
    ∀ value, (final.thread tid).result = some value → ¬ value < 0 := by
  induction finishes with
  | back =>
    intro value returned
    simp [fresh] at returned
  | @step state final instr rest done code taken later ih =>
    rw [code] at sure
    have left := exec_suffix (sure instr (by simp)).1 taken
    rcases exec_result bus fresh taken with open_ | ⟨nothing, fails⟩
    · refine ih (by rwa [settle_thread]) fun other member => ?_
      rw [settle_code] at member
      exact sure other (by simp [left.subset member])
    · intro value returned negative
      rw [later.returned ((settle_code ..).trans nothing), settle_thread] at returned
      have failing := (fails value returned negative).2
      simp [(sure instr (by simp)).2] at failing

/-- Code that obeys the rule fails before it changes anything. -/
theorem Finishes.fails (finishes : Finishes tid env state final) (bus : env.i2c = fun _ => 0)
    (fresh : (state.thread tid).result = none)
    (calls : ∀ instr ∈ state.code tid, instr.ofSyscall = true)
    (shape : obeys (failRule env.copied) (state.code tid) = true) :
    ∀ value, (final.thread tid).result = some value → value < 0 → final.dev = state.dev := by
  induction finishes with
  | back =>
    intro value returned
    simp [fresh] at returned
  | @step state final instr rest done code taken later ih =>
    rw [code] at shape calls
    have left := exec_suffix (calls instr (by simp)) taken
    intro value returned negative
    rcases exec_result bus fresh taken with open_ | ⟨nothing, fails⟩
    · have inside : ∀ other ∈ (state.settle tid done.1 done.2).code tid,
          other ∈ rest ∧ other.ofSyscall = true := by
        rw [settle_code]
        exact fun other member => ⟨left.subset member, calls other (by simp [left.subset member])⟩
      have fresh' : ((state.settle tid done.1 done.2).thread tid).result = none := by
        rwa [settle_thread]
      by_cases writes : instr.writes = []
      · have shape' : obeys (failRule env.copied) ((state.settle tid done.1 done.2).code tid) =
            true := by
          rw [settle_code]
          exact obeys_suffix left (obeys_tail shape)
        have same := ih fresh' (fun other member => (inside other member).2) shape' value returned
          negative
        have frame := exec_frame taken
        rw [writes] at frame
        exact same.trans (eq_of_frame frame)
      · have sure : ∀ other ∈ rest, other.mayFail env.copied = false := by
          have rule := obeys_head shape
          simpa [failRule, writes] using rule
        refine absurd negative (later.succeeds bus fresh' (fun other member => ?_) value returned)
        exact ⟨(inside other member).2, sure other (inside other member).1⟩
    · rw [later.returned ((settle_code ..).trans nothing)] at returned ⊢
      exact (fails value (by simpa using returned) negative).1

end Finish

section Read
variable {state final : State} {tid : Tid} {env : Env} {nonblock : Bool} {count : Nat}

/-- What a read does once it has seen the flag. -/
def gather (count : Nat) : Code :=
  [.setNewDataAvail false] ++ buildSnapshot ++
    [.copyToUser (min count sizeofEchoSnapshot), .ret (min count sizeofEchoSnapshot : Nat)]

theorem echoRead_eq (nonblock : Bool) (count : Nat) : echoRead nonblock count =
    (if nonblock then [.testNonblock] else []) ++ .waitNewData :: gather count := by
  simp [echoRead, gather]

/-- A call gets to gathering exactly when the flag is set; a non-blocking one fails otherwise. -/
theorem read_unset (unset : state.dev.newDataAvail = false)
    (ahead : state.code tid = echoRead nonblock count) (finishes : Finishes tid env state final) :
    final.dev = state.dev := by
  rw [echoRead_eq] at ahead
  cases nonblock with
  | true =>
    obtain ⟨done, taken, later⟩ := finishes.head ahead
    simp only [exec, leave, unset, Bool.false_eq_true, ↓reduceIte, Option.some.injEq] at taken
    subst taken
    rw [later.returned (settle_code ..)]
    rfl
  | false =>
    obtain ⟨done, taken, -⟩ := finishes.head ahead
    simp [exec, unset] at taken

/-- What has been gathered for a bad address is lost. -/
theorem gather_lost (bad : env.copied = false) (ahead : state.code tid = gather count) :
    ∃ final, Finishes tid env state final ∧ final.dev.newDataAvail = false ∧
      (final.thread tid).result = some (-EFAULT) := by
  obtain ⟨final, finishes⟩ := exists_finishes tid env ahead (by
    simp [gather, buildSnapshot, Instr.passes])
  refine ⟨final, finishes, ?_⟩
  obtain ⟨done, taken, later⟩ := finishes.head ahead
  cases taken
  obtain ⟨middle, onward, reached, same⟩ := later.through (settle_code ..) (by
    simp [buildSnapshot, Instr.passes, Instr.mayReturn])
  obtain ⟨done, taken, back⟩ := onward.head reached
  simp only [exec, leave, bad, Bool.false_eq_true, ↓reduceIte, Option.some.injEq] at taken
  subst taken
  rw [back.returned (settle_code ..), settle_dev, same (by simp [buildSnapshot, Instr.writes]),
    settle_thread]
  exact ⟨rfl, rfl⟩

/-- Every read that finds the flag set comes to gather. -/
theorem read_lost (set : state.dev.newDataAvail = true) (bad : env.copied = false)
    (ahead : state.code tid = echoRead nonblock count) :
    ∃ final, Finishes tid env state final ∧ final.dev.newDataAvail = false ∧
      (final.thread tid).result = some (-EFAULT) := by
  have waits : ∀ state : State, state.dev.newDataAvail = true →
      state.code tid = .waitNewData :: gather count →
      ∃ final, Finishes tid env state final ∧ final.dev.newDataAvail = false ∧
        (final.thread tid).result = some (-EFAULT) := by
    intro state set ahead
    have taken : exec state tid env .waitNewData (gather count) =
        some (state.dev, { state.thread tid with code := gather count }) := by
      simp [exec, set]
    obtain ⟨final, finishes, lost⟩ := gather_lost bad (settle_code state tid state.dev
      { state.thread tid with code := gather count })
    exact ⟨final, .step _ _ _ ahead taken finishes, lost⟩
  rw [echoRead_eq] at ahead
  cases nonblock with
  | true =>
    have taken : exec state tid env .testNonblock (.waitNewData :: gather count) =
        some (state.dev, { state.thread tid with code := .waitNewData :: gather count }) := by
      simp [exec, set]
    obtain ⟨final, finishes, lost⟩ := waits (state.settle tid state.dev
      { state.thread tid with code := .waitNewData :: gather count }) set (settle_code ..)
    exact ⟨final, .step _ _ _ ahead taken finishes, lost⟩
  | false => exact waits state set ahead

end Read

section Replay
variable {state final : State} {tid : Tid} {env : Env} {cmd : EchoCmd} {count : Nat}

theorem echoWrite_replay (whole : sizeofEchoCmd ≤ count) (replay : cmd.command = echoCmdReplay) :
    echoWrite count (some cmd) = .setReplayFinished false :: .lockStartReplay ::
      ([.timerDeleteSync] ++ stateOpStartReplay ++ notifyReaders ++
        [.waitReplayDone, .ret count]) := by
  simp [echoWrite, Nat.not_lt.mpr whole, replay, echoCmdTeach, echoCmdReplay, echoStateStartReplay]

/-- A `REPLAY` that fails has only taken back a completion. -/
theorem replay_fails (whole : sizeofEchoCmd ≤ count) (replay : cmd.command = echoCmdReplay)
    (ahead : state.code tid = echoWrite count (some cmd)) (bus : env.i2c = fun _ => 0)
    (fresh : (state.thread tid).result = none) (finishes : Finishes tid env state final)
    {value : Int} (returned : (final.thread tid).result = some value) (negative : value < 0) :
    state.dev.state.mode = .replay ∧ final.dev = { state.dev with replayFinished := false } := by
  obtain ⟨done, taken, later⟩ := finishes.head (ahead.trans (echoWrite_replay whole replay))
  cases taken
  obtain ⟨done, taken, later⟩ := later.head (settle_code ..)
  by_cases busy : state.dev.state.mode = .replay
  · simp only [exec, leave, settle_dev, busy, ↓reduceIte] at taken
    cases taken
    refine ⟨busy, ?_⟩
    rw [later.returned (settle_code ..)]
    rfl
  · simp only [exec, settle_dev, busy, ↓reduceIte] at taken
    cases taken
    refine absurd negative (later.succeeds bus (by simpa using fresh) ?_ value returned)
    rw [settle_code]
    intro instr member
    simp only [stateOpStartReplay, notifyReaders, List.cons_append, List.nil_append,
      List.mem_cons, List.not_mem_nil, or_false] at member
    rcases member with rfl | rfl | rfl | rfl | rfl | rfl <;> simp [Instr.ofSyscall, Instr.mayFail]

/-- In mode `REPLAY` it takes back the completion and is refused. -/
theorem replay_refused (whole : sizeofEchoCmd ≤ count) (replay : cmd.command = echoCmdReplay)
    (ahead : state.code tid = echoWrite count (some cmd)) (busy : state.dev.state.mode = .replay) :
    ∃ final, Finishes tid env state final ∧ final.dev.replayFinished = false ∧
      (final.thread tid).result = some (-EBUSY) := by
  generalize remains : [.timerDeleteSync] ++ stateOpStartReplay ++ notifyReaders ++
    [.waitReplayDone, .ret count] = rest
  let dev := { state.dev with replayFinished := false }
  let thread := { state.thread tid with code := .lockStartReplay :: rest }
  have takesBack : exec state tid env (.setReplayFinished false) (.lockStartReplay :: rest) =
      some (dev, thread) := rfl
  have refused : exec (state.settle tid dev thread) tid env .lockStartReplay rest =
      some (dev, thread.leave (some (-EBUSY))) := by
    simp [exec, leave, dev, thread, busy, Thread.leave]
  refine ⟨_, .step _ _ _ (ahead.trans (remains ▸ echoWrite_replay whole replay)) takesBack
    (.step _ _ _ (settle_code ..) refused (.back (settle_code ..))), rfl, ?_⟩
  simp [Thread.leave]

end Replay

section Request
variable {state final : State} {id : Nat} {env : Env} {request : Request}

/-- Outside the two, calls fail before they change anything. -/
theorem failRule_of_request (may : (Tid.proc id).mayCall request = true)
    (reads : ∀ nonblock count, request = .read nonblock count → env.copied = true)
    (replays : ∀ count cmd, request = .write count (some cmd) → sizeofEchoCmd ≤ count →
      cmd.command ≠ echoCmdReplay) :
    obeys (failRule env.copied) request.code = true := by
  cases request with
  | read nonblock count =>
    have copied := reads nonblock count rfl
    cases nonblock <;>
      simp [Request.code, echoRead, buildSnapshot, failRule, Instr.writes, Instr.mayFail, copied]
  | write count copied =>
    simp only [Request.code, echoWrite]
    split
    · rfl
    · rename_i whole
      cases copied with
      | none => rfl
      | some cmd =>
        simp only [if_neg (replays count cmd rfl (Nat.not_lt.mp whole))]
        repeat' split
        all_goals simp [echoStateSetMode, echoStateStop, stateOpCancelReplay, signalReplayDone,
          notifyReaders, failRule, Instr.writes, Instr.mayFail]
  | ioctl ioc =>
    simp only [Request.code, echoIoctl]
    repeat' split
    all_goals simp [echoIocReset, echoStateSetMode, echoStateStartReplay, echoStateStop,
      stateOpStartReplay, stateOpCancelReplay, signalReplayDone, buildSnapshot, notifyReaders,
      failRule, Instr.writes, Instr.mayFail]
  | input pin => cases may

/-- Only a call that loses something fails and leaves its mark on the device. -/
theorem dev_of_failed (may : (Tid.proc id).mayCall request = true)
    (bus : env.i2c = fun _ => 0)
    (keeps : ¬ Loses env state.dev request)
    (finishes : Finishes (.proc id) env (state.enter (.proc id) request) final) {value : Int}
    (returned : (final.thread (.proc id)).result = some value) (negative : value < 0) :
    final.dev = state.dev := by
  have fresh : ((state.enter (.proc id) request).thread (.proc id)).result = none := by
    simp [State.enter, Thread.begin]
  have calls : ∀ instr ∈ (state.enter (.proc id) request).code (.proc id),
      instr.ofSyscall = true := by
    rw [enter_code]
    exact (entry_of_mayCall may).runs
  have lawful : obeys (failRule env.copied) request.code = true → final.dev = state.dev := by
    intro shape
    rw [finishes.fails bus fresh calls ((enter_code ..).symm ▸ shape) value returned negative]
    exact enter_dev state may
  cases request with
  | read nonblock count =>
    by_cases good : env.copied = true
    · exact lawful (failRule_of_request may (fun _ _ _ => good) (by simp))
    · have bad : env.copied = false := by simpa using good
      have entered := enter_code state (.proc id) (.read nonblock count)
      have unset : state.dev.newDataAvail = false := by simpa [Loses, bad] using keeps
      rw [← enter_dev state may] at unset ⊢
      exact read_unset unset entered finishes
  | write count copied =>
    by_cases replays : ∃ cmd, copied = some cmd ∧ sizeofEchoCmd ≤ count ∧
        cmd.command = echoCmdReplay
    · obtain ⟨cmd, rfl, whole, replay⟩ := replays
      obtain ⟨busy, same⟩ := replay_fails whole replay (enter_code ..) bus fresh finishes
        returned negative
      rw [enter_dev state may] at busy same
      have unset : state.dev.replayFinished = false := by
        simpa [Loses, whole, replay, busy] using keeps
      rw [same, ← unset]
    · refine lawful (failRule_of_request may (by simp) fun count' cmd same whole replay => ?_)
      cases same
      exact replays ⟨cmd, rfl, whole, replay⟩
  | ioctl ioc => exact lawful (failRule_of_request may (by simp) (by simp))
  | input pin => cases may

/-- A call that loses something returns an error and a changed device. -/
theorem lost_of_loses (id : Nat) (loses : Loses env state.dev request) :
    ∃ final value, Finishes (.proc id) env (state.enter (.proc id) request) final ∧
      (final.thread (.proc id)).result = some value ∧ value < 0 ∧ final.dev ≠ state.dev := by
  cases request with
  | read nonblock count =>
    obtain ⟨set, bad⟩ := loses
    have entered := enter_code state (.proc id) (.read nonblock count)
    have same := enter_dev state (rfl : (Tid.proc id).mayCall (.read nonblock count) = true)
    rw [← same] at set ⊢
    obtain ⟨final, finishes, unset, returned⟩ := read_lost set bad entered
    refine ⟨final, _, finishes, returned, by decide, fun same => ?_⟩
    rw [same, set] at unset
    cases unset
  | write count copied =>
    cases copied with
    | none => exact loses.elim
    | some cmd =>
      obtain ⟨whole, replay, busy, set⟩ := loses
      have entered := enter_code state (.proc id) (.write count (some cmd))
      have same := enter_dev state
        (rfl : (Tid.proc id).mayCall (.write count (some cmd)) = true)
      rw [← same] at busy set ⊢
      obtain ⟨final, finishes, unset, returned⟩ := replay_refused whole replay entered busy
      refine ⟨final, _, finishes, returned, by decide, fun same => ?_⟩
      rw [same, set] at unset
      cases unset
  | ioctl ioc => exact loses.elim
  | input pin => exact loses.elim

theorem not_failsCleanly (may : (Tid.proc id).mayCall request = true)
    (idle : state.code (.proc id) = []) (loses : Loses env state.dev request) :
    ¬ FailsCleanly (.proc id) env request state := by
  obtain ⟨final, value, finishes, returned, negative, changed⟩ := lost_of_loses id loses
  intro clean
  have returns := (returnsAlone_iff may idle).mpr finishes
  exact changed (clean final value returns returned negative).1

/-- A failed call leaves everything as it was, unless it is one that loses something. -/
theorem failsCleanly_iff (may : (Tid.proc id).mayCall request = true)
    (idle : state.code (.proc id) = []) (bus : env.i2c = fun _ => 0) :
    FailsCleanly (.proc id) env request state ↔ ¬ Loses env state.dev request := by
  refine ⟨fun clean loses => not_failsCleanly may idle loses clean, ?_⟩
  intro keeps final value returns returned negative
  have finishes := (returnsAlone_iff may idle).mp returns
  refine ⟨dev_of_failed may bus keeps finishes returned negative, fun other different => ?_⟩
  rw [finishes.others different]
  exact settle_thread_of_ne _ _ _ _ _ different

end Request

/-- A mode that does not exist is refused. -/
theorem failsCleanly_iff_unknownMode :
    FailsCleanly (.proc 0) Env.good (.ioctl (.setMode (some 3))) (State.initial simServo 0) :=
  (@failsCleanly_iff (State.initial simServo 0) 0 Env.good (.ioctl (.setMode (some 3))) rfl rfl
    rfl).mpr fun loses => loses

/-- A replay that is over, announced to readers and writers, and another that has begun. -/
def announcedReplay : List Action :=
  [.call (.proc 1) (.ioctl (.setMode (some 2)))] ++ steps (.proc 1) 6 ++
  [.startWork] ++ steps .worker 7 ++
  [.call (.proc 1) (.ioctl (.setMode (some 2)))] ++ steps (.proc 1) 6

/-- There a bad address costs a reader the announcement, and a refused `REPLAY` costs the
writers theirs. -/
theorem announcedReplay_lost :
    ∃ state, run next (State.initial simServo 0) announcedReplay = some state ∧
      ¬ FailsCleanly (.proc 0) { Env.good with copied := false } (.read true 28) state ∧
      ¬ FailsCleanly (.proc 0) Env.good (writeCmd echoCmdReplay) state := by
  obtain ⟨state, ran, facts⟩ := exists_run next (fun _ _ => true)
    (State.initial simServo 0) announcedReplay
    (fun state => state.code (.proc 0) == [] && state.dev.newDataAvail &&
      state.dev.replayFinished && state.dev.state.mode == .replay) (by decide)
  simp only [Bool.and_eq_true, beq_iff_eq] at facts
  obtain ⟨⟨⟨idle, news⟩, finished⟩, busy⟩ := facts
  exact ⟨state, ran.execution, not_failsCleanly rfl idle ⟨news, rfl⟩,
    not_failsCleanly rfl idle ⟨by decide, rfl, busy, finished⟩⟩

end EchoRobot
