import EchoRobot.Model.Threads

/-! A call that is made while nothing else moves. Its thread takes step after step,
the kernel and the bus answering as in one `Env`, until it is back at its caller. -/

namespace EchoRobot

open Interleaving

def stepsAlone (tid : Tid) (env : Env) (count : Nat) : List Action :=
  List.replicate count (.step tid env)

/-- The call returns in `final`. -/
def ReturnsAlone (tid : Tid) (env : Env) (request : Request) (state final : State) : Prop :=
  final.code tid = [] ∧ ∃ entered count, next state (.call tid request) = some entered ∧
    run next entered (stepsAlone tid env count) = some final

variable {state entered final : State} {tid : Tid} {env : Env} {request : Request}

theorem run_stepsAlone_succ {count : Nat} :
    run next state (stepsAlone tid env (count + 1)) =
      (next state (.step tid env)).bind (run next · (stepsAlone tid env count)) := rfl

/-- What the rest of a thread's code leads to, one instruction after the other. -/
inductive Finishes (tid : Tid) (env : Env) : State → State → Prop where
  | back {state : State} (returned : state.code tid = []) : Finishes tid env state state
  | step {state final : State} (instr : Instr) (rest : Code) (done : EchoDevice × Thread)
      (code : state.code tid = instr :: rest) (taken : exec state tid env instr rest = some done)
      (later : Finishes tid env (state.settle tid done.1 done.2) final) :
      Finishes tid env state final

theorem finishes_of_run {count : Nat} (returned : final.code tid = [])
    (ran : run next state (stepsAlone tid env count) = some final) :
    Finishes tid env state final := by
  induction count generalizing state with
  | zero =>
    obtain rfl : state = final := by simpa [stepsAlone, run] using ran
    exact .back returned
  | succ count ih =>
    rw [run_stepsAlone_succ] at ran
    obtain ⟨middle, moved, later⟩ := Option.bind_eq_some_iff.mp ran
    obtain ⟨instr, rest, done, code, taken, rfl⟩ := next_step.mp moved
    exact .step instr rest done code taken (ih later)

theorem Finishes.run (finishes : Finishes tid env state final) :
    final.code tid = [] ∧
      ∃ count, Interleaving.run next state (stepsAlone tid env count) = some final := by
  induction finishes with
  | back returned => exact ⟨returned, 0, rfl⟩
  | step instr rest done code taken later ih =>
    obtain ⟨returned, count, ran⟩ := ih
    refine ⟨returned, count + 1, ?_⟩
    rw [run_stepsAlone_succ, next_step.mpr ⟨instr, rest, done, code, taken, rfl⟩]
    exact ran

/-- The first step of what is left. -/
theorem Finishes.head {instr : Instr} {rest : Code} (finishes : Finishes tid env state final)
    (code : state.code tid = instr :: rest) : ∃ done, exec state tid env instr rest = some done ∧
      Finishes tid env (state.settle tid done.1 done.2) final := by
  cases finishes with
  | back returned => simp [code] at returned
  | step instr' rest' done code' taken later =>
    obtain ⟨rfl, rfl⟩ := List.cons.inj (code'.symm.trans code)
    exact ⟨done, taken, later⟩

theorem Finishes.returned (finishes : Finishes tid env state final)
    (returned : state.code tid = []) : final = state := by
  cases finishes with
  | back => rfl
  | step instr rest done code => simp [code] at returned

/-- Instructions that another thread may have to wait for, and the jumps of the worker. -/
def Instr.passes : Instr → Bool
  | .timerDeleteSync | .cancelWorkSync | .waitNewData | .waitReplayDone => false
  | .snapshot | .shouldStop => false
  | _ => true

theorem exec_passes (state : State) (tid : Tid) (env : Env) {instr : Instr} (rest : Code)
    (passes : instr.passes = true) : ∃ done, exec state tid env instr rest = some done ∧
      (done.2.code = rest ∨ done.2.code = []) := by
  cases instr <;> first | (cases passes; done) | skip
  all_goals simp only [exec, leave]
  all_goals repeat' split
  all_goals first | exact ⟨_, rfl, Or.inl rfl⟩ | exact ⟨_, rfl, Or.inr rfl⟩

theorem exec_through {env : Env} {instr : Instr} {rest : Code} {done : EchoDevice × Thread}
    (passes : instr.passes = true) (stays : instr.mayReturn = false)
    (taken : exec state tid env instr rest = some done) : done.2.code = rest := by
  generalize done.2.code = left, exec_code taken = leaves
  cases leaves with
  | next => rfl
  | back returns => simp [returns] at stays
  | stop same => simp [same, Instr.passes] at passes
  | unroll same => simp [same, Instr.passes] at passes

/-- Code that waits for nobody finishes. -/
theorem exists_finishes (tid : Tid) (env : Env) {code : Code} (ahead : state.code tid = code)
    (passes : ∀ instr ∈ code, instr.passes = true) : ∃ final, Finishes tid env state final := by
  induction code generalizing state with
  | nil => exact ⟨state, .back ahead⟩
  | cons instr rest ih =>
    obtain ⟨done, taken, left⟩ := exec_passes state tid env rest (passes instr (by simp))
    have reached := settle_code state tid done.1 done.2
    rcases left with onward | nothing
    · obtain ⟨final, later⟩ := ih (reached.trans onward)
        fun other member => passes other (by simp [member])
      exact ⟨final, .step instr rest done ahead taken later⟩
    · exact ⟨_, .step instr rest done ahead taken (.back (reached.trans nothing))⟩

/-- Code that waits for nobody and does not return early is gone through. -/
theorem exists_through (tid : Tid) (env : Env) {before rest : Code}
    (ahead : state.code tid = before ++ rest)
    (through : ∀ instr ∈ before, instr.passes = true ∧ instr.mayReturn = false) :
    ∃ after, run next state (stepsAlone tid env before.length) = some after ∧
      after.code tid = rest := by
  induction before generalizing state with
  | nil => exact ⟨state, rfl, ahead⟩
  | cons instr before ih =>
    obtain ⟨passes, stays⟩ := through instr (by simp)
    obtain ⟨done, taken, -⟩ := exec_passes state tid env (before ++ rest) passes
    obtain ⟨after, ran, reached⟩ := ih ((settle_code ..).trans (exec_through passes stays taken))
      fun other member => through other (by simp [member])
    refine ⟨after, ?_, reached⟩
    rw [List.length_cons, run_stepsAlone_succ,
      next_step.mpr ⟨instr, _, done, ahead, taken, rfl⟩]
    exact ran

theorem eq_of_frame {before after : EchoDevice} (frame : Frame before after []) :
    after = before := by
  obtain ⟨servo, ⟨fifo, pending, speed, count⟩, ⟨mode, timer, time, moves⟩, irqs, news, finished⟩ :=
    before
  obtain ⟨mode', timer', time', moves', fifo', pending', speed', count', servo', news', finished',
    irqs'⟩ := frame
  obtain ⟨_, ⟨_, _, _, _⟩, ⟨_, _, _, _⟩, _, _, _⟩ := after
  simp only [List.not_mem_nil, not_false_eq_true, forall_const] at *
  simp only [*]

/-- A call gets through code that does not return early, and finds there what the code
has not written. -/
theorem Finishes.through {before rest : Code} (finishes : Finishes tid env state final)
    (ahead : state.code tid = before ++ rest)
    (through : ∀ instr ∈ before, instr.passes = true ∧ instr.mayReturn = false) :
    ∃ middle, Finishes tid env middle final ∧ middle.code tid = rest ∧
      ((∀ instr ∈ before, instr.writes = []) → middle.dev = state.dev) := by
  induction before generalizing state with
  | nil => exact ⟨state, finishes, ahead, fun _ => rfl⟩
  | cons instr before ih =>
    obtain ⟨done, taken, later⟩ := finishes.head ahead
    obtain ⟨passes, stays⟩ := through instr (by simp)
    obtain ⟨middle, onward, reached, same⟩ := ih later
      ((settle_code ..).trans (exec_through passes stays taken))
      fun other member => through other (by simp [member])
    refine ⟨middle, onward, reached, fun writes => ?_⟩
    have frame := exec_frame taken
    rw [writes instr (by simp)] at frame
    exact (same fun other member => writes other (by simp [member])).trans (eq_of_frame frame)

/-- A call made alone enters its code and finishes it. -/
theorem returnsAlone_iff (may : tid.mayCall request = true) (idle : state.code tid = []) :
    ReturnsAlone tid env request state final ↔
      Finishes tid env (state.enter tid request) final := by
  have enters : next state (.call tid request) = some (state.enter tid request) :=
    next_call.mpr ⟨⟨may, idle⟩, rfl⟩
  constructor
  · rintro ⟨returned, entered, count, enters', ran⟩
    obtain rfl := Option.some.inj (enters.symm.trans enters')
    exact finishes_of_run returned ran
  · intro finishes
    obtain ⟨returned, count, ran⟩ := finishes.run
    exact ⟨returned, _, count, enters, ran⟩

/-- A call that waits for nobody returns. -/
theorem exists_returnsAlone (env : Env) (may : tid.mayCall request = true)
    (idle : state.code tid = []) (passes : ∀ instr ∈ request.code, instr.passes = true) :
    ∃ final, ReturnsAlone tid env request state final := by
  obtain ⟨final, finishes⟩ := exists_finishes tid env (enter_code state tid request) passes
  exact ⟨final, (returnsAlone_iff may idle).mpr finishes⟩

/-- How a step leaves a system call: at the instruction after it, or at the caller. -/
theorem exec_ofSyscall {instr : Instr} {rest : Code} {done : EchoDevice × Thread}
    (own : instr.ofSyscall = true) (taken : exec state tid env instr rest = some done) :
    done.2.code = rest ∨ done.2.code = [] ∧ instr.mayReturn = true := by
  generalize done.2.code = left, exec_code taken = leaves
  cases leaves with
  | next => exact Or.inl rfl
  | back returns => exact Or.inr ⟨rfl, returns⟩
  | stop same => simp [same, Instr.ofSyscall] at own
  | unroll same => simp [same, Instr.ofSyscall] at own

theorem exec_suffix {instr : Instr} {rest : Code} {done : EchoDevice × Thread}
    (own : instr.ofSyscall = true) (taken : exec state tid env instr rest = some done) :
    done.2.code <:+ rest := by
  rcases exec_ofSyscall own taken with onward | ⟨nothing, -⟩
  · exact onward ▸ List.suffix_rfl
  · exact nothing ▸ List.nil_suffix

theorem callStep {id : Nat} {instr : Instr} {rest : Code} {done : EchoDevice × Thread}
    (may : (Tid.proc id).mayCall request = true)
    (suffix : instr :: rest <:+ request.code)
    (taken : exec state (.proc id) env instr rest = some done) :
    done.2.code = rest ∨ done.2.code = [] ∧ instr.mayReturn = true :=
  exec_ofSyscall ((entry_of_mayCall may).runs instr (suffix.subset (by simp))) taken

/-- A process that stays in its call has an end of it before it. -/
theorem callSuffix_next {id : Nat} {action : Action} {after : State}
    (may : (Tid.proc id).mayCall request = true) (suffix : state.code (.proc id) <:+ request.code)
    (stays : ∀ request, action ≠ .call (.proc id) request)
    (moved : next state action = some after) : after.code (.proc id) <:+ request.code := by
  by_cases actor : action.actor = some (.proc id)
  · cases acts actor moved with
    | call request => exact absurd rfl (stays request)
    | step env instr rest done code taken =>
      rw [settle_code]
      rcases callStep may (code ▸ suffix) taken with onward | ⟨nothing, -⟩
      · rw [onward]
        exact (List.suffix_cons instr rest).trans (code ▸ suffix)
      · rw [nothing]
        exact List.nil_suffix
    | signal =>
      rw [settle_code]
      exact List.nil_suffix
  · rwa [State.code, thread_next actor moved]

end EchoRobot
