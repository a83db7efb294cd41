import Mathlib.Data.List.Basic

/-! Runs of a system given by an executable step function, where each action
names everything the environment decides. A condition on single steps restricts
a run; a history variable records a run without changing it. -/

namespace EchoRobot.Interleaving

universe u v w x
variable {State : Type u} {Action : Type v} {History : Type w}

/-- Take the actions in order; the result is missing when one is disabled. -/
def run (next : State → Action → Option State) : State → List Action → Option State
  | state, [] => some state
  | state, action :: rest => (next state action).bind (run next · rest)

theorem run_append (next : State → Action → Option State) (start : State)
    (first second : List Action) :
    run next start (first ++ second) = (run next start first).bind (run next · second) := by
  induction first generalizing start with
  | nil => rfl
  | cons action rest ih =>
    simp only [List.cons_append, run, Option.bind_assoc, ih]

@[simp] theorem run_singleton (next : State → Action → Option State) (start : State)
    (action : Action) : run next start [action] = next start action :=
  Option.bind_fun_some _

/-- A run whose every step is allowed in the state it is taken from. -/
inductive Run (next : State → Action → Option State) (allowed : State → Action → Prop)
    (start : State) : List Action → State → Prop where
  | refl : Run next allowed start [] start
  | step {actions : List Action} {state after : State} {action : Action}
      (before : Run next allowed start actions state) (ok : allowed state action)
      (moved : next state action = some after) :
      Run next allowed start (actions ++ [action]) after

/-- No condition on the steps. -/
def anyStep (_ : State) (_ : Action) : Prop := True

variable {next : State → Action → Option State} {allowed : State → Action → Prop}
variable {start state : State} {actions : List Action}

/-- What holds at the start and is kept by every allowed step of the run holds
at its end. The step may use that its state was itself reached. -/
theorem Run.invariant (inv : State → Prop) (run : Run next allowed start actions state)
    (initial : inv start)
    (preserved : ∀ actions state action after, Run next allowed start actions state →
      inv state → allowed state action → next state action = some after → inv after) :
    inv state := by
  induction run with
  | refl => exact initial
  | step before ok moved ih => exact preserved _ _ _ _ before ih ok moved

theorem Run.mono (weaker : State → Action → Prop) (run : Run next allowed start actions state)
    (weaken : ∀ state action, allowed state action → weaker state action) :
    Run next weaker start actions state := by
  induction run with
  | refl => exact .refl
  | step before ok moved ih => exact .step ih (weaken _ _ ok) moved

/-- A condition may be strengthened by what is known of the states of the run. -/
theorem Run.strengthen (stronger : State → Action → Prop)
    (run : Run next allowed start actions state)
    (sound : ∀ actions state action, Run next allowed start actions state →
      allowed state action → stronger state action) :
    Run next stronger start actions state := by
  induction run with
  | refl => exact .refl
  | step before ok moved ih => exact .step ih (sound _ _ _ before ok) moved

/-- A condition that all actions of the run meet can be added. -/
theorem Run.restrict {ok : Action → Prop} (run : Run next allowed start actions state)
    (holds : ∀ action ∈ actions, ok action) :
    Run next (fun state action => ok action ∧ allowed state action) start actions state := by
  induction run with
  | refl => exact .refl
  | step before ok moved ih =>
    exact .step (ih fun action member => holds action (by simp [member]))
      ⟨holds _ (by simp), ok⟩ moved

theorem Run.any (run : Run next allowed start actions state) :
    Run next anyStep start actions state :=
  run.mono anyStep fun _ _ _ => trivial

theorem Run.trans {middle : State} {rest : List Action}
    (first : Run next allowed start actions middle)
    (second : Run next allowed middle rest state) :
    Run next allowed start (actions ++ rest) state := by
  induction second with
  | refl => simpa using first
  | step before ok moved ih =>
    rw [← List.append_assoc]
    exact .step ih ok moved

/-- The system with the steps disabled that fail a test. -/
def guarded (test : State → Action → Bool) (next : State → Action → Option State)
    (state : State) (action : Action) : Option State :=
  if test state action then next state action else none

/-- An execution of the guarded system is a run whose every step passes the test. -/
theorem Run.ofGuarded {test : State → Action → Bool}
    (done : run (guarded test next) start actions = some state) :
    Run next (fun state action => test state action = true) start actions state := by
  induction actions generalizing start with
  | nil =>
    obtain rfl : start = state := by simpa [run] using done
    exact .refl
  | cons action rest ih =>
    obtain ⟨middle, moved, later⟩ := Option.bind_eq_some_iff.mp done
    by_cases passed : test start action = true
    · have first : Run next (fun state action => test state action = true) start
          ([] ++ [action]) middle :=
        .step .refl passed (by simpa [guarded, passed] using moved)
      exact first.trans (ih later)
    · simp [guarded, passed] at moved

/-- An execution whose actions are allowed in any state. -/
theorem Run.ofExecution (done : run next start actions = some state)
    (ok : ∀ action ∈ actions, ∀ state, allowed state action) :
    Run next allowed start actions state := by
  induction actions generalizing start with
  | nil =>
    obtain rfl : start = state := by simpa [run] using done
    exact .refl
  | cons action rest ih =>
    obtain ⟨middle, moved, later⟩ := Option.bind_eq_some_iff.mp done
    have first : Run next allowed start ([] ++ [action]) middle :=
      .step .refl (ok action (by simp) start) moved
    exact first.trans (ih later fun other member => ok other (by simp [member]))

/-- What every step keeps, an execution keeps. -/
theorem run_invariant {inv : State → Prop} (done : run next start actions = some state)
    (initial : inv start)
    (preserved : ∀ state action after, inv state → next state action = some after → inv after) :
    inv state := by
  have watched : Run next anyStep start actions state := .ofExecution done fun _ _ _ => trivial
  exact watched.invariant inv initial fun _ _ _ _ _ holds _ moved => preserved _ _ _ holds moved

/-- What holds at the start of an execution and not at its end is lost in one of its
steps. -/
theorem exists_flip (holds : State → Prop) (done : run next start actions = some state)
    (initial : holds start) (lost : ¬ holds state) :
    ∃ before action rest middle after, actions = before ++ action :: rest ∧
      run next start before = some middle ∧ holds middle ∧ next middle action = some after ∧
      ¬ holds after ∧ run next after rest = some state := by
  induction actions generalizing start with
  | nil =>
    obtain rfl : start = state := by simpa [run] using done
    exact absurd initial lost
  | cons action rest ih =>
    obtain ⟨after, moved, later⟩ := Option.bind_eq_some_iff.mp done
    by_cases kept : holds after
    · obtain ⟨before, flips, tail, middle, flipped, rfl, ran, flip⟩ := ih later kept
      exact ⟨action :: before, flips, tail, middle, flipped, rfl, by simp [run, moved, ran], flip⟩
    · exact ⟨[], action, rest, start, after, rfl, rfl, initial, moved, kept, later⟩

/-- The actions of a run can be executed. -/
theorem Run.execution (done : Run next allowed start actions state) :
    run next start actions = some state := by
  induction done with
  | refl => rfl
  | @step earlier middle after action before ok moved ih =>
    simp [run_append, ih, run, moved]

/-- Read a property off the state a tested execution ends in. -/
theorem exists_run (next : State → Action → Option State) (test : State → Action → Bool)
    (start : State) (actions : List Action) (check : State → Bool)
    (passed : (run (guarded test next) start actions).any check = true) :
    ∃ state, Run next (fun state action => test state action = true) start actions state ∧
      check state = true := by
  cases done : run (guarded test next) start actions with
  | none => simp [done] at passed
  | some state => exact ⟨state, .ofGuarded done, by simpa [done] using passed⟩

/-- Steps of the system paired with a history that only watches them. -/
def withHistory (next : State → Action → Option State)
    (update : History → State → Action → State → History)
    (pair : State × History) (action : Action) : Option (State × History) :=
  (next pair.1 action).map fun after => (after, update pair.2 pair.1 action after)

variable {update : History → State → Action → State → History}

theorem withHistory_some {pair after : State × History} {action : Action} :
    withHistory next update pair action = some after ↔
      next pair.1 action = some after.1 ∧ after.2 = update pair.2 pair.1 action after.1 := by
  obtain ⟨reached, history⟩ := after
  simp only [withHistory, Option.map_eq_some_iff, Prod.mk.injEq]
  constructor
  · rintro ⟨middle, moved, rfl, rfl⟩
    exact ⟨moved, rfl⟩
  · rintro ⟨moved, rfl⟩
    exact ⟨reached, moved, rfl, rfl⟩

/-- A watched step is a step, and what the history makes of it. -/
theorem withHistory_next {pair after : State × History} {action : Action}
    (both : withHistory next update pair action = some after) : ∃ state,
      next pair.1 action = some state ∧ after = (state, update pair.2 pair.1 action state) := by
  obtain ⟨state, moved, same⟩ := Option.map_eq_some_iff.mp both
  exact ⟨state, moved, same.symm⟩

theorem withHistory_of_next {pair : State × History} {action : Action} {after : State}
    (moved : next pair.1 action = some after) :
    withHistory next update pair action = some (after, update pair.2 pair.1 action after) :=
  withHistory_some.mpr ⟨moved, rfl⟩

/-- A watched run is a run. -/
theorem Run.forget {allowed : State × History → Action → Prop} {begin finish : State × History}
    (run : Run (withHistory next update) allowed begin actions finish) :
    Run next (fun state action => ∃ history, allowed (state, history) action)
      begin.1 actions finish.1 := by
  induction run with
  | refl => exact .refl
  | step before ok moved ih => exact .step ih ⟨_, ok⟩ (withHistory_some.mp moved).1

/-- A run watched by a history that holds more. -/
theorem Run.viewed {Larger : Type x} {update' : Larger → State → Action → State → Larger}
    {allowed : State × Larger → Action → Prop} {begin finish : State × Larger}
    (view : Larger → History) (same : ∀ history state action after,
      view (update' history state action after) = update (view history) state action after)
    (run : Run (withHistory next update') allowed begin actions finish) :
    Run (withHistory next update)
      (fun pair action => ∃ history, view history = pair.2 ∧ allowed (pair.1, history) action)
      (begin.1, view begin.2) actions (finish.1, view finish.2) := by
  induction run with
  | refl => exact .refl
  | step before ok moved ih =>
    obtain ⟨taken, watched⟩ := withHistory_some.mp moved
    refine .step ih ⟨_, rfl, ok⟩ (withHistory_some.mpr ⟨taken, ?_⟩)
    rw [watched, same]

/-- A run can be watched. -/
theorem Run.watched (update : History → State → Action → State → History) (history : History)
    (run : Run next allowed start actions state) : ∃ history',
      Run (withHistory next update) (fun pair action => allowed pair.1 action)
        (start, history) actions (state, history') := by
  induction run with
  | refl => exact ⟨history, .refl⟩
  | @step _ middle after action before ok moved ih =>
    obtain ⟨earlier, watched⟩ := ih
    exact ⟨update earlier middle action after, .step watched ok (withHistory_of_next moved)⟩

end EchoRobot.Interleaving
