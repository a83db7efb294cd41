import EchoRobot.App.Program

/-! The flag that keeps the program from a second replay. It is set as long as a replay
thread lives, and for ever once a thread could not be created. -/

namespace EchoRobot.App

open Interleaving

/-- The flag is free, taken for a thread that is not there yet, held by the only thread
there is, or lost with a thread that was never there. -/
inductive Guard (acts : List Act) (app : EchoApp) : Prop
  | free (flag : app.replaying = false) (main : app.main ≠ .spawning)
      (nobody : ∀ worker, app.workers worker = none) (created : .createWorker false ∉ acts)
  | taken (flag : app.replaying = true) (main : app.main = .spawning)
      (nobody : ∀ worker, app.workers worker = none) (created : .createWorker false ∉ acts)
  | held (worker : Nat) (flag : app.replaying = true) (main : app.main ≠ .spawning)
      (owner : app.workers worker ≠ none)
      (alone : ∀ other, app.workers other ≠ none → other = worker)
      (created : .createWorker false ∉ acts)
  | lost (flag : app.replaying = true) (main : app.main ≠ .spawning)
      (nobody : ∀ worker, app.workers worker = none) (failed : .createWorker false ∈ acts)

section Step
variable {acts : List Act} {app after : EchoApp} {act : Act} {doing : Doing}
variable {outcomes : Nat → Outcome} {worker : Nat} {thread : ReplayThread}

/-- A step that leaves the flag, the threads and the creation of a thread alone. -/
theorem Guard.same (guard : Guard acts app) (other : act ≠ .createWorker false)
    (flag : after.replaying = app.replaying)
    (main : after.main = .spawning ↔ app.main = .spawning)
    (workers : ∀ worker, after.workers worker = none ↔ app.workers worker = none) :
    Guard (acts ++ [act]) after := by
  have absent : .createWorker false ∉ acts → .createWorker false ∉ acts ++ [act] := by
    intro created
    simp [created, other.symm]
  cases guard with
  | free unset away nobody created =>
    exact .free (flag.trans unset) (mt main.mp away) (fun worker => (workers worker).mpr (nobody _))
      (absent created)
  | taken set here nobody created =>
    exact .taken (flag.trans set) (main.mpr here) (fun worker => (workers worker).mpr (nobody _))
      (absent created)
  | held worker set away owner alone created =>
    exact .held worker (flag.trans set) (mt main.mp away) (mt (workers worker).mp owner)
      (fun other present => alone other (mt (workers other).mpr present)) (absent created)
  | lost set away nobody failed =>
    exact .lost (flag.trans set) (mt main.mp away) (fun worker => (workers worker).mpr (nobody _))
      (List.mem_append_left _ failed)

theorem move_none_iff {other : Nat} (owner : app.workers worker ≠ none) :
    (move app worker (some thread)).workers other = none ↔ app.workers other = none := by
  by_cases same : other = worker
  · subst same
    simp [move, owner]
  · simp [move, same]

theorem guard_afterWrite (guard : Guard acts app) (other : act ≠ .createWorker false)
    (owner : app.workers worker ≠ none) :
    Guard (acts ++ [act]) (afterWrite app worker outcomes) := by
  unfold afterWrite
  dsimp only
  split
  · exact guard.same other rfl Iff.rfl fun _ => move_none_iff owner
  · exact guard.same other rfl Iff.rfl fun _ => move_none_iff owner

theorem guard_afterRead (guard : Guard acts app) (other : act ≠ .createWorker false) :
    Guard (acts ++ [act]) (afterRead app outcomes) := by
  unfold afterRead
  dsimp only
  repeat' split
  all_goals exact guard.same other rfl Iff.rfl fun _ => Iff.rfl

theorem guard_handleKey {ch : Char} (guard : Guard acts app) (looping : app.main = .looping) :
    Guard (acts ++ [.key ch]) ((handleKey app ch).next outcomes) := by
  have still : ∀ status, Guard (acts ++ [.key ch]) { app with statusBuf := status } :=
    fun status => guard.same (by simp) rfl Iff.rfl fun _ => Iff.rfl
  unfold handleKey
  split
  · exact still _
  split
  · split
    · exact still _
    · rename_i unset
      cases guard with
      | free _ _ nobody created => exact .taken rfl rfl nobody (by simp [created])
      | taken set => exact absurd set unset
      | held _ set => exact absurd set unset
      | lost set => exact absurd set unset
  split
  · exact still _
  split
  · exact still _
  split
  · exact guard.same (by simp) rfl (by simp [looping]) fun _ => Iff.rfl
  · exact still _

theorem guard_createWorker {created : Bool} (guard : Guard acts app)
    (spawning : app.main = .spawning) :
    Guard (acts ++ [.createWorker created]) ((silently (if created then
      { move app app.spawned (some .starting) with main := .looping, spawned := app.spawned + 1 }
        else { app with main := .looping })).next outcomes) := by
  cases guard with
  | taken set _ nobody before =>
    cases created with
    | true =>
      refine .held app.spawned set (by simp) (by simp [move]) ?_ (by simp [before])
      intro other present
      by_contra different
      simp [move, different, nobody] at present
    | false => exact .lost set (by simp) nobody (by simp)
  | free _ away => exact absurd spawning away
  | held _ _ away => exact absurd spawning away
  | lost _ away => exact absurd spawning away

/-- The flag is given back by the thread that holds it. -/
theorem guard_clear (guard : Guard acts app) (clearing : app.workers worker = some .clearing) :
    Guard (acts ++ [.clear worker])
      ((silently { move app worker none with replaying := false }).next outcomes) := by
  cases guard with
  | held holder _ away _ alone created =>
    obtain rfl : worker = holder := alone worker (by simp [clearing])
    refine .free rfl away (fun other => ?_) (by simp [created])
    by_cases same : other = worker
    · simp [same, move]
    · have absent : app.workers other = none := by
        by_contra present
        exact same (alone other present)
      simp [move, same, absent]
  | free _ _ nobody => simp [nobody] at clearing
  | taken _ _ nobody => simp [nobody] at clearing
  | lost _ _ nobody => simp [nobody] at clearing

/-- Every step keeps the flag in one of its four states. -/
theorem guard_does (guard : Guard acts app) (does : echoApp app act = some doing) :
    Guard (acts ++ [act]) (doing.next outcomes) := by
  cases act with
  | key ch =>
    simp only [echoApp] at does
    split at does <;> cases does
    exact guard_handleKey guard ‹_›
  | createWorker created =>
    simp only [echoApp] at does
    split at does <;> cases does
    exact guard_createWorker guard ‹_›
  | clear worker =>
    simp only [echoApp] at does
    split at does <;> cases does
    exact guard_clear guard ‹_›
  | write worker =>
    simp only [echoApp] at does
    split at does <;> cases does
    exact guard_afterWrite guard (by simp) (by simp [*])
  | writeReturns worker =>
    simp only [echoApp] at does
    split at does <;> cases does
    exact guard_afterWrite guard (by simp) (by simp [*])
  | writeInterrupted worker =>
    simp only [echoApp] at does
    split at does <;> cases does
    exact guard_afterWrite guard (by simp) (by simp [*])
  | readReturns =>
    simp only [echoApp] at does
    split at does <;> cases does
    exact guard_afterRead guard (by simp)
  | readInterrupted =>
    simp only [echoApp] at does
    split at does <;> cases does
    exact guard_afterRead guard (by simp)
  | read =>
    simp only [echoApp] at does
    split at does <;> cases does
    split
    · exact guard_afterRead guard (by simp)
    · exact guard.same (by simp) rfl Iff.rfl fun _ => Iff.rfl
  | store =>
    simp only [echoApp] at does
    split at does <;> cases does
    exact guard.same (by simp) rfl Iff.rfl fun _ => Iff.rfl
  | _ =>
    simp only [echoApp] at does
    repeat' split at does
    all_goals first
      | contradiction
      | (cases does; exact guard.same (by simp) rfl Iff.rfl fun _ => Iff.rfl)
      | (cases does; exact guard.same (by simp) rfl (by simp [*]) fun _ => Iff.rfl)

end Step

theorem guard_initial : Guard [] EchoApp.initial :=
  .free rfl (by decide) (fun _ => rfl) (by simp)

theorem guard_of_run {system : RobotSystem} {acts : List Act} {pair : EchoApp × RobotSystem}
    (run : Run appNext anyStep (EchoApp.initial, system) acts pair) : Guard acts pair.1 := by
  induction run with
  | refl => exact guard_initial
  | step before ok moved ih =>
    obtain ⟨step, does, here, -⟩ | ⟨event, step, does, here, -⟩ := clientNext_cases moved
    · rw [here]
      exact @guard_does _ _ _ _ (observeRobot _) ih does
    · rw [here]
      exact @guard_does _ _ _ _ (observeRobot _) ih does

end EchoRobot.App
