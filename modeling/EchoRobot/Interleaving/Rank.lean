import EchoRobot.Interleaving.Run
import Mathlib.Algebra.Order.BigOperators.Group.Finset

/-! Ranks. Each step takes one thread closer to the end of what it has before it, so a
run is no longer than all threads' ranks together. -/

namespace EchoRobot.Interleaving

universe u v w
variable {State : Type u} {Action : Type v} {Thread : Type w}
variable {next : State → Action → Option State} {allowed : State → Action → Prop}
variable {rank : State → Thread → Nat} {start state after : State} {actions : List Action}

/-- One thread gets ahead, the others stay where they are. -/
def GetsAhead (rank : State → Thread → Nat) (state after : State) : Prop :=
  ∃ thread, rank after thread < rank state thread ∧
    ∀ other, other ≠ thread → rank after other = rank state other

theorem GetsAhead.le (ahead : GetsAhead rank state after) (thread : Thread) :
    rank after thread ≤ rank state thread := by
  obtain ⟨ahead, less, same⟩ := ahead
  by_cases here : thread = ahead
  · exact here ▸ less.le
  · exact (same thread here).le

theorem GetsAhead.sum_lt {threads : Finset Thread} (ahead : GetsAhead rank state after)
    (outside : ∀ thread ∉ threads, rank state thread = 0) :
    ∑ thread ∈ threads, rank after thread < ∑ thread ∈ threads, rank state thread := by
  obtain ⟨thread, less, -⟩ := id ahead
  have inside : thread ∈ threads := by
    by_contra absent
    simp [outside thread absent] at less
  exact Finset.sum_lt_sum (fun other _ => ahead.le other) ⟨thread, inside, less⟩

/-- A run in which each step gets a thread ahead is bounded by the ranks at its start. -/
theorem Run.length_le_rank {threads : Finset Thread} (run : Run next allowed start actions state)
    (outside : ∀ thread ∉ threads, rank start thread = 0)
    (ahead : ∀ actions state action after, Run next allowed start actions state →
      allowed state action → next state action = some after → GetsAhead rank state after) :
    actions.length + ∑ thread ∈ threads, rank state thread ≤
        ∑ thread ∈ threads, rank start thread ∧
      ∀ thread ∉ threads, rank state thread = 0 := by
  induction run with
  | refl => exact ⟨by simp, outside⟩
  | @step _ middle after action before ok moved ih =>
    obtain ⟨bound, rests⟩ := ih
    have onward := ahead _ _ _ _ before ok moved
    have less := onward.sum_lt rests
    refine ⟨?_, fun thread absent => ?_⟩
    · rw [List.length_append, List.length_singleton]
      omega
    · have still := onward.le thread
      rw [rests thread absent] at still
      omega

/-- A run in which each step lowers a measure is bounded by the measure at its start. -/
theorem Run.length_le_measure (measure : State → Nat) (run : Run next allowed start actions state)
    (falls : ∀ actions state action after, Run next allowed start actions state →
      allowed state action → next state action = some after → measure after < measure state) :
    actions.length + measure state ≤ measure start := by
  induction run with
  | refl => simp
  | step before ok moved ih =>
    have less := falls _ _ _ _ before ok moved
    rw [List.length_append, List.length_singleton]
    omega

/-- The ranks together change by what one of them changes. -/
theorem sum_rank_changed {threads : Finset Thread} {thread : Thread} (inside : thread ∈ threads)
    (same : ∀ other, other ≠ thread → rank after other = rank state other) :
    ∑ other ∈ threads, rank after other + rank state thread =
      ∑ other ∈ threads, rank state other + rank after thread := by
  classical
  have others : ∑ other ∈ threads.erase thread, rank after other =
      ∑ other ∈ threads.erase thread, rank state other :=
    Finset.sum_congr rfl fun other member => same other (Finset.ne_of_mem_erase member)
  rw [← Finset.add_sum_erase threads (rank after) inside,
    ← Finset.add_sum_erase threads (rank state) inside, others]
  omega

/-- Where a step is possible unless a goal is met, and runs are bounded, the goal can be
reached. -/
theorem Run.exists_goal {bound : Nat} (goal : State → Prop)
    (bounded : ∀ actions state, Run next allowed start actions state → actions.length ≤ bound)
    (goes : ∀ actions state, Run next allowed start actions state →
      goal state ∨ ∃ action after, allowed state action ∧ next state action = some after) :
    ∃ actions state, Run next allowed start actions state ∧ goal state := by
  by_contra never
  have longer : ∀ length, ∃ actions state, Run next allowed start actions state ∧
      actions.length = length := by
    intro length
    induction length with
    | zero => exact ⟨[], start, .refl, rfl⟩
    | succ length ih =>
      obtain ⟨actions, state, run, rfl⟩ := ih
      rcases goes _ _ run with met | ⟨action, after, ok, moved⟩
      · exact absurd ⟨_, _, run, met⟩ never
      · exact ⟨_, _, .step run ok moved, by simp⟩
  obtain ⟨actions, state, run, long⟩ := longer (bound + 1)
  have within := bounded _ _ run
  omega

end EchoRobot.Interleaving
