import EchoRobot.Interleaving.Run
import Mathlib.Data.List.Induction

/-! A system whose events take effect at once stands for one whose events may take many
steps. Event by event, what one of them does the other does. -/

namespace EchoRobot.Interleaving

universe u v w x y
variable {Concrete : Type u} {Event : Type v} {Abstract : Type w}

/-- The events happen one after the other. -/
inductive Happening (happens : Concrete → Event → Concrete → Prop) (start : Concrete) :
    List Event → Concrete → Prop where
  | refl : Happening happens start [] start
  | step {events : List Event} {state after : Concrete} {event : Event}
      (before : Happening happens start events state) (happened : happens state event after) :
      Happening happens start (events ++ [event]) after

/-- Related states allow the same events and stay related. -/
structure Agrees (happens : Concrete → Event → Concrete → Prop)
    (next : Abstract → Event → Option Abstract) (related : Concrete → Abstract → Prop) : Prop where
  sound : ∀ state abstract event after, related state abstract → happens state event after →
    ∃ reached, next abstract event = some reached ∧ related after reached
  complete : ∀ state abstract event reached, related state abstract →
    next abstract event = some reached → ∃ after, happens state event after

variable {happens : Concrete → Event → Concrete → Prop}
variable {next : Abstract → Event → Option Abstract} {related : Concrete → Abstract → Prop}
variable {start final : Concrete} {initial reached : Abstract} {events : List Event}

theorem Agrees.run_sound (agrees : Agrees happens next related) (begins : related start initial)
    (happening : Happening happens start events final) :
    ∃ reached, run next initial events = some reached ∧ related final reached := by
  induction happening with
  | refl => exact ⟨initial, rfl, begins⟩
  | step before happened ih =>
    obtain ⟨middle, ran, there⟩ := ih
    obtain ⟨reached, moved, here⟩ := agrees.sound _ _ _ _ there happened
    refine ⟨reached, ?_, here⟩
    rw [run_append, ran, Option.bind_some, run_singleton, moved]

theorem Agrees.run_complete (agrees : Agrees happens next related) (begins : related start initial)
    (ran : run next initial events = some reached) :
    ∃ final, Happening happens start events final ∧ related final reached := by
  induction events using List.reverseRecOn generalizing reached with
  | nil =>
    obtain rfl : initial = reached := by simpa [run] using ran
    exact ⟨start, .refl, begins⟩
  | append_singleton events event ih =>
    rw [run_append] at ran
    obtain ⟨middle, before, last⟩ := Option.bind_eq_some_iff.mp ran
    rw [run_singleton] at last
    obtain ⟨state, happening, there⟩ := ih before
    obtain ⟨final, happened⟩ := agrees.complete _ _ _ _ there last
    obtain ⟨reached', moved, here⟩ := agrees.sound _ _ _ _ there happened
    obtain rfl := Option.some.inj (last.symm.trans moved)
    exact ⟨final, .step happening happened, here⟩

section Beside
variable {View : Type x} {Ghost : Type y}

/-- A ghost beside the system goes by what can be seen of it. It may rule an event out. -/
structure Beside (happens : Concrete → Event → Concrete → Prop) (view : Concrete → View)
    (ok : View → Ghost → Event → Prop) (update : View → Ghost → Event → Ghost)
    (pair : Concrete × Ghost) (event : Event) (after : Concrete × Ghost) : Prop where
  happened : happens pair.1 event after.1
  ok : ok (view pair.1) pair.2 event
  ghost : after.2 = update (view pair.1) pair.2 event

def nextBeside (next : Abstract → Event → Option Abstract) (view : Abstract → View)
    (ok : View → Ghost → Event → Prop) (update : View → Ghost → Event → Ghost)
    [∀ seen ghost event, Decidable (ok seen ghost event)] (pair : Abstract × Ghost)
    (event : Event) : Option (Abstract × Ghost) :=
  if ok (view pair.1) pair.2 event then
    (next pair.1 event).map fun reached => (reached, update (view pair.1) pair.2 event)
  else none

variable {ok : View → Ghost → Event → Prop} {update : View → Ghost → Event → Ghost}

/-- Without its ghost. -/
theorem Happening.alone {view : Concrete → View} {pair pair' : Concrete × Ghost}
    (happening : Happening (Beside happens view ok update) pair events pair') :
    Happening happens pair.1 events pair'.1 := by
  induction happening with
  | refl => exact .refl
  | step before happened ih => exact .step ih happened.happened

variable [∀ seen ghost event, Decidable (ok seen ghost event)]

theorem nextBeside_some {view : Abstract → View} {pair after : Abstract × Ghost} {event : Event} :
    nextBeside next view ok update pair event = some after ↔
      ok (view pair.1) pair.2 event ∧ next pair.1 event = some after.1 ∧
        after.2 = update (view pair.1) pair.2 event := by
  obtain ⟨reached, ghost⟩ := after
  unfold nextBeside
  split
  · rename_i passed
    simp only [Option.map_eq_some_iff, Prod.mk.injEq]
    constructor
    · rintro ⟨system, moved, rfl, rfl⟩
      exact ⟨passed, moved, rfl⟩
    · rintro ⟨-, moved, rfl⟩
      exact ⟨reached, moved, rfl, rfl⟩
  · rename_i failed
    exact iff_of_false (by simp) fun parts => failed parts.1

/-- Ghosts that see the same agree. -/
theorem Agrees.beside {view : Concrete → View} {view' : Abstract → View}
    (agrees : Agrees happens next related)
    (same : ∀ state abstract, related state abstract → view state = view' abstract) :
    Agrees (Beside happens view ok update) (nextBeside next view' ok update)
      fun pair pair' => related pair.1 pair'.1 ∧ pair.2 = pair'.2 where
  sound := by
    rintro ⟨state, ghost⟩ ⟨abstract, ghost'⟩ event ⟨after, later⟩ ⟨there, rfl⟩
      ⟨happened, passed, updated⟩
    obtain ⟨reached, moved, here⟩ := agrees.sound _ _ _ _ there happened
    dsimp only at passed updated
    rw [same _ _ there] at passed updated
    exact ⟨(reached, later), nextBeside_some.mpr ⟨passed, moved, updated⟩, here, rfl⟩
  complete := by
    rintro ⟨state, ghost⟩ ⟨abstract, ghost'⟩ event ⟨reached, later⟩ ⟨there, rfl⟩ moved
    obtain ⟨passed, moved, -⟩ := nextBeside_some.mp moved
    obtain ⟨after, happened⟩ := agrees.complete _ _ _ _ there moved
    dsimp only at passed
    rw [← same _ _ there] at passed
    exact ⟨(after, _), happened, passed, rfl⟩

end Beside

end EchoRobot.Interleaving
