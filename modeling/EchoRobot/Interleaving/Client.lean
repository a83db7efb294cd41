import EchoRobot.Interleaving.Simulation

/-! A client of a system. It takes steps of its own and steps that make an event happen,
and goes on by what it observes of the system then. A client cannot tell apart two
systems that agree. -/

namespace EchoRobot.Interleaving

universe u v w x y z
variable {Local : Type x} {Act : Type y} {Answer : Type z}
variable {Concrete : Type u} {Event : Type v} {Abstract : Type w}

/-- A step of a client: the event that it makes happen, and where the client is after it. -/
structure Does (Local : Type x) (Event : Type v) (Answer : Type z) where
  event : Option Event
  next : Answer → Local

/-- A client with its system. -/
inductive ClientHappens (client : Local → Act → Option (Does Local Event Answer))
    (observe : Concrete → Answer) (happens : Concrete → Event → Concrete → Prop) :
    Local × Concrete → Act → Local × Concrete → Prop where
  | own {place : Local} {act : Act} {state : Concrete} {step : Answer → Local}
      (does : client place act = some ⟨none, step⟩) :
      ClientHappens client observe happens (place, state) act (step (observe state), state)
  | event {place : Local} {act : Act} {state after : Concrete} {event : Event}
      {step : Answer → Local} (does : client place act = some ⟨some event, step⟩)
      (happened : happens state event after) :
      ClientHappens client observe happens (place, state) act (step (observe after), after)

def clientNext (client : Local → Act → Option (Does Local Event Answer))
    (observe : Abstract → Answer) (next : Abstract → Event → Option Abstract)
    (pair : Local × Abstract) (act : Act) : Option (Local × Abstract) :=
  match client pair.1 act with
  | none => none
  | some ⟨none, step⟩ => some (step (observe pair.2), pair.2)
  | some ⟨some event, step⟩ => (next pair.2 event).map fun after => (step (observe after), after)

section Steps
variable {client : Local → Act → Option (Does Local Event Answer)}
variable {observe : Abstract → Answer} {next : Abstract → Event → Option Abstract}
variable {act : Act}

/-- What a step does to the client and to the system. -/
theorem clientNext_cases {place reached : Local} {state final : Abstract}
    (moved : clientNext client observe next (place, state) act = some (reached, final)) :
    (∃ step, client place act = some ⟨none, step⟩ ∧ reached = step (observe state) ∧
      final = state) ∨
    ∃ event step, client place act = some ⟨some event, step⟩ ∧
      reached = step (observe final) ∧ next state event = some final := by
  unfold clientNext at moved
  split at moved
  · cases moved
  · rename_i step does
    cases moved
    exact Or.inl ⟨step, does, rfl, rfl⟩
  · rename_i event step does
    obtain ⟨after, stepped, same⟩ := Option.map_eq_some_iff.mp moved
    cases same
    exact Or.inr ⟨event, step, does, rfl, stepped⟩

theorem clientNext_own {place : Local} {state : Abstract} {step : Answer → Local}
    (does : client place act = some ⟨none, step⟩) :
    clientNext client observe next (place, state) act = some (step (observe state), state) := by
  simp only [clientNext, does]

theorem clientNext_event {place : Local} {state after : Abstract} {event : Event}
    {step : Answer → Local} (does : client place act = some ⟨some event, step⟩)
    (moved : next state event = some after) :
    clientNext client observe next (place, state) act = some (step (observe after), after) := by
  simp only [clientNext, does, moved, Option.map_some]

end Steps

section Agreement
variable {client : Local → Act → Option (Does Local Event Answer)}
variable {happens : Concrete → Event → Concrete → Prop}
variable {next : Abstract → Event → Option Abstract} {related : Concrete → Abstract → Prop}
variable {observe : Concrete → Answer} {observe' : Abstract → Answer}

/-- The client is at the same place, over related systems. -/
def ClientRelated (related : Concrete → Abstract → Prop) (pair : Local × Concrete)
    (pair' : Local × Abstract) : Prop :=
  pair.1 = pair'.1 ∧ related pair.2 pair'.2

theorem Agrees.of_client (agrees : Agrees happens next related)
    (same : ∀ state abstract, related state abstract → observe state = observe' abstract) :
    Agrees (ClientHappens client observe happens) (clientNext client observe' next)
      (ClientRelated related) where
  sound := by
    rintro ⟨place, state⟩ ⟨place', abstract⟩ act reached ⟨here, there⟩ happened
    obtain rfl : place = place' := here
    cases happened with
    | @own _ _ _ step does =>
      refine ⟨(step (observe' abstract), abstract), ?_, congrArg step (same _ _ there), there⟩
      simp only [clientNext, does]
    | @event _ _ _ after event step does happened =>
      obtain ⟨reached, moved, beside⟩ := agrees.sound _ _ _ _ there happened
      refine ⟨(step (observe' reached), reached), ?_, congrArg step (same _ _ beside), beside⟩
      simp only [clientNext, does, moved, Option.map_some]
  complete := by
    rintro ⟨place, state⟩ ⟨place', abstract⟩ act reached ⟨here, there⟩ moved
    obtain rfl : place = place' := here
    unfold clientNext at moved
    split at moved
    · cases moved
    · rename_i does
      exact ⟨_, .own does⟩
    · rename_i event step does
      obtain ⟨after, moved, -⟩ := Option.map_eq_some_iff.mp moved
      obtain ⟨final, happened⟩ := agrees.complete _ _ _ _ there moved
      exact ⟨_, .event does happened⟩

end Agreement

end EchoRobot.Interleaving
