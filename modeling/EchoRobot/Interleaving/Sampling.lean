import EchoRobot.Interleaving.Run

/-! A thread that only looks at a system, once for each value it wants, while the system
goes on between its looks. -/

namespace EchoRobot.Interleaving

universe u v w
variable {State : Type u} {Action : Type v} {Val : Type w}

/-- What is still to be looked at, and what has been seen. -/
structure Sampler (State : Type u) (Val : Type w) where
  ahead : List (State → Val)
  seen : List Val

/-- A run from `start` to `finish` comes through these states, in this order. -/
inductive Moments (next : State → Action → Option State) :
    State → List State → State → Prop where
  | nil {start finish : State} {actions : List Action}
      (onward : Run next anyStep start actions finish) : Moments next start [] finish
  | cons {start moment finish : State} {actions : List Action} {later : List State}
      (onward : Run next anyStep start actions moment) (rest : Moments next moment later finish) :
      Moments next start (moment :: later) finish

variable {next : State → Action → Option State} {start state after finish : State}
  {action : Action} {moments : List State}

theorem Moments.step (through : Moments next start moments state)
    (moved : next state action = some after) : Moments next start moments after := by
  induction through with
  | nil onward => exact .nil (onward.step trivial moved)
  | cons onward _ ih => exact .cons onward (ih moved)

theorem Moments.look (through : Moments next start moments state) :
    Moments next start (moments ++ [state]) state := by
  induction through with
  | nil onward => exact .cons onward (.nil .refl)
  | cons onward _ ih => exact .cons onward ih

/-- Each moment lies on the run. -/
theorem Moments.between (through : Moments next start moments finish) {moment : State}
    (member : moment ∈ moments) :
    (∃ actions, Run next anyStep start actions moment) ∧
      ∃ actions, Run next anyStep moment actions finish := by
  induction through with
  | nil => simp at member
  | @cons start first finish actions later onward rest ih =>
    rcases List.mem_cons.mp member with rfl | inside
    · refine ⟨⟨actions, onward⟩, ?_⟩
      clear ih member onward
      induction rest with
      | nil onward => exact ⟨_, onward⟩
      | cons onward _ ih =>
        obtain ⟨actions, last⟩ := ih
        exact ⟨_, onward.trans last⟩
    · obtain ⟨⟨before, reached⟩, left⟩ := ih inside
      exact ⟨⟨actions ++ before, onward.trans reached⟩, left⟩

/-- Where the thread has got to: each value was there at a moment of its own. -/
structure Seen (next : State → Action → Option State) (start : State)
    (looks : List (State → Val)) (moments : List State) (pair : State × Sampler State Val) :
    Prop where
  through : Moments next start moments pair.1
  ahead : looks.drop moments.length = pair.2.ahead
  inside : moments.length ≤ looks.length
  seen : pair.2.seen = List.zipWith (fun look moment => look moment) looks moments

/-- Once the thread is through it has looked at one moment for each value. -/
theorem Seen.complete {looks : List (State → Val)} {pair : State × Sampler State Val}
    (held : Seen next start looks moments pair) (through : pair.2.ahead = []) :
    moments.length = looks.length := by
  have short := List.drop_eq_nil_iff.mp (held.ahead.trans through)
  exact Nat.le_antisymm held.inside short

end EchoRobot.Interleaving
