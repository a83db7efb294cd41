import Mathlib.Algebra.BigOperators.Group.List.Basic

/-! Logs of what has been done and when, where each thing takes its time. -/

namespace EchoRobot.Interleaving

universe u
variable {Event : Type u} {takes : Event → Nat} {slack begun : Nat} {log : List (Event × Nat)}
variable {event : Event} {moment : Nat}

/-- When the last of the log was done. -/
def latest (begun : Nat) (log : List (Event × Nat)) : Nat := (log.getLast?.map Prod.snd).getD begun

@[simp] theorem latest_nil : latest begun ([] : List (Event × Nat)) = begun := rfl

@[simp] theorem latest_snoc : latest begun (log ++ [(event, moment)]) = moment := by
  simp [latest]

@[simp] theorem latest_cons : latest begun ((event, moment) :: log) = latest moment log := by
  cases log with
  | nil => rfl
  | cons next rest => simp [latest, List.getLast?_cons]

/-- Each event takes its time from the one before it, and up to `slack` more. -/
def Paced (takes : Event → Nat) (slack : Nat) : Nat → List (Event × Nat) → Prop
  | _, [] => True
  | begun, (event, moment) :: later =>
    (begun + takes event ≤ moment ∧ moment ≤ begun + takes event + slack) ∧
      Paced takes slack moment later

theorem paced_append {first second : List (Event × Nat)} :
    Paced takes slack begun (first ++ second) ↔
      Paced takes slack begun first ∧ Paced takes slack (latest begun first) second := by
  induction first generalizing begun with
  | nil => simp [Paced]
  | cons entry first ih =>
    obtain ⟨event, moment⟩ := entry
    rw [List.cons_append, Paced, Paced, ih, latest_cons]
    exact and_assoc.symm

theorem Paced.snoc (paced : Paced takes slack begun log)
    (early : latest begun log + takes event ≤ moment)
    (late : moment ≤ latest begun log + takes event + slack) :
    Paced takes slack begun (log ++ [(event, moment)]) :=
  paced_append.mpr ⟨paced, ⟨early, late⟩, trivial⟩

/-- One event of the log and the next. -/
theorem Paced.between (paced : Paced takes slack begun log) {index : Nat}
    (inside : index + 1 < log.length) :
    log[index].2 + takes log[index + 1].1 ≤ log[index + 1].2 ∧
      log[index + 1].2 ≤ log[index].2 + takes log[index + 1].1 + slack := by
  induction log generalizing begun index with
  | nil => cases inside
  | cons entry log ih =>
    cases index with
    | zero =>
      cases log with
      | nil => simp at inside
      | cons next later => exact paced.2.1
    | succ index => exact ih paced.2 (Nat.lt_of_succ_lt_succ inside)

end EchoRobot.Interleaving
