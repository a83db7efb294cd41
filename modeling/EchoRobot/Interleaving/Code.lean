import Mathlib.Data.List.Basic
import Mathlib.Logic.Function.Basic

/-! Straight-line code that threads execute one instruction at a time, where
some instructions may leave the rest unexecuted. -/

namespace EchoRobot.Interleaving

universe u v
variable {Instr : Type u} {leaves target : Instr → Bool}

/-- The code meets a `target` before any instruction that may leave it. -/
def commits (leaves target : Instr → Bool) : List Instr → Bool
  | [] => false
  | head :: rest => target head || (!leaves head && commits leaves target rest)

@[simp] theorem commits_nil : commits leaves target [] = false := rfl

@[simp] theorem commits_cons (head : Instr) (rest : List Instr) :
    commits leaves target (head :: rest) =
      (target head || (!leaves head && commits leaves target rest)) := rfl

theorem commits_append_right {first second : List Instr}
    (stays : ∀ instr ∈ first, leaves instr = false) (committed : commits leaves target second) :
    commits leaves target (first ++ second) := by
  induction first with
  | nil => exact committed
  | cons head rest ih =>
    have later := ih fun instr inside => stays instr (by simp [inside])
    simp [stays head (by simp), later]

/-- Past its head, committed code is still committed. -/
theorem commits_tail {head : Instr} {rest : List Instr}
    (committed : commits leaves target (head :: rest)) (other : target head = false) :
    leaves head = false ∧ commits leaves target rest := by
  simpa [other] using committed

theorem commits_mem {code : List Instr} (committed : commits leaves target code) :
    ∃ instr ∈ code, target instr := by
  induction code with
  | nil => simp at committed
  | cons head rest ih =>
    by_cases found : target head
    · exact ⟨head, by simp, found⟩
    · obtain ⟨instr, member, holds⟩ := ih (commits_tail committed (by simpa using found)).2
      exact ⟨instr, by simp [member], holds⟩

/-- Every instruction finds after it what the rule demands of its continuation. -/
def obeys (rule : Instr → List Instr → Bool) : List Instr → Bool
  | [] => true
  | head :: rest => rule head rest && obeys rule rest

variable {rule : Instr → List Instr → Bool}

@[simp] theorem obeys_nil : obeys rule [] = true := rfl

@[simp] theorem obeys_cons (head : Instr) (rest : List Instr) :
    obeys rule (head :: rest) = (rule head rest && obeys rule rest) := rfl

theorem obeys_head {head : Instr} {rest : List Instr} (shape : obeys rule (head :: rest)) :
    rule head rest = true := by
  simp only [obeys_cons, Bool.and_eq_true] at shape
  exact shape.1

theorem obeys_tail {head : Instr} {rest : List Instr} (shape : obeys rule (head :: rest)) :
    obeys rule rest := by
  simp only [obeys_cons, Bool.and_eq_true] at shape
  exact shape.2

theorem obeys_suffix {code suffix : List Instr} (ending : suffix <:+ code)
    (shape : obeys rule code) : obeys rule suffix := by
  obtain ⟨before, rfl⟩ := ending
  induction before with
  | nil => exact shape
  | cons head before ih => exact ih (obeys_tail shape)

/-- Each instruction is content with what follows it. -/
theorem obeys_mem {code : List Instr} {instr : Instr} (shape : obeys rule code)
    (member : instr ∈ code) : ∃ rest, instr :: rest <:+ code ∧ rule instr rest = true := by
  obtain ⟨before, rest, rfl⟩ := List.append_of_mem member
  have ending := List.suffix_append before (instr :: rest)
  exact ⟨rest, ending, obeys_head (obeys_suffix ending shape)⟩

/-- A rule that a kind of instructions meets among its own. -/
theorem obeys_of_forall {ok : Instr → Prop} {code : List Instr} (all : ∀ instr ∈ code, ok instr)
    (content : ∀ instr rest, ok instr → (∀ later ∈ rest, ok later) → rule instr rest = true) :
    obeys rule code := by
  induction code with
  | nil => rfl
  | cons head rest ih =>
    have later := fun instr member => all instr (List.mem_cons_of_mem head member)
    rw [obeys_cons, content head rest (all head (by simp)) later, ih later]
    rfl

/-- Where the rule puts a second target after the first, code committed to the
first is committed to the second. -/
theorem commits_then {second : Instr → Bool} {code : List Instr} (shape : obeys rule code)
    (committed : commits leaves target code)
    (follows : ∀ head rest, target head → rule head rest = true →
      leaves head = false ∧ commits leaves second rest) :
    commits leaves second code := by
  induction code with
  | nil => simp at committed
  | cons head rest ih =>
    by_cases found : target head
    · obtain ⟨stays, later⟩ := follows head rest found (obeys_head shape)
      simp [stays, later]
    · obtain ⟨stays, later⟩ := commits_tail committed (by simpa using found)
      simp [stays, ih (obeys_tail shape) later]

/-- A prefix whose instructions are content with what follows them. -/
theorem obeys_append {first second : List Instr}
    (content : ∀ instr after, instr :: after <:+ first → rule instr (after ++ second) = true)
    (shape : obeys rule second) : obeys rule (first ++ second) := by
  induction first with
  | nil => exact shape
  | cons head rest ih =>
    have later := ih fun instr after suffix =>
      content instr after (suffix.trans (List.suffix_cons _ _))
    have here := content head rest List.suffix_rfl
    simp [here, later]

end EchoRobot.Interleaving
