import Mathlib.Data.List.Nodup

/-! A ledger of what is acquired and released. It can be kept only while nothing is
acquired that is held, and nothing released that is not. -/

namespace EchoRobot.Resources

universe u
variable {Resource : Type u} [DecidableEq Resource]

inductive LedgerEntry (Resource : Type u) where
  | acquire (resource : Resource)
  | release (resource : Resource)
  deriving DecidableEq

def enter (held : List Resource) : LedgerEntry Resource → Option (List Resource)
  | .acquire resource => if resource ∈ held then none else some (resource :: held)
  | .release resource => if resource ∈ held then some (held.erase resource) else none

/-- What is held after a log, if it can be kept. -/
def book (held : List Resource) : List (LedgerEntry Resource) → Option (List Resource)
  | [] => some held
  | entry :: log => (enter held entry).bind (book · log)

def LedgerEntry.acquired? : LedgerEntry Resource → Option Resource
  | .acquire resource => some resource
  | .release _ => none

def acquired (log : List (LedgerEntry Resource)) : List Resource :=
  log.filterMap LedgerEntry.acquired?

variable {held after : List Resource} {log first second : List (LedgerEntry Resource)}
variable {resource : Resource}

@[simp] theorem book_nil : book held [] = some held := rfl

theorem book_acquire (free : resource ∉ held) :
    book held (.acquire resource :: log) = book (resource :: held) log := by
  simp [book, enter, free]

/-- What was acquired last is released first. -/
@[simp] theorem book_release :
    book (resource :: held) (.release resource :: log) = book held log := by
  simp [book, enter]

theorem enter_nodup {entry : LedgerEntry Resource} (nodup : held.Nodup)
    (entered : enter held entry = some after) : after.Nodup := by
  cases entry with
  | acquire resource =>
    simp only [enter] at entered
    split at entered <;> cases entered
    rename_i free
    exact List.nodup_cons.mpr ⟨free, nodup⟩
  | release resource =>
    simp only [enter] at entered
    split at entered <;> cases entered
    exact nodup.erase resource

/-- Nothing is held twice. -/
theorem book_nodup (nodup : held.Nodup) (booked : book held log = some after) : after.Nodup := by
  induction log generalizing held with
  | nil => exact Option.some.inj booked ▸ nodup
  | cons entry log ih =>
    obtain ⟨middle, entered, later⟩ := Option.bind_eq_some_iff.mp booked
    exact ih (enter_nodup nodup entered) later

theorem enter_count {entry : LedgerEntry Resource} (entered : enter held entry = some after) :
    after.count resource + [entry].count (.release resource) =
      held.count resource + [entry].count (.acquire resource) := by
  cases entry with
  | acquire other =>
    simp only [enter] at entered
    split at entered <;> cases entered
    by_cases same : other = resource
    · subst same
      simp
    · simp [same]
  | release other =>
    simp only [enter] at entered
    split at entered <;> cases entered
    rename_i inside
    by_cases same : other = resource
    · subst same
      have positive := List.count_pos_iff.mpr inside
      have unacquired : [LedgerEntry.release other].count (.acquire other) = 0 := by simp
      simp only [List.count_erase_self, List.count_cons_self, List.count_nil, unacquired]
      omega
    · simp [same, List.count_erase_of_ne (Ne.symm same)]

/-- What is held is what was held and acquired, less what was released. -/
theorem book_count (resource : Resource) (booked : book held log = some after) :
    after.count resource + log.count (.release resource) =
      held.count resource + log.count (.acquire resource) := by
  induction log generalizing held with
  | nil =>
    obtain rfl := Option.some.inj booked
    rfl
  | cons entry log ih =>
    obtain ⟨middle, entered, later⟩ := Option.bind_eq_some_iff.mp booked
    have here := @enter_count _ _ held middle resource entry entered
    have rest := ih later
    rw [← List.singleton_append, List.count_append, List.count_append]
    omega

/-- A log that starts and ends with nothing held releases what it acquires. -/
theorem balanced (booked : book [] log = some []) :
    log.count (.release resource) = log.count (.acquire resource) := by
  simpa using book_count resource booked

omit [DecidableEq Resource] in
@[simp] theorem acquired_append : acquired (first ++ second) = acquired first ++ acquired second :=
  List.filterMap_append

theorem count_acquired : (acquired log).count resource = log.count (.acquire resource) := by
  induction log with
  | nil => rfl
  | cons entry log ih =>
    cases entry with
    | acquire other =>
      by_cases same : other = resource
      · subst same
        simpa [acquired, LedgerEntry.acquired?] using ih
      · simpa [acquired, LedgerEntry.acquired?, same] using ih
    | release other =>
      rw [acquired, List.filterMap_cons_none rfl]
      simpa [acquired] using ih

theorem book_append :
    book held (first ++ second) = (book held first).bind (book · second) := by
  induction first generalizing held with
  | nil => rfl
  | cons entry first ih =>
    simp only [List.cons_append, book, Option.bind_assoc, ih]

/-- Only what was acquired is held. -/
theorem mem_acquired (booked : book [] log = some held) (member : resource ∈ held) :
    resource ∈ acquired log := by
  have counted := book_count resource booked
  have positive := List.count_pos_iff.mpr member
  rw [← List.count_pos_iff, count_acquired]
  simp only [List.count_nil] at counted
  omega

/-- A log leaves alone what it does not acquire. -/
theorem book_frame {base : List Resource} (booked : book held log = some after)
    (apart : ∀ resource ∈ acquired log, resource ∉ base) :
    book (held ++ base) log = some (after ++ base) := by
  induction log generalizing held with
  | nil => exact congrArg (fun held => some (held ++ base)) (Option.some.inj booked)
  | cons entry log ih =>
    obtain ⟨middle, entered, later⟩ := Option.bind_eq_some_iff.mp booked
    cases entry with
    | acquire resource =>
      simp only [enter] at entered
      split at entered <;> cases entered
      rename_i free
      have outside : resource ∉ held ++ base := by
        rw [List.mem_append, not_or]
        exact ⟨free, apart resource (by simp [acquired, LedgerEntry.acquired?])⟩
      rw [book_acquire outside]
      refine ih later fun other member => apart other ?_
      simpa [acquired, LedgerEntry.acquired?] using Or.inr member
    | release resource =>
      simp only [enter] at entered
      split at entered <;> cases entered
      rename_i inside
      have taken : resource ∈ held ++ base := List.mem_append_left base inside
      have frees : book (held ++ base) (.release resource :: log) =
          book (held.erase resource ++ base) log := by
        rw [book, enter, if_pos taken, Option.bind_some, List.erase_append_left _ inside]
      rw [frees]
      exact ih later fun other member => apart other (by
        simpa [acquired, LedgerEntry.acquired?] using member)

section Map
variable {Other : Type u} [DecidableEq Other] {f : Resource → Other}

def LedgerEntry.map (f : Resource → Other) : LedgerEntry Resource → LedgerEntry Other
  | .acquire resource => .acquire (f resource)
  | .release resource => .release (f resource)

omit [DecidableEq Resource] [DecidableEq Other] in
theorem acquired_map : acquired (log.map (LedgerEntry.map f)) = (acquired log).map f := by
  induction log with
  | nil => rfl
  | cons entry log ih =>
    cases entry with
    | acquire resource => exact congrArg (f resource :: ·) ih
    | release resource => exact ih

/-- A ledger may be kept under other names. -/
theorem book_map (injective : Function.Injective f) (booked : book held log = some after) :
    book (held.map f) (log.map (LedgerEntry.map f)) = some (after.map f) := by
  induction log generalizing held with
  | nil => exact congrArg (fun held => some (List.map f held)) (Option.some.inj booked)
  | cons entry log ih =>
    obtain ⟨middle, entered, later⟩ := Option.bind_eq_some_iff.mp booked
    cases entry with
    | acquire resource =>
      simp only [enter] at entered
      split at entered <;> cases entered
      rename_i free
      have outside : f resource ∉ held.map f := by rwa [List.mem_map_of_injective injective]
      rw [List.map_cons, LedgerEntry.map, book_acquire outside]
      exact ih later
    | release resource =>
      simp only [enter] at entered
      split at entered <;> cases entered
      rename_i inside
      have taken : f resource ∈ held.map f := List.mem_map_of_mem inside
      rw [List.map_cons, LedgerEntry.map, book, enter, if_pos taken, Option.bind_some,
        ← List.map_erase injective]
      exact ih later

end Map

end EchoRobot.Resources
