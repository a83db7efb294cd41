import Mathlib.Data.List.Basic
import Mathlib.Data.List.Infix
import Mathlib.Logic.Function.Basic

/-! Logs of writes to a keyed store. An entry may write several keys, and the last
entry that writes a key decides its value; a log that is sent over an unreliable
channel is given up at the first entry that fails. -/

namespace EchoRobot.Logs

universe u v w
variable {Key : Type u} {Val : Type v} {Entry : Type w}

/-- Carry out one entry; `writes` says what it puts under each key. -/
def apply (writes : Entry → Key → Option Val) (store : Key → Val) (entry : Entry) : Key → Val :=
  fun key => (writes entry key).getD (store key)

def replay (writes : Entry → Key → Option Val) (store : Key → Val) (log : List Entry) :
    Key → Val :=
  log.foldl (apply writes) store

section Replay
variable {writes : Entry → Key → Option Val} {store : Key → Val} {log : List Entry} {key : Key}

@[simp] theorem replay_nil : replay writes store [] = store := rfl

@[simp] theorem replay_cons (entry : Entry) :
    replay writes store (entry :: log) = replay writes (apply writes store entry) log := rfl

theorem replay_append (first second : List Entry) :
    replay writes store (first ++ second) = replay writes (replay writes store first) second :=
  List.foldl_append ..

theorem apply_none {entry : Entry} (untouched : writes entry key = none) :
    apply writes store entry key = store key := by
  simp [apply, untouched]

theorem apply_some {entry : Entry} {val : Val} (touched : writes entry key = some val) :
    apply writes store entry key = val := by
  simp [apply, touched]

/-- A key that no entry writes keeps its value. -/
theorem replay_untouched (untouched : ∀ entry ∈ log, writes entry key = none) :
    replay writes store log key = store key := by
  induction log generalizing store with
  | nil => rfl
  | cons entry rest ih =>
    rw [replay_cons, ih fun other member => untouched other (by simp [member]),
      apply_none (untouched entry (by simp))]

/-- The value of a key that some entry writes does not depend on the store. -/
theorem replay_touched {other : Key → Val} {entry : Entry} (member : entry ∈ log)
    (touched : (writes entry key).isSome) :
    replay writes store log key = replay writes other log key := by
  obtain ⟨before, rest, rfl⟩ := List.append_of_mem member
  obtain ⟨val, written⟩ := Option.isSome_iff_exists.mp touched
  simp only [replay_append, replay_cons]
  generalize replay writes store before = first
  generalize replay writes other before = second
  have same : apply writes first entry key = apply writes second entry key := by
    rw [apply_some written, apply_some written]
  generalize apply writes first entry = first at same
  generalize apply writes second entry = second at same
  clear member touched written
  induction rest generalizing first second with
  | nil => exact same
  | cons next rest ih =>
    apply ih
    unfold apply
    rw [same]

/-- A key to which all entries that write it give one value has that value. -/
theorem replay_agreed {val : Val} (touched : ∃ entry ∈ log, (writes entry key).isSome)
    (agreed : ∀ entry ∈ log, ∀ other, writes entry key = some other → other = val) :
    replay writes store log key = val := by
  induction log generalizing store with
  | nil => simp at touched
  | cons head rest ih =>
    rw [replay_cons]
    by_cases again : ∃ entry ∈ rest, (writes entry key).isSome
    · exact ih again fun entry member => agreed entry (by simp [member])
    · have last : (writes head key).isSome := by
        obtain ⟨entry, member, written⟩ := touched
        rcases List.mem_cons.mp member with rfl | later
        · exact written
        · exact absurd ⟨entry, later, written⟩ again
      obtain ⟨other, written⟩ := Option.isSome_iff_exists.mp last
      obtain rfl := agreed head (by simp) other written
      rw [replay_untouched fun entry member => ?_, apply_some written]
      exact Option.not_isSome_iff_eq_none.mp fun some => again ⟨entry, member, some⟩

/-- A log that writes only what is there changes nothing. -/
theorem replay_idle (idle : ∀ entry ∈ log, ∀ key val, writes entry key = some val →
    store key = val) : replay writes store log = store := by
  induction log with
  | nil => rfl
  | cons entry rest ih =>
    have same : apply writes store entry = store := by
      funext key
      cases written : writes entry key with
      | none => exact apply_none written
      | some val => rw [apply_some written, idle entry (by simp) key val written]
    rw [replay_cons, same]
    exact ih fun other member => idle other (by simp [member])

/-- Replaying the end of a log where the whole log led changes nothing. -/
theorem replay_suffix {suffix : List Entry} (ending : suffix <:+ log) :
    replay writes (replay writes store log) suffix = replay writes store log := by
  obtain ⟨before, rfl⟩ := ending
  funext key
  by_cases touched : ∃ entry ∈ suffix, (writes entry key).isSome
  · obtain ⟨entry, member, written⟩ := touched
    rw [replay_append]
    exact replay_touched member written
  · apply replay_untouched
    intro entry member
    rw [← Option.not_isSome_iff_eq_none]
    exact fun written => touched ⟨entry, member, written⟩

end Replay

/-- A property of the store holds after every entry of the log. -/
def Along (writes : Entry → Key → Option Val) (inv : (Key → Val) → Prop) (store : Key → Val)
    (log : List Entry) : Prop :=
  ∀ done, done <+: log → inv (replay writes store done)

section Along
variable {writes : Entry → Key → Option Val} {inv : (Key → Val) → Prop} {store : Key → Val}

theorem along_nil : Along writes inv store [] ↔ inv store := by
  constructor
  · exact fun along => along [] List.nil_prefix
  · intro holds done inside
    obtain rfl := List.prefix_nil.mp inside
    exact holds

theorem along_cons {entry : Entry} {log : List Entry} :
    Along writes inv store (entry :: log) ↔
      inv store ∧ Along writes inv (apply writes store entry) log := by
  constructor
  · intro along
    refine ⟨along [] List.nil_prefix, fun done inside => ?_⟩
    exact along (entry :: done) ((List.prefix_cons_inj entry).mpr inside)
  · rintro ⟨here, later⟩ done inside
    cases done with
    | nil => exact here
    | cons head done =>
      obtain ⟨rfl, shorter⟩ := List.cons_prefix_cons.mp inside
      exact later done shorter

theorem along_append {first second : List Entry} :
    Along writes inv store (first ++ second) ↔
      Along writes inv store first ∧ Along writes inv (replay writes store first) second := by
  induction first generalizing store with
  | nil =>
    refine ⟨fun along => ⟨along_nil.mpr (along [] List.nil_prefix), along⟩, fun both => both.2⟩
  | cons entry rest ih =>
    rw [List.cons_append, along_cons, along_cons, ih, replay_cons, and_assoc]

theorem Along.here {log : List Entry} (along : Along writes inv store log) : inv store :=
  along [] List.nil_prefix

theorem Along.final {log : List Entry} (along : Along writes inv store log) :
    inv (replay writes store log) :=
  along log List.prefix_rfl

end Along

/-- Every entry of the log is allowed where the entries before it have led. -/
def Lawful (writes : Entry → Key → Option Val) (law : (Key → Val) → Entry → Prop) :
    (Key → Val) → List Entry → Prop
  | _, [] => True
  | store, entry :: rest => law store entry ∧ Lawful writes law (apply writes store entry) rest

section Lawful
variable {writes : Entry → Key → Option Val} {law : (Key → Val) → Entry → Prop}
  {store : Key → Val}

theorem lawful_append {first second : List Entry} :
    Lawful writes law store (first ++ second) ↔
      Lawful writes law store first ∧ Lawful writes law (replay writes store first) second := by
  induction first generalizing store with
  | nil => exact ⟨fun lawful => ⟨trivial, lawful⟩, fun both => both.2⟩
  | cons entry rest ih => rw [List.cons_append, Lawful, Lawful, ih, replay_cons, and_assoc]

/-- Entries that an invariant allows, and that keep it. -/
theorem lawful_of_inv {inv : (Key → Val) → Prop} {log : List Entry} (start : inv store)
    (allowed : ∀ entry ∈ log, ∀ store, inv store → law store entry)
    (kept : ∀ entry ∈ log, ∀ store, inv store → inv (apply writes store entry)) :
    Lawful writes law store log ∧ inv (replay writes store log) := by
  induction log generalizing store with
  | nil => exact ⟨trivial, start⟩
  | cons entry rest ih =>
    obtain ⟨lawful, final⟩ := ih (kept entry (by simp) store start)
      (fun other member => allowed other (by simp [member]))
      (fun other member => kept other (by simp [member]))
    exact ⟨⟨allowed entry (by simp) store start, lawful⟩, final⟩

end Lawful

/-- The entries carried out before the first that is answered by an error. -/
def completed (answers : Nat → Int) : List Entry → List Entry
  | [] => []
  | entry :: rest =>
    if answers 0 < 0 then [] else entry :: completed (fun later => answers (later + 1)) rest

/-- The last answer received, an error if there is one. -/
def answer (answers : Nat → Int) : List Entry → Int
  | [] => 0
  | [_] => answers 0
  | _ :: rest =>
    if answers 0 < 0 then answers 0 else answer (fun later => answers (later + 1)) rest

section Completed
variable {answers : Nat → Int}

theorem completed_isPrefix (log : List Entry) : completed answers log <+: log := by
  induction log generalizing answers with
  | nil => exact List.prefix_rfl
  | cons entry rest ih =>
    unfold completed
    split
    · exact List.nil_prefix
    · exact (List.prefix_cons_inj entry).mpr ih

theorem completed_all {log : List Entry} (succeed : ∀ index < log.length, 0 ≤ answers index) :
    completed answers log = log := by
  induction log generalizing answers with
  | nil => rfl
  | cons entry rest ih =>
    have first : ¬ answers 0 < 0 := Int.not_lt.mpr (succeed 0 (by simp))
    rw [completed, if_neg first, ih fun index inside => succeed (index + 1) (by simpa using inside)]

/-- The entries carried out include those before which no answer is an error. -/
theorem take_prefix_completed {log : List Entry} {count : Nat} (inside : count ≤ log.length) :
    log.take count <+: completed answers log ↔ ∀ index < count, 0 ≤ answers index := by
  induction log generalizing answers count with
  | nil =>
    obtain rfl : count = 0 := by simpa using inside
    simp
  | cons entry rest ih =>
    cases count with
    | zero => simp
    | succ count =>
      rw [List.take_succ_cons, completed]
      split
      · rename_i failed
        refine iff_of_false (by simp) fun succeed => ?_
        have := succeed 0 (by omega)
        omega
      · rename_i passed
        rw [List.prefix_cons_inj, ih (by simpa using inside)]
        constructor
        · intro later index below
          cases index with
          | zero => omega
          | succ index => exact later index (by omega)
        · exact fun succeed index below => succeed (index + 1) (by omega)

/-- An error is the answer exactly when some entry failed. -/
theorem answer_neg {log : List Entry} :
    answer answers log < 0 ↔ ∃ index < log.length, answers index < 0 := by
  induction log generalizing answers with
  | nil => simp [answer]
  | cons entry rest ih =>
    cases rest with
    | nil => simp [answer]
    | cons next rest =>
      simp only [answer]
      split
      · rename_i failed
        exact iff_of_true failed ⟨0, by simp, failed⟩
      · rename_i passed
        rw [ih]
        constructor
        · rintro ⟨index, inside, failed⟩
          exact ⟨index + 1, by simpa using inside, failed⟩
        · rintro ⟨index, inside, failed⟩
          cases index with
          | zero => exact absurd failed passed
          | succ index => exact ⟨index, by simpa using inside, failed⟩

theorem answer_nonpos {log : List Entry} (errors : ∀ index, answers index ≤ 0) :
    answer answers log ≤ 0 := by
  induction log generalizing answers with
  | nil => exact Int.le_refl 0
  | cons entry rest ih =>
    cases rest with
    | nil => exact errors 0
    | cons next rest =>
      unfold answer
      split
      · exact errors 0
      · exact ih fun index => errors (index + 1)

/-- Where answers are zero or errors, zero says that no entry failed. -/
theorem answer_zero {log : List Entry} (errors : ∀ index, answers index ≤ 0) :
    answer answers log = 0 ↔ ∀ index < log.length, 0 ≤ answers index := by
  constructor
  · intro success index inside
    by_contra negative
    have failed : answer answers log < 0 := answer_neg.mpr ⟨index, inside, by omega⟩
    omega
  · intro success
    by_contra other
    have upper : answer answers log ≤ 0 := answer_nonpos errors
    have failed : answer answers log < 0 := by omega
    obtain ⟨index, inside, negative⟩ := answer_neg.mp failed
    have lower := success index inside
    omega

end Completed

end EchoRobot.Logs
