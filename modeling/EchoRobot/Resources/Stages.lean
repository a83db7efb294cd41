import EchoRobot.Resources.Ledger

/-! Acquiring in stages. When a stage fails, the stages before it are undone, the last one
first; each stage has only its own resources to account for. -/

namespace EchoRobot.Resources

universe u
variable {Resource : Type u} [DecidableEq Resource]

/-- What one stage enters into the ledger, and what undoes it when it has succeeded. -/
structure Phase (Resource : Type u) where
  log : List (LedgerEntry Resource)
  failed : Bool
  undo : List (LedgerEntry Resource)
  needs : Resource → Prop

/-- A stage that fails keeps nothing, and one that succeeds keeps what it needs until it is
undone. -/
structure Phase.Sound (stage : Phase Resource) : Prop where
  fails : stage.failed = true → book [] stage.log = some []
  succeeds : stage.failed = false → ∃ held, book [] stage.log = some held ∧
    (∀ resource, resource ∈ held ↔ stage.needs resource) ∧ book held stage.undo = some []
  once : (acquired stage.log).Nodup
  undoes : acquired stage.undo = []

/-- No resource is acquired by both stages. -/
def Phase.Apart (stage other : Phase Resource) : Prop :=
  ∀ resource ∈ acquired stage.log, resource ∉ acquired other.log

/-- One stage after the other, as one stage. -/
def Phase.andThen (stage later : Phase Resource) : Phase Resource where
  log := if stage.failed then stage.log else
    if later.failed then stage.log ++ later.log ++ stage.undo else stage.log ++ later.log
  failed := stage.failed || later.failed
  undo := later.undo ++ stage.undo
  needs := fun resource => stage.needs resource ∨ later.needs resource

/-- Nothing to acquire. -/
def Phase.nothing : Phase Resource := ⟨[], false, [], fun _ => False⟩

/-- A creation as a stage, which `destroy` undoes. -/
def Phase.ofResult {Error Context : Type*} (created : List (LedgerEntry Resource) ×
    Except Error Context) (destroy : Context → List (LedgerEntry Resource))
    (needs : Resource → Prop) : Phase Resource where
  log := created.1
  failed := match created.2 with
    | .error _ => true
    | .ok _ => false
  undo := match created.2 with
    | .error _ => []
    | .ok context => destroy context
  needs := needs

/-- Sound, and everything that it acquires belongs to one owner. -/
structure Phase.SoundFor {Owner : Type*} (owner : Resource → Owner) (own : Owner)
    (stage : Phase Resource) : Prop extends stage.Sound where
  within : ∀ resource ∈ acquired stage.log, owner resource = own

/-- All stages in order. -/
def loading (stages : List (Phase Resource)) : Phase Resource :=
  stages.foldr Phase.andThen Phase.nothing

variable {stage later : Phase Resource} {stages : List (Phase Resource)}

theorem nothing_sound : (Phase.nothing : Phase Resource).Sound where
  fails := by rintro ⟨⟩
  succeeds _ := ⟨[], rfl, by simp [Phase.nothing], rfl⟩
  once := List.nodup_nil
  undoes := rfl

/-- What a later stage does leaves alone what an earlier one holds. -/
theorem book_later {held after : List Resource} (apart : stage.Apart later)
    (first : book [] stage.log = some held) (second : book [] later.log = some after) :
    book [] (stage.log ++ later.log) = some (after ++ held) := by
  rw [book_append, first, Option.bind_some]
  exact book_frame second fun resource acquires inside =>
    apart resource (mem_acquired first inside) acquires

omit [DecidableEq Resource] in
theorem andThen_acquired (later : Phase Resource) (undoes : acquired stage.undo = []) :
    acquired (stage.andThen later).log = acquired stage.log ∨
      acquired (stage.andThen later).log = acquired stage.log ++ acquired later.log := by
  unfold Phase.andThen
  dsimp only
  split
  · exact Or.inl rfl
  · right
    split
    · rw [acquired_append, acquired_append, undoes, List.append_nil]
    · rw [acquired_append]

theorem andThen_sound (sound : stage.Sound) (laterSound : later.Sound) (apart : stage.Apart later) :
    (stage.andThen later).Sound where
  fails failed := by
    cases first : stage.failed with
    | true => simpa [Phase.andThen, first] using sound.fails first
    | false =>
      have second : later.failed = true := by simpa [Phase.andThen, first] using failed
      obtain ⟨held, booked, -, undone⟩ := sound.succeeds first
      have both := book_later apart booked (laterSound.fails second)
      simp only [Phase.andThen, first, second, Bool.false_eq_true, ↓reduceIte]
      rw [book_append, both, Option.bind_some, List.nil_append]
      exact undone
  succeeds succeeded := by
    obtain ⟨first, second⟩ : stage.failed = false ∧ later.failed = false := by
      simpa [Phase.andThen] using succeeded
    obtain ⟨held, booked, needs, undone⟩ := sound.succeeds first
    obtain ⟨after, laterBooked, laterNeeds, laterUndone⟩ := laterSound.succeeds second
    refine ⟨after ++ held, ?_, fun resource => ?_, ?_⟩
    · simpa only [Phase.andThen, first, second, Bool.false_eq_true, ↓reduceIte] using
        book_later apart booked laterBooked
    · rw [List.mem_append, needs, laterNeeds]
      exact or_comm
    · have framed : book (after ++ held) later.undo = some ([] ++ held) :=
        book_frame laterUndone (by simp [laterSound.undoes])
      rw [Phase.andThen, book_append, framed, Option.bind_some, List.nil_append]
      exact undone
  once := by
    rcases andThen_acquired later sound.undoes with same | both
    · rw [same]
      exact sound.once
    · rw [both]
      refine List.nodup_append.mpr ⟨sound.once, laterSound.once, ?_⟩
      rintro resource first other second rfl
      exact apart resource first second
  undoes := by rw [Phase.andThen, acquired_append, sound.undoes, laterSound.undoes, List.append_nil]

omit [DecidableEq Resource] in
theorem apart_loading (undoes : ∀ later ∈ stages, acquired later.undo = [])
    (apart : ∀ later ∈ stages, stage.Apart later) : stage.Apart (loading stages) := by
  induction stages with
  | nil => exact fun _ _ => List.not_mem_nil
  | cons head rest ih =>
    have later := ih (fun other member => undoes other (by simp [member]))
      fun other member => apart other (by simp [member])
    have first := apart head (by simp)
    intro resource acquires inside
    rcases andThen_acquired (loading rest) (undoes head (by simp)) with same | both
    · exact first resource acquires (same ▸ inside)
    · rcases List.mem_append.mp (both ▸ inside) with here | there
      · exact first resource acquires here
      · exact later resource acquires there

/-- Stages that are sound and have nothing in common make up a sound stage. -/
theorem loading_sound (sound : ∀ stage ∈ stages, stage.Sound)
    (apart : stages.Pairwise Phase.Apart) : (loading stages).Sound := by
  induction stages with
  | nil => exact nothing_sound
  | cons head rest ih =>
    obtain ⟨here, there⟩ := List.pairwise_cons.mp apart
    have later : ∀ stage ∈ rest, stage.Sound := fun stage member => sound stage (by simp [member])
    exact andThen_sound (sound head (by simp)) (ih later there)
      (apart_loading (fun stage member => (later stage member).undoes) here)

omit [DecidableEq Resource] in
theorem loading_needs (resource : Resource) :
    (loading stages).needs resource ↔ ∃ stage ∈ stages, stage.needs resource := by
  induction stages with
  | nil => simp [loading, Phase.nothing]
  | cons head rest ih =>
    rw [List.exists_mem_cons_iff, ← ih]
    exact Iff.rfl

section Result
variable {Error Context Owner : Type*} {log : List (LedgerEntry Resource)}
variable {destroy : Context → List (LedgerEntry Resource)} {needs : Resource → Prop}
variable {owner : Resource → Owner} {own : Owner}

theorem failed_sound {error : Error} (booked : book [] log = some [])
    (once : (acquired log).Nodup) (within : ∀ resource ∈ acquired log, owner resource = own) :
    (Phase.ofResult (log, .error error) destroy needs).SoundFor owner own :=
  ⟨⟨fun _ => booked, (by rintro ⟨⟩), once, rfl⟩, within⟩

theorem created_sound {context : Context} {held : List Resource}
    (booked : book [] log = some held) (exact : ∀ resource, resource ∈ held ↔ needs resource)
    (undone : book held (destroy context) = some []) (once : (acquired log).Nodup)
    (undoes : acquired (destroy context) = [])
    (within : ∀ resource ∈ acquired log, owner resource = own) :
    (Phase.ofResult ((log, .ok context) : List (LedgerEntry Resource) × Except Error Context)
      destroy needs).SoundFor owner own :=
  ⟨⟨(by rintro ⟨⟩), fun _ => ⟨held, booked, exact, undone⟩, once, undoes⟩, within⟩

end Result

/-- Stages of different owners make up a sound stage. -/
theorem owned_sound {Owner : Type*} {owner : Resource → Owner}
    {owned : List (Owner × Phase Resource)} (distinct : (owned.map Prod.fst).Nodup)
    (sound : ∀ entry ∈ owned, entry.2.SoundFor owner entry.1) :
    (loading (owned.map Prod.snd)).Sound := by
  refine loading_sound (List.forall_mem_map.mpr fun entry member => (sound entry member).toSound) ?_
  rw [List.pairwise_map]
  refine List.Pairwise.imp_of_mem ?_ (List.pairwise_map.mp distinct)
  intro first second left right differ resource here there
  exact differ (((sound first left).within resource here).symm.trans
    ((sound second right).within resource there))

end EchoRobot.Resources
