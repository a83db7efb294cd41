import Mathlib.Data.List.Basic
import Mathlib.Algebra.Order.Ring.Nat

/-! Structures in memory. Every member lies at a multiple of its size, behind the one before
it; a number is stored with its lowest byte first. -/

namespace EchoRobot.Bytes

/-- A byte of a number. -/
def digit (value index : Nat) : Nat := value / 256 ^ index % 256

/-- The number that the bytes from `offset` on make up. -/
def word (memory : Nat → Nat) : Nat → Nat → Nat
  | _, 0 => 0
  | offset, size + 1 => memory offset + 256 * word memory (offset + 1) size

section Word
variable {memory other : Nat → Nat} {offset size value : Nat}

theorem digit_succ (value index : Nat) : digit value (index + 1) = digit (value / 256) index := by
  rw [digit, digit, Nat.pow_succ', Nat.div_div_eq_div_mul]

theorem word_congr
    (same : ∀ index < size, memory (offset + index) = other (offset + index)) :
    word memory offset size = word other offset size := by
  induction size generalizing offset with
  | zero => rfl
  | succ size ih =>
    have first : memory offset = other offset := same 0 (Nat.succ_pos size)
    have later : word memory (offset + 1) size = word other (offset + 1) size := by
      apply ih
      intro index inside
      rw [Nat.add_right_comm]
      exact same (index + 1) (Nat.succ_lt_succ inside)
    rw [word, word, first, later]

/-- Bytes that are those of a number make it up, as far as they go. -/
theorem word_digits (stored : ∀ index < size, memory (offset + index) = digit value index) :
    word memory offset size = value % 256 ^ size := by
  induction size generalizing offset value with
  | zero => simp [word, Nat.mod_one]
  | succ size ih =>
    have first : memory offset = value % 256 := by
      simpa [digit] using stored 0 (Nat.succ_pos size)
    have later : word memory (offset + 1) size = value / 256 % 256 ^ size := by
      apply ih
      intro index inside
      rw [Nat.add_right_comm, ← digit_succ]
      exact stored (index + 1) (Nat.succ_lt_succ inside)
    rw [word, first, later, Nat.pow_succ', Nat.mod_mul]

theorem word_lt (bytes : ∀ key, memory key < 256) : word memory offset size < 256 ^ size := by
  induction size generalizing offset with
  | zero => simp [word]
  | succ size ih =>
    have first := bytes offset
    have later := @ih (offset + 1)
    rw [word, Nat.pow_succ']
    omega

theorem word_add (memory : Nat → Nat) (offset first second : Nat) :
    word memory offset (first + second) =
      word memory offset first + 256 ^ first * word memory (offset + first) second := by
  induction first generalizing offset with
  | zero => simp [word]
  | succ first ih =>
    have behind : offset + 1 + first = offset + (first + 1) := Nat.add_right_comm offset 1 first
    rw [Nat.succ_add, word, ih, word, behind, Nat.pow_succ', Nat.mul_add, Nat.mul_assoc,
      Nat.add_assoc]

theorem digit_word (bytes : ∀ key, memory key < 256) {index : Nat} (inside : index < size) :
    digit (word memory offset size) index = memory (offset + index) := by
  induction size generalizing offset index with
  | zero => cases inside
  | succ size ih =>
    have first := bytes offset
    cases index with
    | zero =>
      rw [digit, word, Nat.pow_zero, Nat.div_one, Nat.add_mul_mod_self_left,
        Nat.mod_eq_of_lt first, Nat.add_zero]
    | succ index =>
      have rest : word memory offset (size + 1) / 256 = word memory (offset + 1) size := by
        rw [word, Nat.add_mul_div_left _ _ (by decide), Nat.div_eq_of_lt first, Nat.zero_add]
      rw [digit_succ, rest, ih (Nat.lt_of_succ_lt_succ inside), Nat.add_right_comm, Nat.add_assoc]

end Word

/-- A member that holds a number. -/
structure Member where
  offset : Nat
  size : Nat
  deriving DecidableEq, Repr

namespace Member

def Holds (member : Member) (key : Nat) : Prop :=
  member.offset ≤ key ∧ key < member.offset + member.size

instance (member : Member) (key : Nat) : Decidable (member.Holds key) :=
  inferInstanceAs (Decidable (_ ∧ _))

def load (member : Member) (memory : Nat → Nat) : Nat := word memory member.offset member.size

def store (member : Member) (value : Nat) (memory : Nat → Nat) (key : Nat) : Nat :=
  if member.Holds key then digit value (key - member.offset) else memory key

/-- The first member ends before the second begins. -/
def Before (member later : Member) : Prop := member.offset + member.size ≤ later.offset

variable {member : Member} {memory memory' : Nat → Nat} {value : Nat}

theorem load_congr (same : ∀ key, member.Holds key → memory key = memory' key) :
    member.load memory = member.load memory' := by
  apply word_congr
  intro index inside
  exact same _ ⟨Nat.le_add_right .., Nat.add_lt_add_left inside _⟩

theorem load_of_bytes
    (stored : ∀ key, member.Holds key → memory key = digit value (key - member.offset))
    (fits : value < 256 ^ member.size) : member.load memory = value := by
  have read : member.load memory = value % 256 ^ member.size := by
    apply word_digits
    intro index inside
    rw [stored _ ⟨Nat.le_add_right .., Nat.add_lt_add_left inside _⟩, Nat.add_sub_cancel_left]
  rw [read, Nat.mod_eq_of_lt fits]

theorem load_store (fits : value < 256 ^ member.size) :
    member.load (member.store value memory) = value := by
  apply load_of_bytes _ fits
  intro key inside
  rw [store, if_pos inside]

/-- Storing what was loaded changes nothing. -/
theorem store_load (bytes : ∀ key, memory key < 256) :
    member.store (member.load memory) memory = memory := by
  funext key
  rw [store]
  split
  · rename_i inside
    have index : key - member.offset < member.size := by
      obtain ⟨begun, ended⟩ := inside
      omega
    rw [load, digit_word bytes index, Nat.add_sub_of_le inside.1]
  · rfl

end Member

/-! ### Layout -/

def alignUp (offset size : Nat) : Nat := (offset + (size - 1)) / size * size

theorem le_alignUp {offset size : Nat} (positive : 0 < size) : offset ≤ alignUp offset size := by
  have below := Nat.mod_lt (offset + (size - 1)) positive
  have split := Nat.div_add_mod (offset + (size - 1)) size
  rw [Nat.mul_comm] at split
  unfold alignUp
  omega

/-- The members of the given sizes, from `offset` on. -/
def membersFrom : Nat → List Nat → List Member
  | _, [] => []
  | offset, size :: sizes =>
    ⟨alignUp offset size, size⟩ :: membersFrom (alignUp offset size + size) sizes

abbrev members (sizes : List Nat) : List Member := membersFrom 0 sizes

/-- A structure ends at a multiple of its largest member's size. -/
def sizeof (sizes : List Nat) : Nat :=
  alignUp (((members sizes).getLast?.map fun last => last.offset + last.size).getD 0)
    (sizes.foldr max 1)

section Members
variable {sizes : List Nat} {offset : Nat} {member : Member}

theorem le_of_membersFrom (positive : ∀ size ∈ sizes, 0 < size)
    (among : member ∈ membersFrom offset sizes) : offset ≤ member.offset := by
  induction sizes generalizing offset with
  | nil => simp [membersFrom] at among
  | cons size sizes ih =>
    have aligned := @le_alignUp offset size (positive size (by simp))
    rcases List.mem_cons.mp among with rfl | later
    · exact aligned
    · have behind := ih (fun other inside => positive other (by simp [inside])) later
      omega

theorem before_membersFrom (positive : ∀ size ∈ sizes, 0 < size) :
    (membersFrom offset sizes).Pairwise Member.Before := by
  induction sizes generalizing offset with
  | nil => exact List.Pairwise.nil
  | cons size sizes ih =>
    have others : ∀ other ∈ sizes, 0 < other := fun other inside =>
      positive other (by simp [inside])
    refine List.pairwise_cons.mpr ⟨fun later inside => ?_, ih others⟩
    exact le_of_membersFrom others inside

/-- A structure has room for all its members. -/
theorem end_le_sizeof (positive : ∀ size ∈ sizes, 0 < size) (among : member ∈ members sizes) :
    member.offset + member.size ≤ sizeof sizes := by
  obtain ⟨last, ends⟩ : ∃ last, (members sizes).getLast? = some last :=
    Option.isSome_iff_exists.mp (List.getLast?_isSome.mpr (List.ne_nil_of_mem among))
  obtain ⟨before, split⟩ := List.getLast?_eq_some_iff.mp ends
  have largest : ∀ sizes : List Nat, 0 < sizes.foldr max 1 := by
    intro sizes
    induction sizes with
    | nil => decide
    | cons size sizes ih => exact Nat.lt_of_lt_of_le ih (Nat.le_max_right ..)
  have inside : member.offset + member.size ≤ last.offset + last.size := by
    have ordered : (members sizes).Pairwise Member.Before := before_membersFrom positive
    rw [split] at among ordered
    rcases List.mem_append.mp among with earlier | final
    · have apart := (List.pairwise_append.mp ordered).2.2 member earlier last (by simp)
      exact Nat.le_trans apart (Nat.le_add_right ..)
    · rw [List.mem_singleton.mp final]
  calc member.offset + member.size
      ≤ last.offset + last.size := inside
    _ ≤ sizeof sizes := by
      rw [sizeof, ends]
      exact le_alignUp (largest sizes)

end Members

/-! ### Whole structures -/

def storeAll (fields : List (Member × Nat)) (memory : Nat → Nat) : Nat → Nat :=
  fields.foldl (fun memory field => field.1.store field.2 memory) memory

def loadAll (fields : List Member) (memory : Nat → Nat) : List Nat :=
  fields.map (·.load memory)

section Structures
variable {fields : List (Member × Nat)} {memory : Nat → Nat}

theorem storeAll_outside {key : Nat} (outside : ∀ field ∈ fields, ¬ field.1.Holds key) :
    storeAll fields memory key = memory key := by
  induction fields generalizing memory with
  | nil => rfl
  | cons field fields ih =>
    have others : ∀ other ∈ fields, ¬ other.1.Holds key := fun other inside =>
      outside other (by simp [inside])
    rw [storeAll, List.foldl_cons, ← storeAll, ih others, Member.store,
      if_neg (outside field (by simp))]

/-- What is stored into the members of a structure is loaded from them again. -/
theorem loadAll_storeAll (ordered : (fields.map Prod.fst).Pairwise Member.Before)
    (fits : ∀ field ∈ fields, field.2 < 256 ^ field.1.size) :
    loadAll (fields.map Prod.fst) (storeAll fields memory) = fields.map Prod.snd := by
  induction fields generalizing memory with
  | nil => rfl
  | cons field fields ih =>
    obtain ⟨before, later⟩ := List.pairwise_cons.mp ordered
    have head : field.1.load (storeAll fields (field.1.store field.2 memory)) = field.2 := by
      calc field.1.load (storeAll fields (field.1.store field.2 memory))
          = field.1.load (field.1.store field.2 memory) := by
            apply Member.load_congr
            intro key inside
            apply storeAll_outside
            intro other among held
            have apart := before other.1 (List.mem_map_of_mem among)
            simp only [Member.Holds, Member.Before] at inside held apart
            omega
        _ = field.2 := Member.load_store (fits field (by simp))
    have rest := @ih (field.1.store field.2 memory) later fun other inside =>
      fits other (by simp [inside])
    rw [List.map_cons, List.map_cons, loadAll, List.map_cons, storeAll, List.foldl_cons,
      ← storeAll, head, ← loadAll, rest]

/-- Storing what was loaded from a structure changes nothing. -/
theorem storeAll_loadAll (among : List Member) (bytes : ∀ key, memory key < 256) :
    storeAll (among.map fun member => (member, member.load memory)) memory = memory := by
  induction among with
  | nil => rfl
  | cons member rest ih =>
    rw [List.map_cons, storeAll, List.foldl_cons, Member.store_load bytes]
    exact ih

end Structures

end EchoRobot.Bytes
