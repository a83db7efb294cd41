import Mathlib.Algebra.GroupWithZero.Nat
import Mathlib.Data.List.Basic
import Mathlib.Logic.Function.Basic

/-! A ring of a power-of-two number of slots with two free-running indices. An index is
masked when it is used and wraps at its own width; what the ring holds is read by walking
from the one index to the other. -/

namespace EchoRobot.Rings

universe u

structure Ring (Entry : Type u) (bits width : Nat) where
  slots : Fin (2 ^ bits) → Entry
  inPos : BitVec width
  outPos : BitVec width

variable {Entry : Type u} {bits width : Nat}

def mask (bits width : Nat) : BitVec width := BitVec.ofNat width (2 ^ bits - 1)

theorem and_mask_lt (index : BitVec width) : (index &&& mask bits width).toNat < 2 ^ bits := by
  have masked : (index &&& mask bits width).toNat ≤ 2 ^ bits - 1 := by
    rw [BitVec.toNat_and, mask, BitVec.toNat_ofNat]
    exact Nat.le_trans Nat.and_le_right (Nat.mod_le _ _)
  have positive := Nat.two_pow_pos bits
  omega

/-- The slot that an index stands for. -/
def slot (bits : Nat) (index : BitVec width) : Fin (2 ^ bits) :=
  ⟨(index &&& mask bits width).toNat, and_mask_lt index⟩

namespace Ring

def len (ring : Ring Entry bits width) : BitVec width := ring.inPos - ring.outPos

def isEmpty (ring : Ring Entry bits width) : Bool := ring.inPos == ring.outPos

def isFull (ring : Ring Entry bits width) : Bool := decide (mask bits width < ring.len)

/-- Add an entry, unless the ring is full. -/
def put (ring : Ring Entry bits width) (entry : Entry) : Ring Entry bits width :=
  if ring.isFull then ring else
  { ring with
    slots := Function.update ring.slots (slot bits ring.inPos) entry
    inPos := ring.inPos + 1 }

/-- Take the oldest entry, if there is one. -/
def get (ring : Ring Entry bits width) : Option (Entry × Ring Entry bits width) :=
  if ring.isEmpty then none else
  some (ring.slots (slot bits ring.outPos), { ring with outPos := ring.outPos + 1 })

/-- Give up the oldest entry; whether there is one is not asked. -/
def skip (ring : Ring Entry bits width) : Ring Entry bits width :=
  { ring with outPos := ring.outPos + 1 }

def reset (ring : Ring Entry bits width) : Ring Entry bits width :=
  { ring with inPos := 0, outPos := 0 }

end Ring

/-- The entries of `count` slots from an index on. -/
def walk (slots : Fin (2 ^ bits) → Entry) : Nat → BitVec width → List Entry
  | 0, _ => []
  | count + 1, index => slots (slot bits index) :: walk slots count (index + 1)

/-- The entries of the ring, the oldest first. -/
def Ring.contents (ring : Ring Entry bits width) : List Entry :=
  walk ring.slots ring.len.toNat ring.outPos

section Walk
variable {slots : Fin (2 ^ bits) → Entry} {index : BitVec width} {count : Nat}

theorem toNat_mask (wide : bits ≤ width) : (mask bits width).toNat = 2 ^ bits - 1 := by
  rw [mask, BitVec.toNat_ofNat, Nat.mod_eq_of_lt]
  have positive := Nat.two_pow_pos bits
  have larger : 2 ^ bits ≤ 2 ^ width := Nat.pow_le_pow_right (by omega) wide
  omega

theorem slot_val (wide : bits ≤ width) (index : BitVec width) :
    (slot bits index).val = index.toNat % 2 ^ bits := by
  simp [slot, toNat_mask wide]

theorem add_ofNat_succ (index : BitVec width) (count : Nat) :
    index + 1 + BitVec.ofNat width count = index + BitVec.ofNat width (count + 1) := by
  rw [BitVec.add_assoc, BitVec.ofNat_add, BitVec.add_comm (1 : BitVec width)]
  rfl

/-- Fewer than a round apart, two indices stand for different slots. -/
theorem slot_ne (wide : bits ≤ width) {distance : Nat} (positive : 0 < distance)
    (near : distance < 2 ^ bits) :
    slot bits (index + BitVec.ofNat width distance) ≠ slot bits index := by
  intro same
  have values := congrArg Fin.val same
  rw [slot_val wide, slot_val wide, BitVec.toNat_add, BitVec.toNat_ofNat, Nat.add_mod_mod,
    Nat.mod_mod_of_dvd _ (Nat.pow_dvd_pow 2 wide)] at values
  have zero := Nat.sub_mod_eq_zero_of_mod_eq values
  rw [Nat.add_sub_cancel_left, Nat.mod_eq_of_lt near] at zero
  omega

@[simp] theorem length_walk : (walk slots count index).length = count := by
  induction count generalizing index with
  | zero => rfl
  | succ count ih => simp [walk, ih]

/-- One slot further. -/
theorem walk_succ : walk slots (count + 1) index =
    walk slots count index ++ [slots (slot bits (index + BitVec.ofNat width count))] := by
  induction count generalizing index with
  | zero => simp [walk]
  | succ count ih =>
    rw [walk, ih, walk, List.cons_append, add_ofNat_succ]

/-- A walk depends on the slots that it comes to. -/
theorem walk_congr {other : Fin (2 ^ bits) → Entry}
    (same : ∀ offset < count, slots (slot bits (index + BitVec.ofNat width offset)) =
      other (slot bits (index + BitVec.ofNat width offset))) :
    walk slots count index = walk other count index := by
  induction count generalizing index with
  | zero => rfl
  | succ count ih =>
    have first := same 0 (by omega)
    have later : walk slots count (index + 1) = walk other count (index + 1) := by
      refine ih fun offset inside => ?_
      rw [add_ofNat_succ]
      exact same (offset + 1) (by omega)
    rw [BitVec.add_zero] at first
    rw [walk, walk, first, later]

/-- What is stored behind the slots of a walk does not change it. -/
theorem walk_update (wide : bits ≤ width) (entry : Entry) (room : count < 2 ^ bits) :
    walk (Function.update slots (slot bits (index + BitVec.ofNat width count)) entry) count index =
      walk slots count index := by
  refine walk_congr fun offset inside => Function.update_of_ne (Ne.symm ?_) _ _
  have further : index + BitVec.ofNat width count =
      index + BitVec.ofNat width offset + BitVec.ofNat width (count - offset) := by
    rw [BitVec.add_assoc, ← BitVec.ofNat_add, Nat.add_sub_cancel' (Nat.le_of_lt inside)]
  rw [further]
  exact slot_ne wide (by omega) (by omega)

end Walk

theorem toNat_add_one (index : BitVec width) :
    (index + 1).toNat = (index.toNat + 1) % 2 ^ width := by
  rw [BitVec.toNat_add]
  exact Nat.add_mod_mod _ _ _

/-- An index counts up unless it wraps. -/
theorem toNat_succ {index : BitVec width} (room : index.toNat + 1 < 2 ^ width) :
    (index + 1).toNat = index.toNat + 1 := by
  rw [toNat_add_one, Nat.mod_eq_of_lt room]

theorem toNat_of_succ {index : BitVec width} {count : Nat} (next : (index + 1).toNat = count + 1) :
    index.toNat = count := by
  by_cases room : index.toNat + 1 < 2 ^ width
  · rw [toNat_succ room] at next
    omega
  · have last : index.toNat + 1 = 2 ^ width := by
      have bound := index.isLt
      omega
    rw [toNat_add_one, last, Nat.mod_self] at next
    omega

section Contents
variable {ring : Ring Entry bits width} {entry : Entry} {rest : List Entry}

@[simp] theorem length_contents : ring.contents.length = ring.len.toNat := length_walk

theorem isFull_iff_length (wide : bits ≤ width) :
    ring.isFull = true ↔ 2 ^ bits ≤ ring.contents.length := by
  have positive := Nat.two_pow_pos bits
  rw [Ring.isFull, decide_eq_true_eq, BitVec.lt_def, toNat_mask wide, length_contents]
  omega

theorem isEmpty_iff_contents : ring.isEmpty = true ↔ ring.contents = [] := by
  rw [Ring.isEmpty, beq_iff_eq, ← List.length_eq_zero_iff, length_contents, Ring.len]
  constructor
  · intro same
    rw [same, BitVec.sub_self]
    rfl
  · intro none
    have zero : ring.inPos - ring.outPos = BitVec.ofNat width 0 := BitVec.eq_of_toNat_eq none
    rw [← BitVec.sub_add_cancel ring.inPos ring.outPos, zero, BitVec.zero_add]

/-- The slot behind the last entry is the one at the ingoing index. -/
theorem outPos_add_len : ring.outPos + BitVec.ofNat width ring.len.toNat = ring.inPos := by
  rw [BitVec.ofNat_toNat, BitVec.setWidth_eq, Ring.len, BitVec.add_comm, BitVec.sub_add_cancel]

/-- A ring that is not full holds a new entry behind all others. -/
theorem put_room (wide : bits < width) (room : ring.contents.length < 2 ^ bits) :
    (ring.put entry).contents = ring.contents ++ [entry] := by
  have accepts : ¬ ring.isFull = true := by
    rw [isFull_iff_length (Nat.le_of_lt wide)]
    omega
  rw [length_contents] at room
  have larger : 2 ^ bits < 2 ^ width := Nat.pow_lt_pow_right (by omega) wide
  have longer : (ring.inPos + 1 - ring.outPos).toNat = ring.len.toNat + 1 := by
    have step : ring.inPos + 1 - ring.outPos = ring.len + 1 := by
      rw [Ring.len]
      grind
    rw [step, toNat_succ (by omega)]
  have kept := @walk_update Entry bits width ring.slots ring.outPos _ (Nat.le_of_lt wide) entry room
  rw [outPos_add_len] at kept
  rw [Ring.put, if_neg accepts, Ring.contents, Ring.len]
  dsimp only
  rw [longer, walk_succ, outPos_add_len, Function.update_self, kept, Ring.contents]

theorem skip_contents (held : ring.contents = entry :: rest) : ring.skip.contents = rest := by
  have length : ring.len.toNat = rest.length + 1 := by
    rw [← length_contents, held, List.length_cons]
  have shorter : (ring.inPos - (ring.outPos + 1)).toNat = rest.length := by
    refine toNat_of_succ ?_
    have step : ring.inPos - (ring.outPos + 1) + 1 = ring.len := by
      rw [Ring.len]
      grind
    rw [step, length]
  rw [Ring.contents, length, walk] at held
  rw [Ring.contents, Ring.skip, Ring.len]
  dsimp only
  rw [shorter]
  exact (List.cons.inj held).2

/-- The entry taken is the oldest one. -/
theorem get_contents (held : ring.contents = entry :: rest) :
    ring.get = some (entry, ring.skip) := by
  have inhabited : ¬ ring.isEmpty = true := by simp [isEmpty_iff_contents, held]
  have length : ring.len.toNat = rest.length + 1 := by
    rw [← length_contents, held, List.length_cons]
  rw [Ring.contents, length, walk] at held
  rw [Ring.get, if_neg inhabited, (List.cons.inj held).1]
  rfl

@[simp] theorem reset_contents : ring.reset.contents = [] := by
  rw [← List.length_eq_zero_iff, length_contents, Ring.len, Ring.reset, BitVec.sub_self]
  rfl

end Contents

end EchoRobot.Rings
