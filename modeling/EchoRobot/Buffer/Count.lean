import EchoRobot.Buffer.Fifo

/-! The count that readers see. It is read without the lock, so it is the length of the
ring after any call of the section in progress. -/

namespace EchoRobot

open Logs Rings

/-- Sections during which the count does not show that they are in progress. -/
def BufferOp.Quiet (buffer : Buffer) : BufferOp → Prop
  | .record _ => buffer.ring.isFull = false
  | .clear => True
  | .snapshot _ => buffer.ring.isEmpty = true

/-- Every count read during the section is the one before or the one after it. -/
def CountSteady (buffer : Buffer) (op : BufferOp) : Prop :=
  ∀ calls, (buffer.after op calls).count = buffer.count ∨
    (buffer.after op calls).count = (buffer.perform op).count

section Count
variable {buffer : Buffer} {op : BufferOp}

theorem toNat_count : buffer.count.toNat = buffer.ring.contents.length := length_contents.symm

/-- A call is made or, at the end of the drain loop, passed over. -/
theorem length_next : buffer.next.code.length ≤ buffer.code.length - 1 := by
  cases code : buffer.code with
  | nil => simp [Buffer.next, code]
  | cons call rest =>
    cases call with
    | get index =>
      cases got : buffer.ring.get with
      | some taken => simp [Buffer.next, code, got]
      | none =>
        have shorter := (List.dropWhile_suffix (l := rest) FifoCall.isGet).length_le
        simpa [Buffer.next, code, got] using shorter
    | _ => simp [Buffer.next, code]

theorem length_iterate (calls : Nat) :
    (Buffer.next^[calls] buffer).code.length ≤ buffer.code.length - calls := by
  induction calls with
  | zero => exact Nat.le_refl _
  | succ calls ih =>
    rw [Function.iterate_succ_apply']
    have shorter := @length_next (Buffer.next^[calls] buffer)
    omega

/-- Nothing happens behind the last call of a section. -/
theorem after_of_le {calls : Nat} (beyond : (buffer.enter op).code.length ≤ calls) :
    buffer.after op calls = buffer.perform op := by
  have done : (buffer.perform op).code = [] := by
    have none := @length_iterate (buffer.enter op) (buffer.enter op).code.length
    rw [Nat.sub_self] at none
    exact List.length_eq_zero_iff.mp (Nat.le_zero.mp none)
  have still : (buffer.perform op).next = buffer.perform op := by
    simp [Buffer.next, done]
  obtain ⟨extra, rfl⟩ := Nat.exists_eq_add_of_le' beyond
  rw [Buffer.after, Function.iterate_add_apply]
  exact Function.iterate_fixed still extra

/-- A section of one call, or of none, shows nothing in between. -/
theorem steady_of_short (short : (buffer.enter op).code.length ≤ 1) : CountSteady buffer op := by
  intro calls
  cases calls with
  | zero =>
    left
    cases op <;> rfl
  | succ calls =>
    right
    rw [after_of_le (by omega)]

theorem steady_record_iff (move : EchoMove) (fits : buffer.ring.contents.length ≤ echoFifoSize) :
    CountSteady buffer (.record move) ↔ buffer.ring.isFull = false := by
  constructor
  · intro steady
    by_contra refuses
    have full : echoFifoSize ≤ buffer.ring.contents.length :=
      (isFull_iff_length (by decide : 8 ≤ 32)).mp (by simpa using refuses)
    obtain ⟨oldest, held, contents⟩ := List.exists_cons_of_length_pos
      (Nat.lt_of_lt_of_le (by decide : 0 < echoFifoSize) full)
    have between : (buffer.after (.record move) 1).count.toNat + 1 =
        buffer.ring.contents.length := by
      rw [toNat_count, skipped_after full contents, contents, List.length_cons]
    have whole : (buffer.perform (.record move)).count.toNat = echoFifoSize := by
      rw [toNat_count, perform_record move fits, length_echoBufferRecord _ _ fits]
      omega
    rcases steady 1 with same | same
    · rw [same, toNat_count] at between
      omega
    · rw [same, whole] at between
      omega
  · intro accepts
    refine steady_of_short ?_
    simp [Buffer.enter, accepts]

theorem steady_snapshot_iff (allocated : Nat → EchoMove)
    (fits : buffer.ring.contents.length ≤ echoFifoSize) :
    CountSteady buffer (.snapshot allocated) ↔ buffer.ring.isEmpty = true := by
  rw [isEmpty_iff_contents]
  constructor
  · intro steady
    by_contra inhabited
    have positive := List.length_pos_iff.mpr inhabited
    have between : (buffer.after (.snapshot allocated) 1).count.toNat + 1 =
        buffer.ring.contents.length := by
      rw [toNat_count, snapshot_draining fits positive, List.length_drop]
      omega
    have after : (buffer.perform (.snapshot allocated)).count.toNat =
        buffer.ring.contents.length := by
      rw [toNat_count, (perform_snapshot fits).1]
    rcases steady 1 with same | same
    · rw [same, toNat_count] at between
      omega
    · rw [same, after] at between
      omega
  · intro empty
    refine steady_of_short ?_
    simp [Buffer.enter, drained_eq fits, empty]

end Count

/-- After any recording, the count is steady during a section if and only if the section
clears the recording, adds to one that is not full, or takes a snapshot of an empty one. -/
theorem count_steady_iff (slots : Fin (2 ^ 8) → EchoMove) (index : BitVec 32)
    (moves : Nat → EchoMove) (ops : List BufferOp) (op : BufferOp) :
    CountSteady (ops.foldl Buffer.perform (.empty slots index moves)) op ↔
      op.Quiet (ops.foldl Buffer.perform (.empty slots index moves)) := by
  have fits : (ops.foldl Buffer.perform (.empty slots index moves)).ring.contents.length ≤
      echoFifoSize := length_foldl_le ops (by simp)
  cases op with
  | record move => exact steady_record_iff move fits
  | clear => exact iff_of_true (steady_of_short (Nat.le_refl 1)) trivial
  | snapshot allocated => exact steady_snapshot_iff allocated fits

/-- A snapshot of one move, at whose only drained entry the count is zero. -/
theorem count_unsteady : ∃ buffer op,
    buffer = Buffer.perform (.empty (fun _ => ⟨0, 0, 0⟩) 0 fun _ => ⟨0, 0, 0⟩)
      (.record ⟨1, 45, 20⟩) ∧ op = .snapshot (fun _ => ⟨0, 0, 0⟩) ∧
    buffer.count = 1 ∧ (buffer.perform op).count = 1 ∧ (buffer.after op 1).count = 0 ∧
    ¬ CountSteady buffer op := by
  refine ⟨_, _, rfl, rfl, by decide, by decide, by decide, fun steady => ?_⟩
  have shown := steady 1
  revert shown
  decide

end EchoRobot
