import EchoRobot.Model.Device
import EchoRobot.Logs.Window
import EchoRobot.Rings.Ring
import Mathlib.Data.List.Induction

/-! The recording as a `kfifo`, and the sections under `fifo_lock` as the `kfifo` calls
that they make one after the other. -/

namespace EchoRobot

open Logs Rings

/-- `DECLARE_KFIFO(move_fifo, struct echo_move, ECHO_FIFO_SIZE)`. -/
abbrev MoveFifo := Ring EchoMove 8 32

/-- One `kfifo` call. `get` and `putBack` move an entry between the ring and the array of
the replay worker. -/
inductive FifoCall where
  | skip
  | put (move : EchoMove)
  | get (index : Nat)
  | putBack (index : Nat)
  | reset

def FifoCall.isGet : FifoCall → Bool
  | .get _ => true
  | _ => false

/-- The ring, the array of the replay worker, and the calls that are left of the section
under the lock. -/
structure Buffer where
  ring : MoveFifo
  moves : Nat → EchoMove
  code : List FifoCall

/-- The sections under the lock; the worker's array is as it was allocated. -/
inductive BufferOp where
  | record (move : EchoMove)
  | clear
  | snapshot (allocated : Nat → EchoMove)

/-- `echo_buffer_count`, which takes no lock. -/
def Buffer.count (buffer : Buffer) : BitVec 32 := buffer.ring.len

/-- The number of entries that the worker drains. -/
def Buffer.drained (buffer : Buffer) : Nat := min buffer.count.toNat echoFifoSize

/-- Take the lock. -/
def Buffer.enter (buffer : Buffer) : BufferOp → Buffer
  | .record move =>
    { buffer with code := (if buffer.ring.isFull then [.skip] else []) ++ [.put move] }
  | .clear => { buffer with code := [.reset] }
  | .snapshot allocated =>
    { buffer with
      moves := allocated
      code := (List.range buffer.drained).map .get ++ (List.range buffer.drained).map .putBack }

/-- Make the next call; the drain loop breaks off when there is nothing to take. -/
def Buffer.next (buffer : Buffer) : Buffer :=
  match buffer.code with
  | [] => buffer
  | .skip :: rest => { buffer with ring := buffer.ring.skip, code := rest }
  | .put move :: rest => { buffer with ring := buffer.ring.put move, code := rest }
  | .get index :: rest =>
    match buffer.ring.get with
    | some (move, ring) => ⟨ring, Function.update buffer.moves index move, rest⟩
    | none => { buffer with code := rest.dropWhile FifoCall.isGet }
  | .putBack index :: rest =>
    { buffer with ring := buffer.ring.put (buffer.moves index), code := rest }
  | .reset :: rest => { buffer with ring := buffer.ring.reset, code := rest }

/-- After so many calls of a section. -/
def Buffer.after (buffer : Buffer) (op : BufferOp) (calls : Nat) : Buffer :=
  Buffer.next^[calls] (buffer.enter op)

/-- A whole section, which the lock makes one step. -/
def Buffer.perform (buffer : Buffer) (op : BufferOp) : Buffer :=
  buffer.after op (buffer.enter op).code.length

/-- A ring without entries, wherever its indices stand. -/
def Buffer.empty (slots : Fin (2 ^ 8) → EchoMove) (index : BitVec 32) (moves : Nat → EchoMove) :
    Buffer :=
  ⟨⟨slots, index, index⟩, moves, []⟩

section Calls
variable {buffer : Buffer} {rest : List FifoCall} {move : EchoMove} {held : List EchoMove}

theorem next_get {index : Nat} (code : buffer.code = .get index :: rest)
    (contents : buffer.ring.contents = move :: held) :
    buffer.next.ring.contents = held ∧ buffer.next.code = rest ∧
      buffer.next.moves = Function.update buffer.moves index move := by
  have next : buffer.next = ⟨buffer.ring.skip, Function.update buffer.moves index move, rest⟩ := by
    simp [Buffer.next, code, get_contents contents]
  rw [next]
  exact ⟨skip_contents contents, rfl, rfl⟩

theorem next_putBack {index : Nat} (code : buffer.code = .putBack index :: rest)
    (room : buffer.ring.contents.length < echoFifoSize) :
    buffer.next.ring.contents = buffer.ring.contents ++ [buffer.moves index] ∧
      buffer.next.code = rest ∧ buffer.next.moves = buffer.moves := by
  have next : buffer.next =
      ⟨buffer.ring.put (buffer.moves index), buffer.moves, rest⟩ := by
    simp [Buffer.next, code]
  rw [next]
  exact ⟨put_room (by decide) room, rfl, rfl⟩

/-- The drain loop after so many iterations. -/
theorem drained_after {calls : Nat}
    (code : buffer.code = (List.range buffer.ring.contents.length).map .get ++ rest)
    (within : calls ≤ buffer.ring.contents.length) :
    let drained := Buffer.next^[calls] buffer
    drained.ring.contents = buffer.ring.contents.drop calls ∧
      drained.code = (List.range' calls (buffer.ring.contents.length - calls)).map .get ++ rest ∧
      ∀ index < calls, buffer.ring.contents[index]? = some (drained.moves index) := by
  induction calls with
  | zero => simp [code, List.range_eq_range']
  | succ calls ih =>
    obtain ⟨contents, left, moves⟩ := ih (by omega)
    rw [Function.iterate_succ_apply']
    generalize Buffer.next^[calls] buffer = drained at contents left moves
    have more : buffer.ring.contents.length - calls =
        buffer.ring.contents.length - (calls + 1) + 1 := by omega
    rw [more, List.range'_succ, List.map_cons, List.cons_append] at left
    rw [List.drop_eq_getElem_cons (by omega)] at contents
    obtain ⟨contents', left', moves'⟩ := next_get left contents
    refine ⟨contents', left', fun index inside => ?_⟩
    rw [moves']
    by_cases last : index = calls
    · subst last
      simp
    · rw [Function.update_of_ne last]
      exact moves index (by omega)

/-- The refill loop after so many iterations, which puts back what was drained. -/
theorem refilled_after {calls : Nat} (code : buffer.code = (List.range held.length).map .putBack)
    (fits : held.length ≤ echoFifoSize) (nothing : buffer.ring.contents = [])
    (moves : ∀ index < held.length, held[index]? = some (buffer.moves index))
    (within : calls ≤ held.length) :
    let refilled := Buffer.next^[calls] buffer
    refilled.ring.contents = held.take calls ∧
      refilled.code = (List.range' calls (held.length - calls)).map .putBack ∧
      refilled.moves = buffer.moves := by
  induction calls with
  | zero => simp [code, nothing, List.range_eq_range']
  | succ calls ih =>
    obtain ⟨contents, left, kept⟩ := ih (by omega)
    rw [Function.iterate_succ_apply']
    generalize Buffer.next^[calls] buffer = refilled at contents left kept
    have more : held.length - calls = held.length - (calls + 1) + 1 := by omega
    rw [more, List.range'_succ, List.map_cons] at left
    have room : refilled.ring.contents.length < echoFifoSize := by
      rw [contents, List.length_take]
      omega
    obtain ⟨contents', left', kept'⟩ := next_putBack left room
    refine ⟨?_, left', kept'.trans kept⟩
    rw [contents', contents, List.take_add_one, moves calls (by omega), kept]
    rfl

end Calls

section Sections
variable {buffer : Buffer} {allocated : Nat → EchoMove}

/-- A recording into a ring with room is one call. -/
theorem enter_record_room (move : EchoMove) (room : buffer.ring.contents.length < echoFifoSize) :
    (buffer.enter (.record move)).code = [.put move] := by
  have accepts : buffer.ring.isFull = false := by
    rw [← Bool.not_eq_true, isFull_iff_length (by decide)]
    exact Nat.not_le.mpr room
  simp [Buffer.enter, accepts]

theorem enter_record_full (move : EchoMove) (full : echoFifoSize ≤ buffer.ring.contents.length) :
    (buffer.enter (.record move)).code = [.skip, .put move] := by
  have refuses : buffer.ring.isFull = true := (isFull_iff_length (by decide)).mpr full
  simp [Buffer.enter, refuses]

/-- A recording into a full ring gives up the oldest entry first. -/
theorem skipped_after {move oldest : EchoMove} {held : List EchoMove}
    (full : echoFifoSize ≤ buffer.ring.contents.length)
    (contents : buffer.ring.contents = oldest :: held) :
    (buffer.after (.record move) 1).ring.contents = held := by
  have code := enter_record_full move full
  have skipped : (buffer.after (.record move) 1).ring = buffer.ring.skip := by
    simp only [Buffer.after, Function.iterate_one, Buffer.next, code]
    rfl
  rw [skipped, skip_contents contents]

theorem perform_record (move : EchoMove) (fits : buffer.ring.contents.length ≤ echoFifoSize) :
    (buffer.perform (.record move)).ring.contents = echoBufferRecord buffer.ring.contents move := by
  by_cases room : buffer.ring.contents.length < echoFifoSize
  · have code := enter_record_room move room
    have put : (buffer.perform (.record move)).ring = buffer.ring.put move := by
      simp only [Buffer.perform, Buffer.after, code, List.length_singleton, Function.iterate_one,
        Buffer.next]
      rfl
    rw [put, put_room (by decide) room, echoBufferRecord, if_neg (Nat.not_le.mpr room)]
  · have full := Nat.not_lt.mp room
    have code := enter_record_full move full
    obtain ⟨oldest, held, contents⟩ := List.exists_cons_of_length_pos
      (Nat.lt_of_lt_of_le (by decide : 0 < echoFifoSize) full)
    have put : (buffer.perform (.record move)).ring = buffer.ring.skip.put move := by
      simp only [Buffer.perform, Buffer.after, code, List.length_cons, List.length_nil,
        Function.iterate_succ, Function.iterate_zero, Function.comp_apply, id_eq, Buffer.next]
      rfl
    have shorter : buffer.ring.skip.contents = held := skip_contents contents
    rw [contents, List.length_cons] at fits
    rw [put, put_room (by decide) (by rw [shorter]; exact fits), shorter, echoBufferRecord,
      if_pos full, contents]
    rfl

theorem perform_clear : (buffer.perform .clear).ring.contents = [] := by
  have reset : (buffer.perform .clear).ring = buffer.ring.reset := rfl
  rw [reset, reset_contents]

/-- The worker drains what there is. -/
theorem drained_eq (fits : buffer.ring.contents.length ≤ echoFifoSize) :
    buffer.drained = buffer.ring.contents.length := by
  rw [Buffer.drained, Buffer.count, ← length_contents]
  exact Nat.min_eq_left fits

/-- The snapshot while it drains. -/
theorem snapshot_draining {calls : Nat} (fits : buffer.ring.contents.length ≤ echoFifoSize)
    (within : calls ≤ buffer.ring.contents.length) :
    (buffer.after (.snapshot allocated) calls).ring.contents = buffer.ring.contents.drop calls := by
  have code : (buffer.enter (.snapshot allocated)).code =
      (List.range buffer.ring.contents.length).map .get ++
        (List.range buffer.ring.contents.length).map .putBack := by
    simp [Buffer.enter, drained_eq fits]
  exact (drained_after code within).1

/-- The snapshot while it refills the ring, its array holding all that was in it. -/
theorem snapshot_refilling (allocated : Nat → EchoMove) {calls : Nat}
    (fits : buffer.ring.contents.length ≤ echoFifoSize)
    (within : calls ≤ buffer.ring.contents.length) :
    let refilling := buffer.after (.snapshot allocated) (buffer.ring.contents.length + calls)
    refilling.ring.contents = buffer.ring.contents.take calls ∧
      ∀ index < buffer.ring.contents.length,
        buffer.ring.contents[index]? = some (refilling.moves index) := by
  have code : (buffer.enter (.snapshot allocated)).code =
      (List.range buffer.ring.contents.length).map .get ++
        (List.range buffer.ring.contents.length).map .putBack := by
    simp [Buffer.enter, drained_eq fits]
  obtain ⟨nothing, left, moves⟩ := drained_after code (Nat.le_refl _)
  have same : (buffer.enter (.snapshot allocated)).ring = buffer.ring := rfl
  rw [same] at nothing left moves
  rw [Nat.sub_self, List.range'_zero, List.map_nil, List.nil_append] at left
  rw [List.drop_length] at nothing
  obtain ⟨contents, -, kept⟩ := refilled_after left fits nothing moves within
  dsimp only [Buffer.after]
  rw [Nat.add_comm, Function.iterate_add_apply]
  exact ⟨contents, kept ▸ moves⟩

/-- A snapshot leaves the recording, and its array holds it. -/
theorem perform_snapshot (fits : buffer.ring.contents.length ≤ echoFifoSize) :
    let performed := buffer.perform (.snapshot allocated)
    performed.ring.contents = buffer.ring.contents ∧
      ∀ index < buffer.ring.contents.length,
        buffer.ring.contents[index]? = some (performed.moves index) := by
  have calls : (buffer.enter (.snapshot allocated)).code.length =
      buffer.ring.contents.length + buffer.ring.contents.length := by
    simp [Buffer.enter, drained_eq fits]
  have refilled := snapshot_refilling allocated fits (Nat.le_refl _)
  rw [List.take_length] at refilled
  rw [Buffer.perform, calls]
  exact refilled

end Sections

/-- No section overfills the ring. -/
theorem length_perform_le {buffer : Buffer} (op : BufferOp)
    (fits : buffer.ring.contents.length ≤ echoFifoSize) :
    (buffer.perform op).ring.contents.length ≤ echoFifoSize := by
  cases op with
  | record move =>
    rw [perform_record move fits]
    exact length_echoBufferRecord_le _ _ fits
  | clear =>
    rw [perform_clear]
    exact Nat.zero_le _
  | snapshot allocated => rwa [(perform_snapshot fits).1]

theorem length_foldl_le {buffer : Buffer} (ops : List BufferOp)
    (fits : buffer.ring.contents.length ≤ echoFifoSize) :
    (ops.foldl Buffer.perform buffer).ring.contents.length ≤ echoFifoSize := by
  induction ops generalizing buffer with
  | nil => exact fits
  | cons op ops ih => exact ih (length_perform_le op fits)

/-- The moves recorded since the last clear. -/
def BufferOp.recorded (moves : List EchoMove) : BufferOp → List EchoMove
  | .record move => moves ++ [move]
  | .clear => []
  | .snapshot _ => moves

def recordedMoves (ops : List BufferOp) : List EchoMove := ops.foldl BufferOp.recorded []

/-- One section keeps the queue a window of what was recorded. -/
theorem window_perform {buffer : Buffer} {moves : List EchoMove} (op : BufferOp)
    (held : buffer.ring.contents = window echoFifoSize moves) :
    (buffer.perform op).ring.contents = window echoFifoSize (BufferOp.recorded moves op) := by
  have fits : buffer.ring.contents.length ≤ echoFifoSize := by
    rw [held, length_window]
    exact Nat.min_le_right _ _
  cases op with
  | record move =>
    rw [perform_record move fits, held, BufferOp.recorded, window_snoc (by decide),
      echoBufferRecord]
  | clear => rw [perform_clear, BufferOp.recorded, window_of_le (Nat.zero_le _)]
  | snapshot allocated => rw [(perform_snapshot fits).1, held, BufferOp.recorded]

@[simp] theorem contents_empty (slots : Fin (2 ^ 8) → EchoMove) (index : BitVec 32)
    (moves : Nat → EchoMove) : (Buffer.empty slots index moves).ring.contents = [] := by
  rw [← isEmpty_iff_contents]
  simp [Buffer.empty, Ring.isEmpty]

/-- The queue holds the last moves recorded since it was cleared, in their order, as many as
it has room for. -/
theorem recording_is_window (slots : Fin (2 ^ 8) → EchoMove) (index : BitVec 32)
    (moves : Nat → EchoMove) (ops : List BufferOp) :
    (ops.foldl Buffer.perform (.empty slots index moves)).ring.contents =
      window echoFifoSize (recordedMoves ops) := by
  induction ops using List.reverseRecOn with
  | nil => exact (contents_empty slots index moves).trans (window_of_le (Nat.zero_le _)).symm
  | append_singleton ops op ih =>
    rw [recordedMoves, List.foldl_append, List.foldl_append]
    exact window_perform op ih

end EchoRobot
