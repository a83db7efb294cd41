import EchoRobot.Buffer.Fifo
import EchoRobot.Model.Step

/-! The driver's recording as a list is what its ring holds: each step that touches the
recording is one section under the lock. -/

namespace EchoRobot

open Interleaving

/-- The section that an action performs. -/
def State.bufferOp? (state : State) (action : Action) : Option BufferOp :=
  match action, state.instr? action with
  | .step tid _, some (.recordMove servoId) =>
    some (.record ⟨servoId, (state.thread tid).newAngle, (state.thread tid).delayMs⟩)
  | .step _ _, some .clearBuffer => some .clear
  | .step _ env, some .snapshot =>
    if env.allocated then some (.snapshot fun _ => ⟨0, 0, 0⟩) else none
  | _, _ => none

def Buffer.update (buffer : Buffer) (state : State) (action : Action) (_ : State) : Buffer :=
  (state.bufferOp? action).elim buffer buffer.perform

abbrev nextBuffer := withHistory next Buffer.update

/-- The ring holds the recording, which is within its capacity. -/
structure Holds (pair : State × Buffer) : Prop where
  contents : pair.2.ring.contents = pair.1.dev.buffer.moveFifo
  fits : pair.1.dev.buffer.moveFifo.length ≤ echoFifoSize

section Step
variable {state after : State} {buffer : Buffer} {action : Action}

/-- A section does to the ring what the step does to the list. -/
theorem holds_perform {op : BufferOp} (holds : Holds (state, buffer))
    (performs : state.bufferOp? action = some op) (moved : next state action = some after) :
    Holds (after, buffer.perform op) := by
  obtain ⟨contents, fits⟩ := holds
  dsimp only at contents fits
  have within : buffer.ring.contents.length ≤ echoFifoSize := contents ▸ fits
  unfold State.bufferOp? at performs
  split at performs
  · rename_i tid env servoId head
    cases performs
    obtain ⟨_, _, rest, done, same, code, taken, rfl⟩ := next_instr head moved
    cases same
    cases taken
    refine ⟨?_, length_echoBufferRecord_le _ _ fits⟩
    rw [perform_record _ within, contents]
    rfl
  · rename_i tid env head
    cases performs
    obtain ⟨_, _, rest, done, same, code, taken, rfl⟩ := next_instr head moved
    cases taken
    exact ⟨perform_clear, Nat.zero_le _⟩
  · rename_i tid env head
    obtain ⟨_, _, rest, done, same, code, taken, rfl⟩ := next_instr head moved
    cases same
    split at performs <;> cases performs
    rename_i allocated
    simp only [exec, allocated, ↓reduceIte] at taken
    cases taken
    refine ⟨?_, ?_⟩
    · rw [(perform_snapshot within).1, contents]
      exact (replayRefill_eq _ fits).symm
    · exact (length_replayRefill _).trans_le fits
  · cases performs

/-- Without a section the recording stays. -/
theorem fifo_of_none (idle : state.bufferOp? action = none)
    (moved : next state action = some after) :
    after.dev.buffer.moveFifo = state.dev.buffer.moveFifo := by
  rcases next_device moved with ⟨tid, env, instr, rest, done, rfl, code, taken, rfl⟩ | frame
  · cases instr with
    | recordMove servoId => simp [State.bufferOp?, instr?_step code] at idle
    | clearBuffer => simp [State.bufferOp?, instr?_step code] at idle
    | snapshot =>
      simp only [exec] at taken
      split at taken <;> cases taken
      · rename_i allocated
        simp [State.bufferOp?, instr?_step code, allocated] at idle
      · rfl
    | _ => exact (exec_frame taken).fifo (by simp [Instr.writes])
  · exact frame.fifo (by simp)

theorem holds_next (holds : Holds (state, buffer)) (moved : next state action = some after) :
    Holds (after, buffer.update state action after) := by
  unfold Buffer.update
  cases performs : state.bufferOp? action with
  | some op => exact holds_perform holds performs moved
  | none =>
    have same := fifo_of_none performs moved
    exact ⟨holds.contents.trans same.symm, same ▸ holds.fits⟩

end Step

/-- In every run of the driver the ring holds the recording. -/
theorem holds_of_run {servo : EchoServoCtx} {clock : Nat} {slots : Fin (2 ^ 8) → EchoMove}
    {index : BitVec 32} {moves : Nat → EchoMove} {actions : List Action} {pair : State × Buffer}
    (run : Run nextBuffer anyStep (State.initial servo clock, .empty slots index moves)
      actions pair) : Holds pair := by
  refine run.invariant Holds ⟨contents_empty slots index moves, Nat.zero_le _⟩ ?_
  rintro - before action after - holds - both
  obtain ⟨reached, moved, rfl⟩ := withHistory_next both
  exact holds_next holds moved

end EchoRobot
