import EchoRobot.Model.Servo

/-! The contexts of the subsystems and the coordinator that holds them. -/

namespace EchoRobot

/-- The recording, the replay work item's pending mark, and the counters. -/
structure EchoBufferCtx where
  moveFifo : List EchoMove
  replayPending : Bool
  replaySpeed : Nat
  replayCount : Nat

/-- `timerPending` is the activation of the inactivity timer; times are in
nanoseconds of the monotonic clock. -/
structure EchoStateCtx where
  mode : EchoMode
  timerPending : Bool
  lastMoveTime : Nat
  totalMoves : Nat

structure EchoDevice where
  servo : EchoServoCtx
  buffer : EchoBufferCtx
  state : EchoStateCtx
  irqCount : Nat
  newDataAvail : Bool
  replayFinished : Bool

/-- The oldest entry makes room in a full fifo, whatever the entries are. -/
def echoBufferRecord {Move : Type} (fifo : List Move) (move : Move) : List Move :=
  (if echoFifoSize ≤ fifo.length then fifo.drop 1 else fifo) ++ [move]

theorem map_echoBufferRecord {Move Other : Type} (f : Move → Other) (fifo : List Move)
    (move : Move) :
    (echoBufferRecord fifo move).map f = echoBufferRecord (fifo.map f) (f move) := by
  unfold echoBufferRecord
  rw [List.length_map]
  split <;> simp

/-- The drain loop of the replay worker: the entries it takes. -/
def replaySnapshot (fifo : List EchoMove) : List EchoMove :=
  fifo.take (min fifo.length echoFifoSize)

/-- The recording after the drained entries were put back. -/
def replayRefill (fifo : List EchoMove) : List EchoMove :=
  fifo.drop (min fifo.length echoFifoSize) ++ replaySnapshot fifo

theorem length_replayRefill (fifo : List EchoMove) :
    (replayRefill fifo).length = fifo.length := by
  simp [replayRefill, replaySnapshot]

/-- A recording within the capacity survives the drain and refill. -/
theorem replayRefill_eq (fifo : List EchoMove) (fits : fifo.length ≤ echoFifoSize) :
    replayRefill fifo = fifo := by
  simp [replayRefill, replaySnapshot, Nat.min_eq_left fits]

theorem mem_of_mem_replaySnapshot {fifo : List EchoMove} {move : EchoMove}
    (member : move ∈ replaySnapshot fifo) : move ∈ fifo :=
  List.mem_of_mem_take member

theorem mem_of_mem_replayRefill {fifo : List EchoMove} {move : EchoMove}
    (member : move ∈ replayRefill fifo) : move ∈ fifo := by
  rcases List.mem_append.mp member with later | taken
  · exact List.mem_of_mem_drop later
  · exact mem_of_mem_replaySnapshot taken

theorem mem_of_mem_echoBufferRecord {fifo : List EchoMove} {move new : EchoMove}
    (member : move ∈ echoBufferRecord fifo new) : move ∈ fifo ∨ move = new := by
  rcases List.mem_append.mp member with kept | last
  · left
    split at kept
    · exact List.mem_of_mem_drop kept
    · exact kept
  · exact Or.inr (List.mem_singleton.mp last)

/-- A recording grows up to its capacity. -/
theorem length_echoBufferRecord {Move : Type} (fifo : List Move) (move : Move)
    (fits : fifo.length ≤ echoFifoSize) :
    (echoBufferRecord fifo move).length = min echoFifoSize (fifo.length + 1) := by
  unfold echoBufferRecord
  split
  · simp only [List.length_append, List.length_drop, List.length_singleton]
    unfold echoFifoSize at *
    omega
  · simp only [List.length_append, List.length_singleton]
    omega

theorem length_echoBufferRecord_le (fifo : List EchoMove) (move : EchoMove)
    (fits : fifo.length ≤ echoFifoSize) :
    (echoBufferRecord fifo move).length ≤ echoFifoSize := by
  rw [length_echoBufferRecord fifo move fits]
  exact Nat.min_le_left _ _

/-- The clamp of a joystick step. -/
def clampAngle (curAngle : Nat) (delta : Int) : Nat :=
  let tmp := (curAngle : Int) + delta
  let tmp := if tmp < echoServoMin then (echoServoMin : Int) else tmp
  let tmp := if tmp > echoServoMax then (echoServoMax : Int) else tmp
  tmp.toNat

theorem clampAngle_le (curAngle : Nat) (delta : Int) :
    clampAngle curAngle delta ≤ echoServoMax := by
  unfold clampAngle echoServoMin echoServoMax
  dsimp only
  split <;> omega

/-- Milliseconds from `earlier` to `later`, truncated towards zero. -/
def ktimeMsDelta (later earlier : Nat) : Int :=
  Int.tdiv ((later : Int) - earlier) 1000000

def toU32 (value : Int) : Nat := (value % u32Size).toNat

theorem toU32_of_lt {value : Nat} (small : value < u32Size) : toU32 (value : Int) = value := by
  unfold toU32 u32Size at *
  omega

theorem ktimeMsDelta_of_le {later earlier : Nat} (ordered : earlier ≤ later) :
    ktimeMsDelta later earlier = ((later - earlier) / 1000000 : Nat) := by
  unfold ktimeMsDelta
  rw [← Int.ofNat_sub ordered]
  rfl

end EchoRobot
