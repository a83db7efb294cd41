import EchoRobot.Bytes.Layout
import EchoRobot.Lifecycle.WellFormed
import EchoRobot.Read.Image
import EchoRobot.Read.Reader

/-! What user space makes of the bytes of a snapshot. The structure is declared once for
both sides; the driver copies a part of it, and the fields in that part are the driver's. -/

namespace EchoRobot

open Interleaving Bytes

/-- `struct echo_snapshot`: the mode, three `__u16` angles and four counters. -/
def echoSnapshotSizes : List Nat := [4, 2, 2, 2, 4, 4, 4, 4]

def EchoSnapshot.fields (snap : EchoSnapshot) : List Nat :=
  [snap.mode, snap.panAngle, snap.tiltAngle, snap.tilt2Angle, snap.bufferCount,
    snap.totalMoves, snap.totalReplays, snap.irqCount]

def EchoSnapshot.ofFields : List Nat → Option EchoSnapshot
  | [mode, panAngle, tiltAngle, tilt2Angle, bufferCount, totalMoves, totalReplays, irqCount] =>
    some ⟨mode, panAngle, tiltAngle, tilt2Angle, bufferCount, totalMoves, totalReplays, irqCount⟩
  | _ => none

def EchoSnapshot.members (snap : EchoSnapshot) : List (Member × Nat) :=
  (Bytes.members echoSnapshotSizes).zip snap.fields

/-- The snapshot that user space finds in its memory. -/
def EchoSnapshot.load (memory : Nat → Nat) : Option EchoSnapshot :=
  ofFields (loadAll (Bytes.members echoSnapshotSizes) memory)

/-- Every value fits its field. -/
def EchoSnapshot.Fits (snap : EchoSnapshot) : Prop :=
  ∀ field ∈ snap.members, field.2 < 256 ^ field.1.size

example : sizeof echoSnapshotSizes = sizeofEchoSnapshot := rfl

section Members
variable {snap : EchoSnapshot} {field : Member × Nat} {key : Nat}

theorem members_eq : snap.members =
    [(⟨0, 4⟩, snap.mode), (⟨4, 2⟩, snap.panAngle), (⟨6, 2⟩, snap.tiltAngle),
      (⟨8, 2⟩, snap.tilt2Angle), (⟨12, 4⟩, snap.bufferCount), (⟨16, 4⟩, snap.totalMoves),
      (⟨20, 4⟩, snap.totalReplays), (⟨24, 4⟩, snap.irqCount)] := rfl

/-- The image of the snapshot holds each field at its member. -/
theorem byte_member (among : field ∈ snap.members) (inside : field.1.Holds key) :
    snap.byte key = some (digit field.2 (key - field.1.offset)) := by
  rw [members_eq] at among
  simp only [List.mem_cons, List.not_mem_nil, or_false] at among
  rcases among with rfl | rfl | rfl | rfl | rfl | rfl | rfl | rfl <;>
    simp only [Member.Holds] at inside <;>
    unfold EchoSnapshot.byte byteAt digit <;>
    grind

end Members

/-! ### What the driver gathers fits the fields -/

theorem fits_iff {snap : EchoSnapshot} : snap.Fits ↔
    snap.mode < 256 ^ 4 ∧ snap.panAngle < 256 ^ 2 ∧ snap.tiltAngle < 256 ^ 2 ∧
      snap.tilt2Angle < 256 ^ 2 ∧ snap.bufferCount < 256 ^ 4 ∧ snap.totalMoves < 256 ^ 4 ∧
      snap.totalReplays < 256 ^ 4 ∧ snap.irqCount < 256 ^ 4 := by
  simp [EchoSnapshot.Fits, members_eq]

section Fits
variable {state after : State} {tid : Tid} {env : Env} {instr : Instr} {rest : Code}
variable {done : EchoDevice × Thread} {action : Action}

theorem angle_fits (wellFormed : WellFormed state) (servo : Fin echoNumServos) :
    echoServoGetAngle state.dev.servo servo < 256 ^ 2 := by
  rw [echoServoGetAngle, dif_pos servo.isLt]
  exact Nat.lt_of_le_of_lt (wellFormed.positions servo) (by decide)

theorem fits_step (wellFormed : WellFormed state) (fits : (state.thread tid).snap.Fits)
    (taken : exec state tid env instr rest = some done) : done.2.snap.Fits := by
  cases stores : instr.fieldStore state.dev with
  | none =>
    rw [exec_gathered stores taken]
    exact fits
  | some store =>
    rw [fits_iff] at fits ⊢
    cases instr <;> first | (cases stores; done) | cases taken
    case some.readMode.refl =>
      have bound : state.dev.state.mode.value < 256 ^ 4 := by
        cases state.dev.state.mode <;> decide
      exact ⟨bound, fits.2⟩
    case some.readAngle.refl servo =>
      have bound := angle_fits wellFormed servo
      dsimp only
      split_ifs
      · exact ⟨fits.1, bound, fits.2.2⟩
      · exact ⟨fits.1, fits.2.1, bound, fits.2.2.2⟩
      · exact ⟨fits.1, fits.2.1, fits.2.2.1, bound, fits.2.2.2.2⟩
    all_goals
      have capacity := wellFormed.capacity
      simp only [u32Size, echoFifoSize] at capacity ⊢
      omega

theorem fits_next (wellFormed : WellFormed state) (fits : ∀ tid, (state.thread tid).snap.Fits)
    (moved : next state action = some after) (tid : Tid) : (after.thread tid).snap.Fits := by
  by_cases actor : action.actor = some tid
  swap
  · rw [thread_next actor moved]
    exact fits tid
  cases acts actor moved with
  | step env instr rest done code taken =>
    rw [settle_thread]
    exact fits_step wellFormed (fits tid) taken
  | _ =>
    rw [settle_thread]
    exact fits _

end Fits

/-! ### What a call hands over -/

/-- What the call returns when it succeeds. -/
def Request.handed : Request → Int
  | .read _ count => (min count sizeofEchoSnapshot : Nat)
  | _ => 0

/-- The copy stands before the end of the call, and everything else before the copy. -/
def handRule (toCopy : Nat) (count : Int) (instr : Instr) (rest : Code) : Bool :=
  match instr with
  | .ret value => decide (value = count ∧ rest.any Instr.copies = false)
  | .copyToUser size => decide (size = toCopy ∧ rest.any Instr.copies = false)
  | instr => instr.ofRead && rest.any Instr.copies

theorem handRule_of_snapshots {request : Request} (snapshots : request.snapshots = true) :
    obeys (handRule request.toCopy request.handed) request.code = true := by
  cases request with
  | read nonblock count =>
    cases nonblock <;> simp [Request.code, Request.handed, Request.toCopy, echoRead, buildSnapshot,
      obeys, handRule, Instr.ofRead, Instr.gathers, Instr.copies]
  | ioctl ioc =>
    cases ioc with
    | getState => rfl
    | _ => cases snapshots
  | _ => cases snapshots

/-- Where a call that hands out a snapshot stands. -/
inductive Handing (toCopy : Nat) (count : Int) (thread : Thread) (copied : List Nat) : Prop
  | ahead (copies : thread.code.any Instr.copies = true) (under : thread.result = none)
  | handed (past : thread.code.any Instr.copies = false) (length : copied.length = toCopy)
      (delivered : ∃ held, thread.delivered = some (.copied held toCopy thread.snap))
      (counted : thread.result = none ∨ thread.result = some count)
  | failed (error : Int) (left : thread.code = []) (result : thread.result = some error)
      (negative : error < 0)

section Handing
variable {state after : State} {tid : Tid} {env : Env} {instr : Instr} {rest : Code}
variable {done : EchoDevice × Thread} {action : Action} {slot : StackSlot}
variable {toCopy short : Nat} {count : Int}

theorem exec_before_copy (reads : instr.ofRead = true) (copies : instr.copies = false)
    (returns : ∀ value, instr ≠ .ret value)
    (taken : exec state tid env instr rest = some done) :
    done.2.code = rest ∧ done.2.result = (state.thread tid).result ∨
      done.2.code = [] ∧ done.2.result = some (-EAGAIN) := by
  cases instr <;> first | (cases reads; done) | simp only [exec, leave, Thread.leave] at taken
  case copyToUser => cases copies
  case ret value => exact absurd rfl (returns value)
  all_goals
    repeat' split at taken
    all_goals first
      | contradiction
      | (cases taken; simp)

theorem handing_before (reads : instr.ofRead = true) (copies : instr.copies = false)
    (returns : ∀ value, instr ≠ .ret value) (behind : rest.any Instr.copies = true)
    (code : state.code tid = instr :: rest) (taken : exec state tid env instr rest = some done)
    (handing : Handing toCopy count (state.thread tid) slot.copied) (copied : List Nat) :
    Handing toCopy count done.2 copied := by
  have inside : (state.thread tid).code.any Instr.copies = true := by
    rw [← State.code, code, List.any_cons, behind, Bool.or_true]
  have fresh : (state.thread tid).result = none := by
    cases handing with
    | ahead _ under => exact under
    | handed past => simp [past] at inside
    | failed error left => simp [left] at inside
  rcases exec_before_copy reads copies returns taken with ⟨onward, same⟩ | ⟨left, result⟩
  · exact .ahead (onward ▸ behind) (same.trans fresh)
  · exact .failed _ left result (by decide)

theorem handing_step (rule : obeys (handRule toCopy count) (instr :: rest) = true)
    (code : state.code tid = instr :: rest) (taken : exec state tid env instr rest = some done)
    (handing : Handing toCopy count (state.thread tid) slot.copied) :
    Handing toCopy count done.2 (slot.update tid toCopy short state (.step tid env)).copied := by
  have head := obeys_head rule
  by_cases copies : instr.copies = true
  · obtain ⟨size, rfl⟩ : ∃ size, instr = .copyToUser size := by
      cases instr <;> first | exact ⟨_, rfl⟩ | cases copies
    obtain ⟨rfl, past⟩ : size = toCopy ∧ rest.any Instr.copies = false := by
      simpa [handRule] using head
    rw [slot_copy code]
    simp only [exec, leave] at taken
    split at taken <;> cases taken
    · rename_i whole
      have inside : (state.thread tid).code.any Instr.copies = true := by
        rw [← State.code, code]
        rfl
      have counted : (state.thread tid).result = none := by
        cases handing with
        | ahead _ under => exact under
        | handed past => simp [past] at inside
        | failed error left => simp [left] at inside
      exact .handed past (by simp [whole]) ⟨_, rfl⟩ (Or.inl counted)
    · exact .failed (-EFAULT) rfl rfl (by decide)
  rw [Bool.not_eq_true] at copies
  by_cases returns : ∃ value, instr = .ret value
  · obtain ⟨value, rfl⟩ := returns
    obtain ⟨rfl, past⟩ : value = count ∧ rest.any Instr.copies = false := by
      simpa [handRule] using head
    have kept : (slot.update tid toCopy short state (.step tid env)).copied = slot.copied := by
      rw [slot_keep code (fun _ => Instr.noConfusion) rfl]
    rw [kept]
    cases taken
    cases handing with
    | ahead copies =>
      rw [← State.code, code] at copies
      simp [past, Instr.copies] at copies
    | handed _ length delivered => exact .handed (by simp) length delivered (Or.inr rfl)
    | failed error left =>
      rw [← State.code, code] at left
      cases left
  · have before : instr.ofRead = true ∧ rest.any Instr.copies = true := by
      cases instr <;> first
        | (cases copies; done)
        | exact absurd ⟨_, rfl⟩ returns
        | simpa only [handRule, Bool.and_eq_true] using head
    exact handing_before before.1 copies (fun value same => returns ⟨value, same⟩) before.2 code
      taken handing _

theorem handing_next (rule : obeys (handRule toCopy count) (state.code tid) = true)
    (handing : Handing toCopy count (state.thread tid) slot.copied)
    (stays : ∀ request, action ≠ .call tid request) (proc : ∃ id, tid = .proc id)
    (moved : next state action = some after) :
    Handing toCopy count (after.thread tid) (slot.update tid toCopy short state action).copied := by
  by_cases actor : action.actor = some tid
  swap
  · rw [slot_other actor, thread_next actor moved]
    exact handing
  cases acts actor moved with
  | call request => exact absurd rfl (stays request)
  | step env instr rest done code taken =>
    rw [settle_thread]
    exact handing_step (code ▸ rule) code taken handing
  | signal =>
    rw [settle_thread]
    exact .failed (-ERESTARTSYS) rfl rfl (by decide)
  | _ => simp at proc

end Handing

/-! ### What user space reads -/

/-- The memory of user space after a copy. -/
def landed (copied : List Nat) (user : Nat → Nat) (key : Nat) : Nat := copied.getD key (user key)

/-- A run of the driver, watched with the slot of a call. -/
abbrev nextSlot (tid : Tid) (toCopy short : Nat) :=
  withHistory next fun (slot : StackSlot) state action _ =>
    slot.update tid toCopy short state action

/-- The thread stays in its call. -/
def StaysIn (tid : Tid) (_ : State × StackSlot) (action : Action) : Prop :=
  ∀ request, action ≠ .call tid request

/-- A successful call has handed out the first `toCopy` bytes of the snapshot it gathered:
user space finds there every field that lies in them, and elsewhere what it had. -/
structure Decodes (request : Request) (value : Int) (thread : Thread) (copied : List Nat) :
    Prop where
  counted : value = request.handed
  length : copied.length = request.toCopy
  delivered : ∃ held, thread.delivered = some (.copied held request.toCopy thread.snap)
  fields : ∀ user, ∀ field ∈ thread.snap.members,
    field.1.offset + field.1.size ≤ request.toCopy → field.1.load (landed copied user) = field.2
  beyond : ∀ user key, request.toCopy ≤ key → landed copied user key = user key
  merged : ∀ user held, (∀ key, user key < 256) → EchoSnapshot.load user = some held →
    EchoSnapshot.load (landed copied user) = some (held.over request.toCopy thread.snap)

theorem load_landed {snap : EchoSnapshot} {prior user : Nat → Nat} {size : Nat} (fits : snap.Fits)
    {field : Member × Nat} (among : field ∈ snap.members)
    (whole : field.1.offset + field.1.size ≤ size) :
    field.1.load (landed ((List.range size).map (copiedByte snap prior)) user) = field.2 := by
  apply Member.load_of_bytes _ (fits field among)
  intro key inside
  have small : key < size := Nat.lt_of_lt_of_le inside.2 whole
  have byte := byte_member among inside
  simp [landed, small, copiedByte, byte]

/-- A field of which the copy may bring nothing, a part or everything. -/
theorem load_overlay {snap : EchoSnapshot} {prior user : Nat → Nat} {size : Nat}
    (fits : snap.Fits) (bytes : ∀ key, user key < 256) {field : Member × Nat}
    (among : field ∈ snap.members) :
    field.1.load (landed ((List.range size).map (copiedByte snap prior)) user) =
      overlay size field.1.offset field.1.size (field.1.load user) field.2 := by
  have copied : ∀ key < size, field.1.Holds key →
      landed ((List.range size).map (copiedByte snap prior)) user key =
        digit field.2 (key - field.1.offset) := by
    intro key small inside
    have byte := byte_member among inside
    simp [landed, small, copiedByte, byte]
  have kept : ∀ key, size ≤ key →
      landed ((List.range size).map (copiedByte snap prior)) user key = user key := by
    intro key outside
    simp [landed, outside]
  unfold overlay
  split_ifs with whole nothing
  · exact load_landed fits among whole
  · apply Member.load_congr
    intro key inside
    exact kept key (nothing.trans inside.1)
  · -- The copy ends within the field.
    obtain ⟨first, rfl⟩ : ∃ first, size = field.1.offset + first :=
      ⟨size - field.1.offset, by omega⟩
    obtain ⟨second, length⟩ : ∃ second, field.1.size = first + second :=
      ⟨field.1.size - first, by omega⟩
    have low : word user field.1.offset first < 256 ^ first := word_lt bytes
    rw [Member.load, Member.load, length, word_add, word_add, Nat.add_sub_cancel_left,
      Nat.add_mul_div_left _ _ (Nat.lt_of_le_of_lt (Nat.zero_le _) low), Nat.div_eq_of_lt low,
      Nat.zero_add]
    congr 1
    · apply word_digits
      intro index inside
      rw [copied _ (by omega) ⟨by omega, by omega⟩, Nat.add_sub_cancel_left]
    · congr 1
      apply word_congr
      intro index inside
      exact kept _ (by omega)

theorem load_over {snap held : EchoSnapshot} {prior user : Nat → Nat} {size : Nat}
    (fits : snap.Fits) (bytes : ∀ key, user key < 256)
    (before : EchoSnapshot.load user = some held) :
    EchoSnapshot.load (landed ((List.range size).map (copiedByte snap prior)) user) =
      some (held.over size snap) := by
  have overlaid : ∀ field ∈ snap.members, _ := fun field among =>
    @load_overlay snap prior user size fits bytes field among
  simp only [members_eq, List.forall_mem_cons] at overlaid
  obtain ⟨mode, pan, tilt, tilt2, count, moves, replays, irqs, -⟩ := overlaid
  cases before
  exact congrArg EchoSnapshot.ofFields (congrArg₂ List.cons mode (congrArg₂ List.cons pan
    (congrArg₂ List.cons tilt (congrArg₂ List.cons tilt2 (congrArg₂ List.cons count
      (congrArg₂ List.cons moves (congrArg₂ List.cons replays
        (congrArg₂ List.cons irqs rfl))))))))

section Run
variable {servo : EchoServoCtx} {clock id short : Nat} {earlier actions : List Action}
variable {state : State} {request : Request} {prior : Nat → Nat} {pair : State × StackSlot}

theorem fits_of_run (positions : ∀ other, servo.pos other ≤ echoServoMax)
    (run : Run next anyStep (State.initial servo clock) actions state) (tid : Tid) :
    (state.thread tid).snap.Fits := by
  refine run.invariant (fun state => ∀ tid, (state.thread tid).snap.Fits) ?_ ?_ tid
  · intro tid
    rw [fits_iff]
    simp [State.initial, Thread.initial, EchoSnapshot.zero]
  · intro actions before action after ran fits _ moved
    exact fits_next (wellFormed_of_run positions ran).1 fits moved

/-- A snapshot that a call has begun to hand out, in every state that it goes through. -/
theorem handing_of_run (snapshots : request.snapshots = true)
    (run : Run (nextSlot (.proc id) request.toCopy short) (StaysIn (.proc id))
      (state.enter (.proc id) request, ⟨prior, []⟩) actions pair) :
    Gathering (.proc id) request.toCopy prior pair.1 pair.2 ∧
      Handing request.toCopy request.handed (pair.1.thread (.proc id)) pair.2.copied := by
  obtain ⟨shape, may, fits, -⟩ := copyRule_of_snapshots id snapshots
  have rule := handRule_of_snapshots snapshots
  have entered : Gathering (.proc id) request.toCopy prior (state.enter (.proc id) request)
      ⟨prior, []⟩ :=
    (@gathering_of_run state id short request prior prior [] _ snapshots .refl).1
  have begun : Handing request.toCopy request.handed
      ((state.enter (.proc id) request).thread (.proc id)) [] := by
    refine .ahead ?_ (by simp [State.enter, Thread.begin])
    have copies : .copyToUser request.toCopy ∈ request.code :=
      mem_copyToUser_iff.mpr ⟨snapshots, rfl⟩
    rw [← State.code, enter_code]
    exact List.any_eq_true.mpr ⟨_, copies, rfl⟩
  have kept : pair.1.code (.proc id) <:+ request.code ∧
      Gathering (.proc id) request.toCopy prior pair.1 pair.2 ∧
      Handing request.toCopy request.handed (pair.1.thread (.proc id)) pair.2.copied := by
    refine run.invariant (fun pair => pair.1.code (.proc id) <:+ request.code ∧
      Gathering (.proc id) request.toCopy prior pair.1 pair.2 ∧
      Handing request.toCopy request.handed (pair.1.thread (.proc id)) pair.2.copied)
      ⟨by simp, entered, begun⟩ ?_
    rintro - before action after - ⟨suffix, gathering, handing⟩ stays moved
    obtain ⟨moved, history⟩ := withHistory_some.mp moved
    rw [history]
    exact ⟨callSuffix_next may suffix stays moved,
      gathering_next may fits suffix shape gathering stays moved,
      handing_next (obeys_suffix suffix rule) handing stays ⟨id, rfl⟩ moved⟩
  exact kept.2

/-- What a process gets from a successful call decodes to the snapshot that the call has
gathered, whatever the other threads do meanwhile. -/
theorem snapshot_decodes (positions : ∀ other, servo.pos other ≤ echoServoMax)
    (before : Run next anyStep (State.initial servo clock) earlier state)
    (idle : state.code (.proc id) = []) (snapshots : request.snapshots = true)
    (run : Run (nextSlot (.proc id) request.toCopy short) (StaysIn (.proc id))
      (state.enter (.proc id) request, ⟨prior, []⟩) actions pair)
    {value : Int} (returned : (pair.1.thread (.proc id)).result = some value)
    (success : 0 ≤ value) : Decodes request value (pair.1.thread (.proc id)) pair.2.copied := by
  obtain ⟨gathering, handing⟩ := handing_of_run snapshots run
  have may : (Tid.proc id).mayCall request = true := (copyRule_of_snapshots id snapshots).2.1
  have entered : next state (.call (.proc id) request) =
      some (state.enter (.proc id) request) := next_call.mpr ⟨⟨may, idle⟩, rfl⟩
  have fits := fits_of_run positions ((before.step trivial entered).trans run.forget.any) (.proc id)
  cases handing with
  | ahead _ under => simp [under] at returned
  | failed error _ result negative =>
    obtain rfl : error = value := by simpa [result] using returned
    omega
  | handed past length delivered counted =>
    have value_eq : value = request.handed := by
      rcases counted with under | counted
      · simp [under] at returned
      · exact Option.some.inj (returned.symm.trans counted)
    have bytes : pair.2.copied = (List.range request.toCopy).map
        (copiedByte (pair.1.thread (.proc id)).snap prior) := by
      rcases gathering.copied with nothing | ⟨-, size, -, copied⟩
      · rw [nothing] at length ⊢
        simp [← length]
      · rw [copied] at length ⊢
        rw [← length, List.length_map, List.length_range]
    refine ⟨value_eq, length, delivered, fun user field among whole => ?_,
      fun user key outside => ?_, fun user held user_bytes before => ?_⟩
    · rw [bytes]
      exact load_landed fits among whole
    · simp [landed, bytes, outside]
    · rw [bytes]
      exact load_over fits user_bytes before

end Run

/-- The first arm is moved, and a reader asks for the mode and the angles only. -/
def armMoved : List Action :=
  .call (.proc 0) (.write sizeofEchoCmd (some ⟨echoCmdMove, 1, 45, 0⟩)) :: steps (.proc 0) 4

theorem snapshot_decodes_ten : ∃ state, ∃ pair : State × StackSlot,
    Run next anyStep (State.initial simServo 0) armMoved state ∧
    Run (nextSlot (.proc 0) 10 0) (StaysIn (.proc 0))
      (state.enter (.proc 0) (.read false 10), ⟨fun _ => 7, []⟩) (steps (.proc 0) 12) pair ∧
    Decodes (.read false 10) 10 (pair.1.thread (.proc 0)) pair.2.copied := by
  have passed : (run next (State.initial simServo 0) armMoved).any (fun state =>
      state.idle (.proc 0) && (run (nextSlot (.proc 0) 10 0)
        (state.enter (.proc 0) (.read false 10), ⟨fun _ => 7, []⟩) (steps (.proc 0) 12)).any
        fun pair => (pair.1.thread (.proc 0)).result == some 10) = true := by decide
  obtain ⟨state, moved, later⟩ := (Option.any_eq_true _ _).mp passed
  obtain ⟨idle, read⟩ := (Bool.and_eq_true _ _).mp later
  obtain ⟨pair, ran, returned⟩ := (Option.any_eq_true _ _).mp read
  have before : Run next anyStep (State.initial simServo 0) armMoved state :=
    Run.ofExecution moved fun _ _ _ => trivial
  have onward : Run (nextSlot (.proc 0) 10 0) (StaysIn (.proc 0))
      (state.enter (.proc 0) (.read false 10), ⟨fun _ => 7, []⟩) (steps (.proc 0) 12) pair := by
    refine Run.ofExecution ran fun action member pair request same => ?_
    cases (List.eq_of_mem_replicate member).symm.trans same
  refine ⟨state, pair, before, onward, ?_⟩
  exact @snapshot_decodes simServo 0 0 0 armMoved (steps (.proc 0) 12) state (.read false 10)
    (fun _ => 7) pair (by decide) before (List.isEmpty_iff.mp idle) rfl onward 10
    (beq_iff_eq.mp returned) (by decide)

end EchoRobot
