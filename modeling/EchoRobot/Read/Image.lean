import EchoRobot.Calls.Alone
import EchoRobot.Logs.Store
import Mathlib.Algebra.GroupWithZero.Nat

/-! The bytes of a snapshot. The structure lives on the kernel stack, where the fields
are stored one by one; a byte that no field covers keeps what was there before. -/

namespace EchoRobot

open Interleaving Logs

/-- The bytes of a value, the lowest first. -/
def byteAt (value index : Nat) : Nat := value / 256 ^ index % 256

/-- A store to a field of a structure. -/
structure FieldStore where
  offset : Nat
  size : Nat
  value : Nat

def FieldStore.byte (store : FieldStore) (key : Nat) : Option Nat :=
  if store.offset ≤ key ∧ key < store.offset + store.size then
    some (byteAt store.value (key - store.offset))
  else none

/-- The alignment of `buffer_count` leaves a gap behind the three angles. -/
def Padding (key : Nat) : Prop := key = 10 ∨ key = 11

/-- The layout of `struct echo_snapshot`, without a value in the gap. -/
def EchoSnapshot.byte (snap : EchoSnapshot) (key : Nat) : Option Nat :=
  if key < 4 then some (byteAt snap.mode key)
  else if key < 6 then some (byteAt snap.panAngle (key - 4))
  else if key < 8 then some (byteAt snap.tiltAngle (key - 6))
  else if key < 10 then some (byteAt snap.tilt2Angle (key - 8))
  else if key < 12 then none
  else if key < 16 then some (byteAt snap.bufferCount (key - 12))
  else if key < 20 then some (byteAt snap.totalMoves (key - 16))
  else if key < 24 then some (byteAt snap.totalReplays (key - 20))
  else if key < 28 then some (byteAt snap.irqCount (key - 24))
  else none

/-- Where a step of `build_snapshot` stores: offset and size. -/
def Instr.field : Instr → Option (Nat × Nat)
  | .readMode => some (0, 4)
  | .readAngle servo =>
    some (if servo = echoServoPan then 4 else if servo = echoServoTilt then 6 else 8, 2)
  | .readCount => some (12, 4)
  | .readTotalMoves => some (16, 4)
  | .readTotalReplays => some (20, 4)
  | .readIrqCount => some (24, 4)
  | _ => none

/-- What it stores. -/
def Instr.fieldValue (dev : EchoDevice) : Instr → Nat
  | .readMode => dev.state.mode.value
  | .readAngle servo => echoServoGetAngle dev.servo servo
  | .readCount => dev.buffer.moveFifo.length
  | .readTotalMoves => dev.state.totalMoves % u32Size
  | .readTotalReplays => dev.buffer.replayCount % u32Size
  | .readIrqCount => dev.irqCount % u32Size
  | _ => 0

def Instr.fieldStore (dev : EchoDevice) (instr : Instr) : Option FieldStore :=
  instr.field.map fun place => ⟨place.1, place.2, instr.fieldValue dev⟩

def Instr.covers (instr : Instr) (key : Nat) : Bool :=
  instr.field.any fun place => decide (place.1 ≤ key ∧ key < place.1 + place.2)

/-- The stack slot of `snap` during a call, and the bytes copied out of it. -/
structure StackSlot where
  image : Nat → Nat
  copied : List Nat

/-- A successful `copy_to_user` copies `toCopy` bytes, a failing one may have copied the
first `short` of them. -/
def StackSlot.update (tid : Tid) (toCopy short : Nat) (slot : StackSlot) (state : State)
    (action : Action) : StackSlot :=
  match action with
  | .step other env =>
    if other = tid then
      match state.instr? action with
      | some (.copyToUser _) =>
        let size := if env.copied then toCopy else min short toCopy
        { slot with copied := (List.range size).map slot.image }
      | some instr =>
        match instr.fieldStore state.dev with
        | some store => { slot with image := Logs.apply FieldStore.byte slot.image store }
        | none => slot
      | none => slot
    else slot
  | _ => slot

/-- One run of the driver, watched with two contents of the slot. -/
abbrev nextSlots (tid : Tid) (toCopy short : Nat) :=
  withHistory next fun (slots : StackSlot × StackSlot) state action _ =>
    (slots.1.update tid toCopy short state action, slots.2.update tid toCopy short state action)

/-- The thread stays in its call. -/
def OneCall (tid : Tid) (_ : State × StackSlot × StackSlot) (action : Action) : Prop :=
  ∀ request, action ≠ .call tid request

section Exec
variable {state : State} {tid : Tid} {env : Env} {instr : Instr} {rest : Code}
variable {done : EchoDevice × Thread}

/-- The gathering steps store the field's bytes into the snapshot. -/
theorem exec_field {store : FieldStore} (stores : instr.fieldStore state.dev = some store)
    (taken : exec state tid env instr rest = some done) (key : Nat) :
    done.2.snap.byte key = (store.byte key).or ((state.thread tid).snap.byte key) := by
  cases instr <;> first | (cases stores; done) | (cases stores; cases taken)
  case readAngle.refl.refl servo =>
    have others : echoServoTilt ≠ echoServoPan ∧ echoServoTilt2 ≠ echoServoPan ∧
        echoServoTilt2 ≠ echoServoTilt := by decide
    rcases pan_tilt_or_tilt2 servo with rfl | rfl | rfl <;>
      simp only [EchoSnapshot.byte, FieldStore.byte, Instr.fieldValue, others, ↓reduceIte] <;>
      grind
  all_goals
    simp only [EchoSnapshot.byte, FieldStore.byte, Instr.fieldValue]
    grind

/-- No other step changes what has been gathered. -/
theorem exec_gathered (stores : instr.fieldStore state.dev = none)
    (taken : exec state tid env instr rest = some done) :
    done.2.snap = (state.thread tid).snap := by
  cases instr <;> simp only [exec, leave, Thread.leave] at taken
  all_goals repeat' split at taken
  all_goals first
    | contradiction
    | (cases taken; rfl)

end Exec

/-- A byte as it is copied: of the field there, or of the earlier content of the slot. -/
def copiedByte (snap : EchoSnapshot) (prior : Nat → Nat) (key : Nat) : Nat :=
  (snap.byte key).getD (prior key)

theorem byte_eq_none_iff {snap : EchoSnapshot} {key : Nat} (inside : key < sizeofEchoSnapshot) :
    snap.byte key = none ↔ Padding key := by
  unfold EchoSnapshot.byte Padding sizeofEchoSnapshot at *
  grind

/-- The slot of a thread that gathers or has gathered its snapshot. -/
structure Gathering (tid : Tid) (toCopy : Nat) (prior : Nat → Nat) (state : State)
    (slot : StackSlot) : Prop where
  padding : ∀ key, Padding key → slot.image key = prior key
  fields : ∀ size, .copyToUser size ∈ state.code tid → ∀ key < sizeofEchoSnapshot,
    ¬ Padding key → (∀ instr ∈ state.code tid, instr.covers key = false) →
    (state.thread tid).snap.byte key = some (slot.image key)
  copied : slot.copied = [] ∨ (∀ instr ∈ state.code tid, instr.field = none) ∧
    ∃ size ≤ toCopy,
      slot.copied = (List.range size).map (copiedByte (state.thread tid).snap prior)

/-- The snapshot is copied when it has been gathered. -/
def copyRule : Instr → Code → Bool
  | .copyToUser _, rest => rest.all (·.field.isNone)
  | _, _ => true

theorem byte_fieldStore {instr : Instr} {dev : EchoDevice} {store : FieldStore}
    (stores : instr.fieldStore dev = some store) (key : Nat) :
    (store.byte key).isSome = instr.covers key := by
  obtain ⟨place, field, rfl⟩ := Option.map_eq_some_iff.mp stores
  simp only [FieldStore.byte, Instr.covers, field, Option.any_some]
  split <;> simp [*]

/-- No field reaches into the gap. -/
theorem not_covers_padding (instr : Instr) {key : Nat} (gap : Padding key) :
    instr.covers key = false := by
  rcases gap with rfl | rfl <;> cases instr <;>
    first | rfl | (simp only [Instr.covers, Instr.field]; split_ifs <;> decide)

section Slot
variable {state after : State} {action : Action} {tid : Tid} {toCopy short : Nat}
variable {slot : StackSlot} {prior : Nat → Nat} {env : Env} {instr : Instr} {rest : Code}
variable {done : EchoDevice × Thread}

theorem slot_other (other : action.actor ≠ some tid) :
    slot.update tid toCopy short state action = slot := by
  cases action with
  | step stepper env =>
    have different : stepper ≠ tid := by
      rintro rfl
      exact other rfl
    simp [StackSlot.update, different]
  | _ => rfl

theorem slot_copy {size : Nat} (code : state.code tid = .copyToUser size :: rest) :
    slot.update tid toCopy short state (.step tid env) =
      { slot with copied :=
        (List.range (if env.copied then toCopy else min short toCopy)).map slot.image } := by
  simp [StackSlot.update, instr?_step code]

theorem slot_store {store : FieldStore} (code : state.code tid = instr :: rest)
    (stores : instr.fieldStore state.dev = some store) :
    slot.update tid toCopy short state (.step tid env) =
      { slot with image := Logs.apply FieldStore.byte slot.image store } := by
  cases instr <;> first | (cases stores; done) | simp [StackSlot.update, instr?_step code, stores]

theorem slot_keep (code : state.code tid = instr :: rest)
    (copies : ∀ size, instr ≠ .copyToUser size) (field : instr.field = none) :
    slot.update tid toCopy short state (.step tid env) = slot := by
  cases instr <;> first
    | exact absurd rfl (copies _)
    | (cases field; done)
    | simp [StackSlot.update, instr?_step code, Instr.fieldStore, Instr.field]

/-- How much is copied does not depend on the slot. -/
theorem slot_length {other : StackSlot} (same : slot.copied.length = other.copied.length) :
    (slot.update tid toCopy short state action).copied.length =
      (other.update tid toCopy short state action).copied.length := by
  unfold StackSlot.update
  repeat' split
  all_goals simp [same]

/-- A store keeps what the gap holds and brings its field. -/
theorem gathering_store {store : FieldStore} (gathering : Gathering tid toCopy prior state slot)
    (code : state.code tid = instr :: rest) (stores : instr.fieldStore state.dev = some store)
    (taken : exec state tid env instr rest = some done) (left : done.2.code = rest) :
    Gathering tid toCopy prior (state.settle tid done.1 done.2)
      { slot with image := Logs.apply FieldStore.byte slot.image store } where
  padding key gap := by
    have outside : store.byte key = none := by
      rw [← Option.not_isSome_iff_eq_none, byte_fieldStore stores, not_covers_padding instr gap]
      exact Bool.false_ne_true
    exact (apply_none outside).trans (gathering.padding key gap)
  fields size copies key inside gap ahead := by
    simp only [settle_code, left, settle_thread] at copies ahead ⊢
    rw [exec_field stores taken key]
    cases covered : store.byte key with
    | some byte => rw [apply_some covered, Option.some_or]
    | none =>
      rw [apply_none covered, Option.none_or]
      refine gathering.fields size (by simp [code, copies]) key inside gap fun other member => ?_
      rcases List.mem_cons.mp (code ▸ member) with rfl | later
      · rw [← byte_fieldStore stores, covered]
        rfl
      · exact ahead other later
  copied := by
    rcases gathering.copied with nothing | ⟨gathered, -⟩
    · exact Or.inl nothing
    · have none := gathered instr (by simp [code])
      simp [Instr.fieldStore, none] at stores

/-- The copy takes the fields of the snapshot, and in the gap what was there before. -/
theorem gathering_copy (gathering : Gathering tid toCopy prior state slot)
    {asked : Nat} (code : state.code tid = .copyToUser asked :: rest)
    (rule : copyRule (.copyToUser asked) rest = true)
    (taken : exec state tid env (.copyToUser asked) rest = some done)
    {size : Nat} (part : size ≤ toCopy) (fits : toCopy ≤ sizeofEchoSnapshot) :
    Gathering tid toCopy prior (state.settle tid done.1 done.2)
      { slot with copied := (List.range size).map slot.image } := by
  have behind : ∀ instr ∈ rest, instr.field = none := by
    simpa [copyRule, List.all_eq_true] using rule
  have left : ∀ instr ∈ done.2.code, instr.field = none := by
    generalize done.2.code = reached, exec_code taken = leaves
    cases leaves with
    | next => exact behind
    | back => simp
    | stop same => cases same
    | unroll same => cases same
  have snap := exec_gathered rfl taken
  have gathered : ∀ key < sizeofEchoSnapshot, ¬ Padding key →
      (state.thread tid).snap.byte key = some (slot.image key) := by
    intro key inside gap
    refine gathering.fields asked (by simp [code]) key inside gap fun instr member => ?_
    rcases List.mem_cons.mp (code ▸ member) with rfl | later
    · rfl
    · simp [Instr.covers, behind instr later]
  have bytes : ∀ key < sizeofEchoSnapshot,
      slot.image key = copiedByte (state.thread tid).snap prior key := by
    intro key inside
    by_cases gap : Padding key
    · rw [copiedByte, (byte_eq_none_iff inside).mpr gap, gathering.padding key gap]
      rfl
    · rw [copiedByte, gathered key inside gap]
      rfl
  refine ⟨gathering.padding, fun _ _ key inside gap _ => ?_, Or.inr ⟨?_, size, part, ?_⟩⟩
  · rw [settle_thread, snap]
    exact gathered key inside gap
  · simpa using left
  · rw [settle_thread, snap]
    refine List.map_congr_left fun key member => bytes key ?_
    exact Nat.lt_of_lt_of_le (List.mem_range.mp member) (part.trans fits)

/-- A step that stores and copies nothing. -/
theorem gathering_keep (gathering : Gathering tid toCopy prior state slot)
    (code : state.code tid = instr :: rest) (field : instr.field = none)
    (taken : exec state tid env instr rest = some done)
    (left : done.2.code = rest ∨ done.2.code = []) :
    Gathering tid toCopy prior (state.settle tid done.1 done.2) slot := by
  have snap : ((state.settle tid done.1 done.2).thread tid).snap = (state.thread tid).snap := by
    rw [settle_thread]
    exact exec_gathered (by simp [Instr.fieldStore, field]) taken
  have inside : ∀ later ∈ (state.settle tid done.1 done.2).code tid, later ∈ rest := by
    rw [settle_code]
    rcases left with onward | nothing
    · simp [onward]
    · simp [nothing]
  refine ⟨gathering.padding, fun size copies key small gap ahead => ?_, ?_⟩
  · have onward : done.2.code = rest := left.resolve_right fun nothing => by
      simp [nothing] at copies
    rw [settle_code, onward] at copies ahead
    rw [snap]
    refine gathering.fields size (by simp [code, copies]) key small gap fun other member => ?_
    rcases List.mem_cons.mp (code ▸ member) with rfl | later
    · simp [Instr.covers, field]
    · exact ahead other later
  · rw [snap]
    refine gathering.copied.imp_right fun copied => ⟨fun later member => ?_, copied.2⟩
    exact copied.1 later (by simp [code, inside later member])

/-- Every step keeps what is known of the slot. -/
theorem gathering_next {id : Nat} {request : Request}
    (may : (Tid.proc id).mayCall request = true) (fits : toCopy ≤ sizeofEchoSnapshot)
    (suffix : state.code (.proc id) <:+ request.code) (shape : obeys copyRule request.code = true)
    (gathering : Gathering (.proc id) toCopy prior state slot)
    (stays : ∀ request, action ≠ .call (.proc id) request)
    (moved : next state action = some after) :
    Gathering (.proc id) toCopy prior after (slot.update (.proc id) toCopy short state action) := by
  by_cases actor : action.actor = some (.proc id)
  swap
  · rw [slot_other actor]
    have same := thread_next actor moved
    have code : after.code (.proc id) = state.code (.proc id) := congrArg Thread.code same
    constructor
    · exact gathering.padding
    · rw [code, same]
      exact gathering.fields
    · rw [code, same]
      exact gathering.copied
  cases acts actor moved with
  | call request => exact absurd rfl (stays request)
  | step env instr rest done code taken =>
    have left := callStep may (code ▸ suffix) taken
    by_cases copies : ∃ size, instr = .copyToUser size
    · obtain ⟨size, rfl⟩ := copies
      rw [slot_copy code]
      refine gathering_copy gathering code (obeys_head (obeys_suffix (code ▸ suffix) shape)) taken
        ?_ fits
      split <;> omega
    · rw [not_exists] at copies
      cases stores : instr.fieldStore state.dev with
      | some store =>
        rw [slot_store code stores]
        refine gathering_store gathering code stores taken (left.resolve_right fun back => ?_)
        cases instr <;> first | (cases stores; done) | cases back.2
      | none =>
        have field : instr.field = none := by simpa [Instr.fieldStore] using stores
        rw [slot_keep code copies field]
        exact gathering_keep gathering code field taken (left.imp_right And.left)
  | signal =>
    refine ⟨gathering.padding, fun size copies => ?_, ?_⟩
    · simp at copies
    · rcases gathering.copied with nothing | ⟨-, copied⟩
      · exact Or.inl nothing
      · exact Or.inr ⟨by simp, by simpa [StackSlot.update, Thread.leave] using copied⟩

end Slot

section Request
variable {id : Nat} {request : Request}

theorem buildSnapshot_covers {key : Nat} (inside : key < sizeofEchoSnapshot)
    (field : ¬ Padding key) : ∃ instr ∈ buildSnapshot, instr.covers key = true := by
  unfold Padding at field
  have listed : ∀ key < sizeofEchoSnapshot, key = 10 ∨ key = 11 ∨
      ∃ instr ∈ buildSnapshot, instr.covers key = true := by decide
  rcases listed key inside with gap | gap | covered
  · exact absurd (Or.inl gap) field
  · exact absurd (Or.inr gap) field
  · exact covered

theorem copyRule_of_snapshots (id : Nat) (snapshots : request.snapshots = true) :
    obeys copyRule request.code = true ∧ (Tid.proc id).mayCall request = true ∧
      request.toCopy ≤ sizeofEchoSnapshot ∧ ∀ instr ∈ buildSnapshot, instr ∈ request.code := by
  cases request with
  | read nonblock count =>
    refine ⟨by cases nonblock <;> rfl, rfl, Nat.min_le_right _ _, fun instr member => ?_⟩
    simp [Request.code, echoRead, member]
  | ioctl ioc =>
    cases ioc with
    | getState =>
      refine ⟨rfl, rfl, Nat.le_refl _, fun instr member => ?_⟩
      simp [Request.code, echoIoctl, member]
    | _ => cases snapshots
  | _ => cases snapshots

end Request

section Run
variable {state : State} {id short : Nat} {request : Request} {prior prior' : Nat → Nat}
variable {actions : List Action} {pair : State × StackSlot × StackSlot}

/-- The two slots are written alike. -/
theorem gathering_of_run (snapshots : request.snapshots = true)
    (run : Run (nextSlots (.proc id) request.toCopy short) (OneCall (.proc id))
      (state.enter (.proc id) request, ⟨prior, []⟩, ⟨prior', []⟩) actions pair) :
    Gathering (.proc id) request.toCopy prior pair.1 pair.2.1 ∧
      Gathering (.proc id) request.toCopy prior' pair.1 pair.2.2 ∧
      pair.2.1.copied.length = pair.2.2.copied.length := by
  obtain ⟨shape, may, fits, builds⟩ := copyRule_of_snapshots id snapshots
  have initial : ∀ prior, Gathering (.proc id) request.toCopy prior
      (state.enter (.proc id) request) ⟨prior, []⟩ := by
    refine fun prior => ⟨fun key gap => rfl, fun _ _ key inside field ahead => ?_, Or.inl rfl⟩
    obtain ⟨instr, member, covers⟩ := buildSnapshot_covers inside field
    have uncovered := ahead instr (by simp [builds instr member])
    simp [uncovered] at covers
  have inv : pair.1.code (.proc id) <:+ request.code ∧
      Gathering (.proc id) request.toCopy prior pair.1 pair.2.1 ∧
      Gathering (.proc id) request.toCopy prior' pair.1 pair.2.2 ∧
      pair.2.1.copied.length = pair.2.2.copied.length := by
    refine run.invariant (fun pair => pair.1.code (.proc id) <:+ request.code ∧
      Gathering (.proc id) request.toCopy prior pair.1 pair.2.1 ∧
      Gathering (.proc id) request.toCopy prior' pair.1 pair.2.2 ∧
      pair.2.1.copied.length = pair.2.2.copied.length) ⟨?_, initial _, initial _, rfl⟩ ?_
    · simp
    · rintro - before action after - ⟨suffix, one, two, length⟩ stays moved
      obtain ⟨moved, history⟩ := withHistory_some.mp moved
      rw [history]
      exact ⟨callSuffix_next may suffix stays moved,
        gathering_next may fits suffix shape one stays moved,
        gathering_next may fits suffix shape two stays moved, slot_length length⟩
  exact inv.2

theorem copiedByte_eq_iff {snap : EchoSnapshot} {key : Nat} (inside : key < sizeofEchoSnapshot) :
    copiedByte snap prior key = copiedByte snap prior' key ↔
      (Padding key → prior key = prior' key) := by
  unfold copiedByte
  by_cases gap : Padding key
  · simp [(byte_eq_none_iff inside).mpr gap, gap]
  · obtain ⟨byte, field⟩ := Option.ne_none_iff_exists'.mp
      (mt (@byte_eq_none_iff snap key inside).mp gap)
    simp [field, gap]

/-- What is copied differs by what the gap held before, as far as it is copied. -/
theorem copied_eq_iff (snapshots : request.snapshots = true)
    (run : Run (nextSlots (.proc id) request.toCopy short) (OneCall (.proc id))
      (state.enter (.proc id) request, ⟨prior, []⟩, ⟨prior', []⟩) actions pair) :
    pair.2.1.copied = pair.2.2.copied ↔
      ∀ key < pair.2.1.copied.length, Padding key → prior key = prior' key := by
  obtain ⟨one, two, length⟩ := gathering_of_run snapshots run
  rcases one.copied with nothing | ⟨-, size, part, copied⟩
  · rw [nothing] at length ⊢
    simp [List.length_eq_zero_iff.mp length.symm]
  have fits := part.trans (copyRule_of_snapshots id snapshots).2.2.1
  rcases two.copied with nothing' | ⟨-, size', -, copied'⟩
  · rw [nothing'] at length ⊢
    simp [List.length_eq_zero_iff.mp length]
  obtain rfl : size = size' := by simpa [copied, copied'] using length
  rw [copied, copied', List.length_map, List.length_range, List.map_inj_left]
  refine forall_congr' fun key => ?_
  rw [List.mem_range]
  exact forall_congr' fun inside => copiedByte_eq_iff (Nat.lt_of_lt_of_le inside fits)

/-- A call copies no more than it was asked for. -/
theorem length_copied_le (snapshots : request.snapshots = true)
    (run : Run (nextSlots (.proc id) request.toCopy short) (OneCall (.proc id))
      (state.enter (.proc id) request, ⟨prior, []⟩, ⟨prior', []⟩) actions pair) :
    pair.2.1.copied.length ≤ request.toCopy := by
  rcases (gathering_of_run snapshots run).1.copied with nothing | ⟨-, size, part, copied⟩
  · simp [nothing]
  · simpa [copied] using part

/-- A device with news for its readers. -/
def State.withNews : State :=
  let state := State.initial simServo 0
  { state with dev := { state.dev with newDataAvail := true } }

/-- A reader that finds news goes past the test and the wait. -/
theorem exists_woken (state : State) (id : Nat) {nonblock : Bool} {rest : Code}
    (news : state.dev.newDataAvail = true)
    (ahead : state.code (.proc id) =
      (if nonblock then [.testNonblock] else []) ++ .waitNewData :: rest) :
    ∃ count after, Interleaving.run next state (stepsAlone (.proc id) Env.good count) = some after ∧
      after.code (.proc id) = rest := by
  have passed : ∀ (state : State) (instr : Instr) (rest : Code), state.dev.newDataAvail = true →
      instr = .testNonblock ∨ instr = .waitNewData → state.code (.proc id) = instr :: rest →
      ∃ after, next state (.step (.proc id) Env.good) = some after ∧
        after.dev.newDataAvail = true ∧ after.code (.proc id) = rest := by
    intro state instr rest news own ahead
    have taken : exec state (.proc id) Env.good instr rest =
        some (state.dev, { state.thread (.proc id) with code := rest }) := by
      rcases own with rfl | rfl <;> simp [exec, news]
    exact ⟨_, next_step.mpr ⟨_, _, _, ahead, taken, rfl⟩, news, settle_code ..⟩
  cases nonblock with
  | false =>
    obtain ⟨after, moved, -, left⟩ := passed state _ rest news (Or.inr rfl) ahead
    exact ⟨1, after, by rw [run_stepsAlone_succ, moved]; rfl, left⟩
  | true =>
    obtain ⟨middle, first, news, left⟩ := passed state _ _ news (Or.inl rfl) ahead
    obtain ⟨after, second, -, left⟩ := passed middle _ rest news (Or.inr rfl) left
    refine ⟨2, after, ?_, left⟩
    rw [run_stepsAlone_succ, first, Option.bind_some, run_stepsAlone_succ, second]
    rfl

/-- With news for it to read, a call that nobody disturbs comes to its copy. -/
theorem exists_gathered (state : State) (id : Nat) (snapshots : request.snapshots = true)
    (news : state.dev.newDataAvail = true) : ∃ count after rest,
      Interleaving.run next (state.enter (.proc id) request)
        (stepsAlone (.proc id) Env.good count) = some after ∧
      after.code (.proc id) = .copyToUser request.toCopy :: rest := by
  have gathers : ∀ instr ∈ .setNewDataAvail false :: buildSnapshot,
      instr.passes = true ∧ instr.mayReturn = false := by decide
  cases request with
  | read nonblock count =>
    have entered : (state.enter (.proc id) (.read nonblock count)).code (.proc id) =
        (if nonblock then [.testNonblock] else []) ++ .waitNewData ::
          ((.setNewDataAvail false :: buildSnapshot) ++
            [.copyToUser (min count sizeofEchoSnapshot),
              .ret (min count sizeofEchoSnapshot : Nat)]) := by
      simp [Request.code, echoRead]
    obtain ⟨first, middle, ran, ahead⟩ := exists_woken (state.enter (.proc id) _) id news entered
    obtain ⟨after, later, left⟩ := exists_through (.proc id) Env.good ahead gathers
    refine ⟨first + (.setNewDataAvail false :: buildSnapshot).length, after, _, ?_, left⟩
    rw [stepsAlone, List.replicate_add, run_append, ← stepsAlone, ← stepsAlone, ran]
    exact later
  | ioctl ioc =>
    cases ioc with
    | getState =>
      obtain ⟨after, ran, left⟩ := exists_through (.proc id) Env.good
        (enter_code state (.proc id) (.ioctl .getState))
        fun instr member => gathers instr (List.mem_cons_of_mem _ member)
      exact ⟨_, after, _, ran, left⟩
    | _ => cases snapshots
  | _ => cases snapshots

/-- There it copies all that it was asked for. -/
theorem exists_copied (state : State) (id : Nat) (snapshots : request.snapshots = true)
    (news : state.dev.newDataAvail = true) (prior prior' : Nat → Nat) :
    ∃ actions pair, Run (nextSlots (.proc id) request.toCopy 0) (OneCall (.proc id))
      (state.enter (.proc id) request, ⟨prior, []⟩, ⟨prior', []⟩) actions pair ∧
      pair.2.1.copied.length = request.toCopy := by
  obtain ⟨count, after, rest, ran, ahead⟩ := exists_gathered state id snapshots news
  have stays : ∀ action ∈ stepsAlone (.proc id) Env.good count, ∀ (state : State) request,
      action ≠ .call (.proc id) request := by
    rintro action member - request rfl
    cases List.eq_of_mem_replicate member
  obtain ⟨slots, watched⟩ := (Run.ofExecution ran stays).watched
    (fun (slots : StackSlot × StackSlot) state action _ =>
      (slots.1.update (.proc id) request.toCopy 0 state action,
        slots.2.update (.proc id) request.toCopy 0 state action)) (⟨prior, []⟩, ⟨prior', []⟩)
  have taken : ∃ done, exec after (.proc id) Env.good (.copyToUser request.toCopy) rest =
      some done := ⟨_, rfl⟩
  obtain ⟨done, taken⟩ := taken
  refine ⟨_, _, .step watched (fun request => by simp)
    (withHistory_of_next (next_step.mpr ⟨_, _, _, ahead, taken, rfl⟩)), ?_⟩
  simp [slot_copy ahead, Env.good]

/-- What a call copies depends on the device alone if and only if it stops short of the
gap, or the slot held there the same before. -/
theorem snapshot_bytes_iff (request : Request) (snapshots : request.snapshots = true)
    (prior prior' : Nat → Nat) :
    (∀ (state : State) id short actions pair,
      Run (nextSlots (.proc id) request.toCopy short) (OneCall (.proc id))
        (state.enter (.proc id) request, ⟨prior, []⟩, ⟨prior', []⟩) actions pair →
      pair.2.1.copied = pair.2.2.copied) ↔
    ∀ key < request.toCopy, Padding key → prior key = prior' key := by
  constructor
  · intro same key inside gap
    obtain ⟨actions, pair, run, length⟩ := exists_copied State.withNews 0
      snapshots rfl prior prior'
    exact (copied_eq_iff snapshots run).mp (same _ _ _ _ _ run) key (length ▸ inside) gap
  · intro agree state id short actions pair run
    refine (copied_eq_iff snapshots run).mpr fun key inside gap => ?_
    exact agree key (Nat.lt_of_lt_of_le inside (length_copied_le snapshots run)) gap

end Run

theorem oneCall_steps {id count : Nat} :
    ∀ action ∈ steps (.proc id) count, ∀ pair, OneCall (.proc id) pair action := by
  rintro action member pair request rfl
  cases List.eq_of_mem_replicate member

/-- A reader that asks for ten bytes gets none of the gap. -/
theorem snapshot_bytes_iff_ten : ∃ pair : State × StackSlot × StackSlot,
    Run (nextSlots (.proc 0) 10 0) (OneCall (.proc 0)) (State.withNews.enter (.proc 0)
      (.read false 10), ⟨fun _ => 0, []⟩, ⟨fun _ => 7, []⟩) (steps (.proc 0) 11) pair ∧
    pair.2.1.copied.length = 10 ∧ pair.2.1.copied = pair.2.2.copied := by
  have passed : (run (nextSlots (.proc 0) 10 0) (State.withNews.enter (.proc 0) (.read false 10),
      ⟨fun _ => 0, []⟩, ⟨fun _ => 7, []⟩) (steps (.proc 0) 11)).any
      (fun pair => pair.2.1.copied.length == 10) = true := by decide
  obtain ⟨pair, ran, length⟩ := (Option.any_eq_true _ _).mp passed
  have watched := Run.ofExecution ran oneCall_steps
  refine ⟨pair, watched, by simpa using length, ?_⟩
  refine (snapshot_bytes_iff (.read false 10) rfl (fun _ => 0) fun _ => 7).mpr ?_ _ _ _ _ _ watched
  rintro key inside (rfl | rfl) <;> exact absurd inside (by decide)

/-- What was in the gap goes out with the snapshot. -/
theorem snapshot_bytes_leak : ∃ pair : State × StackSlot × StackSlot,
    Run (nextSlots (.proc 0) sizeofEchoSnapshot 0) (OneCall (.proc 0))
      ((State.initial simServo 0).enter (.proc 0) (.ioctl .getState),
        ⟨fun _ => 0, []⟩, ⟨fun _ => 7, []⟩) (steps (.proc 0) 10) pair ∧
    (pair.1.thread (.proc 0)).result = some 0 ∧ pair.2.1.copied ≠ pair.2.2.copied := by
  have passed : (run (nextSlots (.proc 0) sizeofEchoSnapshot 0)
      ((State.initial simServo 0).enter (.proc 0) (.ioctl .getState),
        ⟨fun _ => 0, []⟩, ⟨fun _ => 7, []⟩) (steps (.proc 0) 10)).any (fun pair =>
        (pair.1.thread (.proc 0)).result == some 0 && pair.2.1.copied != pair.2.2.copied) =
      true := by decide
  obtain ⟨pair, ran, facts⟩ := (Option.any_eq_true _ _).mp passed
  simp only [Bool.and_eq_true, beq_iff_eq, bne_iff_ne] at facts
  exact ⟨pair, .ofExecution ran oneCall_steps, facts⟩

end EchoRobot
