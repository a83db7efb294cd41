import EchoRobot.Model.Threads

/-! A single reader. It clears the flag and then gathers the snapshot field by
field; every update is followed by a notification, so what the reader has missed
is announced again. -/

namespace EchoRobot

open Interleaving

/-- The parts of the device that a snapshot shows; the interrupt counter has no
notification of its own. -/
inductive Part where
  | mode
  | angle (servo : Fin echoNumServos)
  | count
  | totalMoves
  | totalReplays
  deriving DecidableEq

def Part.read : Part → Instr
  | .mode => .readMode
  | .angle servo => .readAngle servo
  | .count => .readCount
  | .totalMoves => .readTotalMoves
  | .totalReplays => .readTotalReplays

def Part.value (dev : EchoDevice) : Part → Nat
  | .mode => dev.state.mode.value
  | .angle servo => dev.servo.pos servo
  | .count => dev.buffer.moveFifo.length
  | .totalMoves => dev.state.totalMoves % u32Size
  | .totalReplays => dev.buffer.replayCount % u32Size

def Part.field (snap : EchoSnapshot) : Part → Nat
  | .mode => snap.mode
  | .angle servo =>
    if servo = echoServoPan then snap.panAngle
    else if servo = echoServoTilt then snap.tiltAngle else snap.tilt2Angle
  | .count => snap.bufferCount
  | .totalMoves => snap.totalMoves
  | .totalReplays => snap.totalReplays

/-- The snapshot shows the device as it is. -/
structure Current (snap : EchoSnapshot) (dev : EchoDevice) : Prop where
  mode : snap.mode = dev.state.mode.value
  pan : snap.panAngle = dev.servo.pos echoServoPan
  tilt : snap.tiltAngle = dev.servo.pos echoServoTilt
  tilt2 : snap.tilt2Angle = dev.servo.pos echoServoTilt2
  bufferCount : snap.bufferCount = dev.buffer.moveFifo.length
  totalMoves : snap.totalMoves = dev.state.totalMoves % u32Size
  totalReplays : snap.totalReplays = dev.buffer.replayCount % u32Size

/-- The bytes of a snapshot up to the interrupt counter. -/
def shownBytes : Nat := 24

/-- A copy that reaches the interrupt counter brings every part. -/
theorem field_copied {size : Nat} (enough : shownBytes ≤ size) (held : Option EchoSnapshot)
    (snap : EchoSnapshot) (part : Part) :
    part.field (.copied held size snap) = part.field snap := by
  unfold shownBytes at enough
  have brings : ∀ offset width before new, offset + width ≤ 24 →
      overlay size offset width before new = new := by
    intro offset width before new inside
    exact if_pos (Nat.le_trans inside enough)
  cases part <;> simp [Part.field, EchoSnapshot.copied, EchoSnapshot.over, brings]

theorem current_of_parts {snap : EchoSnapshot} {dev : EchoDevice}
    (parts : ∀ part : Part, part.field snap = part.value dev) : Current snap dev :=
  ⟨parts .mode, parts (.angle echoServoPan), parts (.angle echoServoTilt),
    parts (.angle echoServoTilt2), parts .count, parts .totalMoves, parts .totalReplays⟩

/-- With nothing in flight, new data is announced or the last delivered snapshot
is current. -/
def NoUpdateLost (reader : Nat) (state : State) : Prop :=
  (∀ tid, state.code tid = []) →
    ∀ snap, (state.thread (.proc reader)).delivered = some snap →
      state.dev.newDataAvail = true ∨ Current snap state.dev

def Request.isRead : Request → Bool
  | .read .. => true
  | _ => false

/-- One process reads and does nothing else; the bus and the copies to the user
succeed. -/
structure SingleReader (reader : Nat) (action : Action) : Prop where
  calls : ∀ tid request, action = .call tid request →
    (tid = .proc reader ↔ request.isRead = true)
  succeeds : ∀ tid env, action = .step tid env → env.i2c = (fun _ => 0) ∧ env.copied = true

/-- Its reads ask for every part of the snapshot. -/
structure WholeReader (reader : Nat) (action : Action) : Prop
    extends SingleReader reader action where
  asks : ∀ tid nonblock count, action = .call tid (.read nonblock count) → shownBytes ≤ count

def isNotify : Instr → Bool
  | .setNewDataAvail true => true
  | _ => false

/-- The thread is going to set the flag. -/
def State.notifying (state : State) (tid : Tid) : Prop :=
  commits Instr.mayReturn isNotify (state.code tid) = true

/-- Steps that may change what a snapshot shows. -/
def Instr.updates : Instr → Bool
  | .lockHandleInput | .lockStartReplay | .lockInactivity | .lockSetMode _ => true
  | .lockReplayComplete | .moveServo _ | .setAngle .. | .setAngleOrReturn .. => true
  | .recordMove _ | .clearBuffer | .snapshot => true
  | .incTotalMoves | .resetTotalMoves | .incReplayCount => true
  | _ => false

def Instr.gathers : Instr → Bool
  | .readMode | .readAngle _ | .readCount | .readTotalMoves | .readTotalReplays => true
  | .readIrqCount => true
  | _ => false

/-- An update is followed by a notification, and a read clears the flag once,
gathers every part after that and copies the snapshot last. -/
def readRule : Instr → Code → Bool
  | .testNonblock, rest | .waitNewData, rest => decide (.setNewDataAvail false ∈ rest)
  | .setNewDataAvail false, rest =>
    decide (.setNewDataAvail false ∉ rest ∧ rest.any Instr.copies = true ∧ .readMode ∈ rest ∧
      .readCount ∈ rest ∧ .readTotalMoves ∈ rest ∧ .readTotalReplays ∈ rest ∧
      ∀ servo, .readAngle servo ∈ rest)
  | .copyToUser _, rest =>
    decide (.setNewDataAvail false ∉ rest ∧ rest.any Instr.copies = false) &&
      rest.all fun later => !later.gathers
  | .ret _, rest => rest.isEmpty
  | instr, rest =>
    (!instr.updates || commits Instr.mayReturn isNotify rest) &&
      (!instr.gathers || decide (.setNewDataAvail false ∉ rest ∧ rest.any Instr.copies = true))

theorem readRule_lawful : CodeRule readRule where
  entry tid code entry := by
    cases entry with
    | read id nonblock count => cases nonblock <;> rfl
    | input id pin => cases pin <;> rfl
    | _ => rfl
  timer := by decide
  worker := by decide
  stop := by decide
  unroll moves rest shape := by
    have committed : commits Instr.mayReturn isNotify rest = true := by
      simpa [readRule, Instr.updates, Instr.gathers] using obeys_head shape
    refine obeys_replayLoop (fun instr before own loop => ?_) (obeys_tail shape)
    have later := commits_loop loop committed
    cases instr with
    | setNewDataAvail value => cases value <;> first | rfl | cases own
    | _ => first | (simp [readRule, Instr.updates, Instr.gathers, later]; done) | cases own

section Step
variable {state after : State} {tid : Tid} {env : Env} {instr : Instr} {rest : Code}
variable {done : EchoDevice × Thread} {action : Action}

/-- What a snapshot shows is within these fields of the device. -/
theorem value_of_frame {before after : EchoDevice} {writes : List Field} (part : Part)
    (frame : Frame before after writes)
    (outside : .mode ∉ writes ∧ .servo ∉ writes ∧ .fifo ∉ writes ∧ .totalMoves ∉ writes ∧
      .replayCount ∉ writes) : part.value after = part.value before := by
  obtain ⟨mode, servo, fifo, totalMoves, replayCount⟩ := outside
  cases part with
  | mode => simp only [Part.value, frame.mode mode]
  | angle id => simp only [Part.value, frame.servo servo]
  | count => simp only [Part.value, frame.fifo fifo]
  | totalMoves => simp only [Part.value, frame.totalMoves totalMoves]
  | totalReplays => simp only [Part.value, frame.replayCount replayCount]

/-- A step leaves what a snapshot shows, or its thread is going to notify. -/
theorem value_step (part : Part) (i2c : env.i2c = fun _ => 0)
    (rule : readRule instr rest = true) (taken : exec state tid env instr rest = some done) :
    part.value done.1 = part.value state.dev ∨
      commits Instr.mayReturn isNotify done.2.code = true := by
  by_cases updates : instr.updates = true
  · have later : commits Instr.mayReturn isNotify rest = true := by
      cases instr <;> first
        | (simpa [readRule, Instr.updates, Instr.gathers] using rule)
        | cases updates
    cases instr with
    | lockHandleInput =>
      simp only [exec, leave] at taken
      split at taken <;> cases taken
      · exact Or.inl rfl
      · exact Or.inr later
      · exact Or.inl rfl
    | lockStartReplay =>
      simp only [exec, leave] at taken
      split at taken <;> cases taken
      · exact Or.inl rfl
      · exact Or.inr later
    | lockInactivity =>
      simp only [exec, leave] at taken
      split at taken <;> cases taken
      · exact Or.inr later
      · exact Or.inl rfl
    | snapshot =>
      left
      simp only [exec] at taken
      split at taken <;> cases taken
      · cases part with
        | count => exact length_replayRefill _
        | _ => rfl
      · rfl
    | setAngleOrReturn servoId angle =>
      simp only [exec, leave, i2c] at taken
      split at taken <;> cases taken
      · exact Or.inr later
      · rename_i failed
        left
        simp only [(echoServoSetAngle_good state.dev.servo servoId angle).resolve_left failed]
    | _ => first | (cases taken; exact Or.inr later) | cases updates
  · left
    refine value_of_frame part (exec_frame taken) ?_
    cases instr <;> first | (simp [Instr.writes]; done) | exact absurd rfl updates

/-- Gathering one part leaves the others. -/
theorem exec_gathers (part : Part) (gathers : instr.gathers = true)
    (taken : exec state tid env instr rest = some done) :
    part.field done.2.snap = if instr = part.read then part.value state.dev
      else part.field (state.thread tid).snap := by
  cases instr with
  | readAngle servo =>
    cases taken
    have known : echoServoGetAngle state.dev.servo servo = state.dev.servo.pos servo := by
      simp [echoServoGetAngle]
    cases part with
    | angle id =>
      simp only [Part.field, Part.read, Part.value, Instr.readAngle.injEq, known]
      rcases pan_tilt_or_tilt2 servo with rfl | rfl | rfl <;>
        rcases pan_tilt_or_tilt2 id with rfl | rfl | rfl <;> rfl
    | _ =>
      simp only [Part.field, Part.read, reduceCtorEq, ↓reduceIte]
      split
      · rfl
      · split <;> rfl
  | _ => first | (cases taken; cases part <;> rfl) | cases gathers

end Step

/-- No copy stops before the interrupt counter. -/
def CopiesWhole (state : State) : Prop :=
  ∀ tid size, .copyToUser size ∈ state.code tid → shownBytes ≤ size

/-- Instructions of `echo_read`. -/
def Instr.ofRead : Instr → Bool
  | .testNonblock | .waitNewData | .setNewDataAvail false | .copyToUser _ | .ret _ => true
  | instr => instr.gathers

/-- The reader reads, and nobody else clears the flag. -/
structure Roles (reader : Nat) (state : State) : Prop where
  reads : ∀ instr ∈ state.code (.proc reader), instr.ofRead = true
  clears : ∀ tid, tid ≠ .proc reader → .setNewDataAvail false ∉ state.code tid

/-- The snapshot the reader is going to deliver, or has delivered, shows the part
as it is now. Before the flag is cleared the delivered one counts; while the part
is still to be gathered nothing is asked. -/
structure Seen (part : Part) (reader : Nat) (state : State) : Prop where
  gathered : .setNewDataAvail false ∉ state.code (.proc reader) →
    part.read ∉ state.code (.proc reader) →
    (state.code (.proc reader)).any Instr.copies = true →
    part.field (state.thread (.proc reader)).snap = part.value state.dev
  delivered : .setNewDataAvail false ∈ state.code (.proc reader) ∨
      (state.code (.proc reader)).any Instr.copies = false →
    ∀ snap, (state.thread (.proc reader)).delivered = some snap →
      part.field snap = part.value state.dev

/-- What the reader has missed is announced, or is going to be. -/
def Fresh (part : Part) (reader : Nat) (state : State) : Prop :=
  state.dev.newDataAvail = true ∨ (∃ tid, state.notifying tid) ∨ Seen part reader state

section Reader
variable {state after : State} {action : Action} {reader : Nat}

theorem echoRead_ofRead (nonblock : Bool) (count : Nat) :
    ∀ instr ∈ echoRead nonblock count, instr.ofRead = true := by
  cases nonblock <;> simp [echoRead, buildSnapshot, Instr.ofRead, Instr.gathers]

theorem not_clears_of_request {request : Request} (other : request.isRead = false) :
    .setNewDataAvail false ∉ request.code := by
  cases request with
  | read nonblock count => cases other
  | write count copied =>
    simp only [Request.code, echoWrite]
    repeat' split
    all_goals simp [echoStateSetMode, echoStateStartReplay, echoStateStop, stateOpStartReplay,
      stateOpCancelReplay, signalReplayDone, notifyReaders]
  | ioctl ioc =>
    simp only [Request.code, echoIoctl]
    repeat' split
    all_goals simp [echoStateSetMode, echoStateStartReplay, echoStateStop, stateOpStartReplay,
      stateOpCancelReplay, signalReplayDone, notifyReaders, echoIocReset, buildSnapshot]
  | input pin => cases pin <;> decide

theorem copiesWhole_next (owned : Owned state) (whole : CopiesWhole state)
    (asks : ∀ tid nonblock count, action = .call tid (.read nonblock count) → shownBytes ≤ count)
    (moved : next state action = some after) : CopiesWhole after := by
  intro tid size member
  by_cases worker : tid = .worker
  · have own := owned_next owned moved _ _ member
    subst worker
    cases own
  cases moves owned worker moved with
  | still other same => exact whole tid size (by simpa [State.code, same] using member)
  | call request may code =>
    obtain ⟨snapshots, rfl⟩ := mem_copyToUser_iff.mp (code ▸ member)
    cases request with
    | read nonblock count => exact Nat.le_min.mpr ⟨asks _ _ _ rfl, by decide⟩
    | ioctl ioc =>
      show shownBytes ≤ sizeofEchoSnapshot
      decide
    | _ => cases snapshots
  | expire timer code =>
    subst timer
    have own := owned_next owned moved _ _ member
    cases own
  | back actor code => simp [code] at member
  | step env instr rest done code taken left =>
    rw [settle_code, left] at member
    exact whole tid size (by simp [code, member])

theorem roles_next (owned : Owned state) (roles : Roles reader state)
    (ok : SingleReader reader action) (moved : next state action = some after) :
    Roles reader after := by
  constructor
  · intro instr member
    have other : Tid.proc reader ≠ .worker := by simp
    cases moves owned other moved with
    | still other same => exact roles.reads instr (by simpa [State.code, same] using member)
    | call request may code =>
      have read := (ok.calls _ request rfl).mp rfl
      rw [code] at member
      cases request with
      | read nonblock count => exact echoRead_ofRead nonblock count instr member
      | _ => cases read
    | expire timer => cases timer
    | back actor code => simp [code] at member
    | step env instr' rest done code taken left =>
      rw [settle_code, left] at member
      exact roles.reads instr (by simp [code, member])
  · intro tid different member
    cases tid with
    | proc id =>
      have other : Tid.proc id ≠ .worker := by simp
      cases moves owned other moved with
      | still other same =>
        exact roles.clears _ different (by simpa [State.code, same] using member)
      | call request may code =>
        rw [code] at member
        refine not_clears_of_request ?_ member
        simpa [different] using ok.calls _ request rfl
      | expire timer => cases timer
      | back actor code => simp [code] at member
      | step env instr' rest done code taken left =>
        rw [settle_code, left] at member
        exact roles.clears _ different (by simp [code, member])
    | _ =>
      have own := owned_next owned moved _ _ member
      cases own

theorem Part.gathers_read (part : Part) : part.read.gathers = true := by
  cases part <;> rfl

variable {part : Part} {env : Env} {instr : Instr} {rest : Code} {done : EchoDevice × Thread}

/-- A call that is over leaves the last delivered snapshot. -/
theorem seen_returned {dev : EchoDevice} {thread : Thread} (code : thread.code = [])
    (delivered : ∀ snap, thread.delivered = some snap → part.field snap = part.value dev) :
    Seen part reader (state.settle (.proc reader) dev thread) := by
  constructor
  · intro _ _ copies
    simp [code] at copies
  · intro _ snap
    simpa using delivered snap

/-- Before the flag is cleared the last delivered snapshot counts. -/
theorem seen_before {dev : EchoDevice} {thread : Thread}
    (clears : .setNewDataAvail false ∈ thread.code)
    (delivered : ∀ snap, thread.delivered = some snap → part.field snap = part.value dev) :
    Seen part reader (state.settle (.proc reader) dev thread) := by
  constructor
  · intro cleared
    exact absurd (by simpa using clears) cleared
  · intro _ snap
    simpa using delivered snap

/-- The flag is cleared and every part is gathered afterwards. -/
theorem seen_cleared {dev : EchoDevice} {thread : Thread} (left : thread.code = rest)
    (rule : readRule (.setNewDataAvail false) rest = true) :
    Seen part reader (state.settle (.proc reader) dev thread) := by
  simp only [readRule, decide_eq_true_eq] at rule
  obtain ⟨cleared, copies, mode, count, moves, replays, angles⟩ := rule
  constructor
  · intro _ ungathered
    refine absurd ?_ ungathered
    rw [settle_code, left]
    cases part with
    | angle servo => exact angles servo
    | _ => assumption
  · rw [settle_code, left]
    rintro (clears | done)
    · exact absurd clears cleared
    · simp [copies] at done

/-- A part is gathered, or another one and this one stays. -/
theorem seen_gathers (seen : Seen part reader state) (gathers : instr.gathers = true)
    (code : state.code (.proc reader) = instr :: rest) (rule : readRule instr rest = true)
    (taken : exec state (.proc reader) env instr rest = some done) :
    Seen part reader (state.settle (.proc reader) done.1 done.2) := by
  have later : .setNewDataAvail false ∉ rest ∧ rest.any Instr.copies = true := by
    cases instr <;> first
      | (simpa [readRule, Instr.updates, Instr.gathers] using rule)
      | cases gathers
  have next : done.1 = state.dev ∧ done.2.code = rest ∧ instr ≠ .setNewDataAvail false := by
    cases instr <;> first | (cases taken; exact ⟨rfl, rfl, by simp⟩) | cases gathers
  obtain ⟨dev, left, other⟩ := next
  constructor
  · intro cleared ungathered copies
    rw [settle_code, left] at ungathered
    rw [settle_thread, settle_dev, exec_gathers part gathers taken, dev]
    split
    · rfl
    · rename_i different
      refine seen.gathered ?_ ?_ ?_ <;> rw [code]
      · simpa [Ne.symm other] using later.1
      · simpa [Ne.symm different] using ungathered
      · rw [List.any_cons, later.2, Bool.or_true]
  · rw [settle_code, left]
    rintro (clears | done)
    · exact absurd clears later.1
    · simp [later.2] at done

/-- The gathered snapshot is delivered. -/
theorem seen_copies {size : Nat} (seen : Seen part reader state)
    (enough : shownBytes ≤ size)
    (code : state.code (.proc reader) = .copyToUser size :: rest)
    (rule : readRule (.copyToUser size) rest = true) (copied : env.copied = true)
    (taken : exec state (.proc reader) env (.copyToUser size) rest = some done) :
    Seen part reader (state.settle (.proc reader) done.1 done.2) := by
  simp only [readRule, Bool.and_eq_true, decide_eq_true_eq, List.all_eq_true,
    Bool.not_eq_true'] at rule
  obtain ⟨⟨cleared, copied'⟩, gathered⟩ := rule
  have fresh : part.field (state.thread (.proc reader)).snap = part.value state.dev := by
    refine seen.gathered ?_ ?_ ?_ <;> rw [code]
    · simpa using cleared
    · intro ungathered
      rcases List.mem_cons.mp ungathered with same | later
      · have gathers := part.gathers_read
        rw [same] at gathers
        cases gathers
      · exact absurd part.gathers_read (by simp [gathered _ later])
    · rfl
  simp only [exec, copied, ↓reduceIte] at taken
  cases taken
  constructor
  · intro _ _ copies
    rw [settle_code] at copies
    simp [copied'] at copies
  · intro _ snap delivered
    rw [settle_thread, Option.some.injEq] at delivered
    rw [← delivered, field_copied enough, settle_dev]
    exact fresh

theorem seen_step (seen : Seen part reader state) (whole : CopiesWhole state)
    (own : instr.ofRead = true) (code : state.code (.proc reader) = instr :: rest)
    (rule : readRule instr rest = true)
    (copied : env.copied = true)
    (taken : exec state (.proc reader) env instr rest = some done) :
    Seen part reader (state.settle (.proc reader) done.1 done.2) := by
  cases instr with
  | testNonblock =>
    have clears : .setNewDataAvail false ∈ rest := of_decide_eq_true rule
    have before := seen.delivered (Or.inl (by simp [code, clears]))
    simp only [exec, leave] at taken
    split at taken <;> cases taken
    · exact seen_before clears before
    · exact seen_returned rfl before
  | waitNewData =>
    have clears : .setNewDataAvail false ∈ rest := of_decide_eq_true rule
    have before := seen.delivered (Or.inl (by simp [code, clears]))
    simp only [exec] at taken
    split at taken <;> cases taken
    exact seen_before clears before
  | setNewDataAvail value =>
    cases value with
    | true => cases own
    | false =>
      cases taken
      exact seen_cleared rfl rule
  | copyToUser size =>
    have enough := whole (.proc reader) size (by simp [code])
    exact seen_copies seen enough code rule copied taken
  | ret value =>
    obtain rfl : rest = [] := by simpa [readRule] using rule
    have before := seen.delivered (Or.inr (by simp [code, Instr.copies]))
    cases taken
    exact seen_returned rfl before
  | _ =>
    refine seen_gathers seen ?_ code rule taken
    exact own

/-- The reader's own actions other than steps. -/
theorem seen_own (roles : Roles reader state) (whole : CopiesWhole state)
    (shape : Obeys readRule state) (seen : Seen part reader state) (ok : SingleReader reader action)
    (actor : action.actor = some (.proc reader)) (moved : next state action = some after)
    (value : part.value after.dev = part.value state.dev) : Seen part reader after := by
  cases acts actor moved with
  | call request may idle =>
    have before := seen.delivered (Or.inr (by simp [idle]))
    cases request with
    | read nonblock count =>
      refine seen_before ?_ before
      cases nonblock <;> simp [Request.code, echoRead]
    | _ => exact absurd ((ok.calls _ _ rfl).mp rfl) (by simp [Request.isRead])
  | step env instr rest done code taken =>
    exact seen_step seen whole (roles.reads instr (by simp [code])) code
      (obeys_head (code ▸ shape _)) (ok.succeeds _ _ rfl).2 taken
  | signal asleep =>
    refine seen_returned rfl (seen.delivered ?_)
    rcases asleep_cases asleep with ⟨rest, code, -⟩ | ⟨rest, code, -⟩
    · exact absurd (roles.reads .waitReplayDone (by simp [code])) (by decide)
    · have rule := obeys_head (code ▸ shape (.proc reader))
      have clears : .setNewDataAvail false ∈ rest := of_decide_eq_true rule
      exact Or.inl (by simp [code, clears])

theorem seen_other (seen : Seen part reader state) (actor : action.actor ≠ some (.proc reader))
    (moved : next state action = some after)
    (value : part.value after.dev = part.value state.dev) : Seen part reader after := by
  have same := thread_next actor moved
  have code : after.code (.proc reader) = state.code (.proc reader) := by
    simp only [State.code, same]
  constructor
  · rw [code, same, value]
    exact seen.gathered
  · rw [code, same, value]
    exact seen.delivered

/-- A step keeps what a snapshot shows, or its thread is going to notify. -/
theorem value_next (shape : Obeys readRule state) (part : Part)
    (good : ∀ tid env, action = .step tid env → env.i2c = fun _ => 0)
    (moved : next state action = some after) :
    part.value after.dev = part.value state.dev ∨ ∃ tid, after.notifying tid := by
  rcases next_device moved with ⟨tid, env, instr, rest, done, rfl, code, taken, rfl⟩ | frame
  · have rule := obeys_head (code ▸ shape tid)
    rcases value_step part (good _ _ rfl) rule taken with same | later
    · exact Or.inl same
    · exact Or.inr ⟨tid, by simpa [State.notifying] using later⟩
  · exact Or.inl (value_of_frame part frame (by simp))

/-- Who was going to notify still is, or the flag is set. -/
theorem notifying_next (notifying : state.notifying tid) (moved : next state action = some after) :
    after.dev.newDataAvail = true ∨ after.notifying tid := by
  rcases (carries_mayReturn (by decide) (by decide)).next notifying moved with still | notified
  · exact Or.inr still
  · obtain ⟨env, instr, rfl, head, hit⟩ := notified
    obtain rfl : instr = .setNewDataAvail true := by
      cases instr with
      | setNewDataAvail value => cases value <;> first | rfl | cases hit
      | _ => cases hit
    obtain ⟨tid', env', rest, done, -, -, taken, rfl⟩ := next_instr head moved
    cases taken
    exact Or.inl rfl

theorem fresh_next (roles : Roles reader state) (whole : CopiesWhole state)
    (shape : Obeys readRule state) (fresh : Fresh part reader state)
    (ok : SingleReader reader action) (moved : next state action = some after) :
    Fresh part reader after := by
  rcases fresh with flag | ⟨tid, notifying⟩ | seen
  · by_cases clears : state.instr? action = some (.setNewDataAvail false)
    · obtain ⟨tid, env, rest, done, rfl, code, taken, rfl⟩ := next_instr clears moved
      have own : tid = .proc reader := by
        by_contra other
        exact roles.clears tid other (by simp [code])
      subst own
      cases taken
      exact Or.inr (Or.inr (seen_cleared rfl (obeys_head (code ▸ shape _))))
    · exact Or.inl (newDataAvail_next flag clears moved)
  · exact (notifying_next notifying moved).imp_right fun still => Or.inl ⟨tid, still⟩
  · right
    have kept := value_next shape part (fun tid env same => (ok.succeeds tid env same).1) moved
    rcases kept with value | notifying
    · right
      by_cases actor : action.actor = some (.proc reader)
      · exact seen_own roles whole shape seen ok actor moved value
      · exact seen_other seen actor moved value
    · exact Or.inl notifying

end Reader

variable {servo : EchoServoCtx} {clock reader : Nat} {actions : List Action} {state : State}

/-- In every run with a single reader whose reads reach the interrupt counter, what its
last snapshot does not show is announced once nothing is in flight. -/
theorem no_update_lost
    (run : Run next (fun _ action => WholeReader reader action) (State.initial servo clock)
      actions state) : NoUpdateLost reader state := by
  have kept : Roles reader state ∧ CopiesWhole state ∧ ∀ part, Fresh part reader state := by
    refine run.invariant (fun state => Roles reader state ∧ CopiesWhole state ∧
      ∀ part, Fresh part reader state) ?_ ?_
    · refine ⟨⟨?_, ?_⟩, ?_, fun part => Or.inr (Or.inr ⟨?_, ?_⟩)⟩ <;>
        simp [State.code, State.initial, Thread.initial, CopiesWhole]
    · rintro earlier before action after ran ⟨roles, whole, fresh⟩ ok moved
      have owned := owned_of_run ran.any
      have shape := readRule_lawful.of_run ran.any
      exact ⟨roles_next owned roles ok.toSingleReader moved,
        copiesWhole_next owned whole ok.asks moved,
        fun part => fresh_next roles whole shape (fresh part) ok.toSingleReader moved⟩
  obtain ⟨-, -, fresh⟩ := kept
  intro quiet snap delivered
  by_cases flag : state.dev.newDataAvail = true
  · exact Or.inl flag
  · refine Or.inr (current_of_parts fun part => ?_)
    rcases fresh part with announced | ⟨tid, notifying⟩ | seen
    · exact absurd announced flag
    · simp [State.notifying, quiet tid] at notifying
    · exact seen.delivered (Or.inr (by simp [quiet])) snap delivered

/-- A read is overtaken by a move while it gathers; the next one sees it. -/
def moveDuringRead : List Action :=
  [.call (.irq 0) (.input .up)] ++ steps (.irq 0) 10 ++
  [.call (.proc 0) (.read false sizeofEchoSnapshot)] ++ steps (.proc 0) 6 ++
  [.call (.proc 1) (.write sizeofEchoCmd (some ⟨echoCmdMove, 1, 45, 0⟩))] ++ steps (.proc 1) 4 ++
  steps (.proc 0) 6 ++ [.call (.proc 0) (.read true sizeofEchoSnapshot)] ++ steps (.proc 0) 13

theorem wholeReader_steps (tid : Tid) (count : Nat) :
    ∀ action ∈ steps tid count, WholeReader reader action := by
  intro action member
  obtain rfl := List.eq_of_mem_replicate member
  refine ⟨⟨fun _ _ other => (by cases other), ?_⟩, fun _ _ _ other => (by cases other)⟩
  rintro _ _ ⟨⟩
  exact ⟨rfl, rfl⟩

theorem singleReader_call {tid : Tid} {request : Request}
    (reads : tid = .proc reader ↔ request.isRead = true) :
    SingleReader reader (.call tid request) := by
  refine ⟨?_, fun _ _ other => (by cases other)⟩
  rintro _ _ ⟨⟩
  exact reads

theorem wholeReader_call {tid : Tid} {request : Request}
    (reads : tid = .proc reader ↔ request.isRead = true)
    (asks : ∀ nonblock count, request = .read nonblock count → shownBytes ≤ count) :
    ∀ action ∈ [Action.call tid request], WholeReader reader action := by
  intro action member
  obtain rfl := List.mem_singleton.mp member
  refine ⟨singleReader_call reads, ?_⟩
  rintro _ nonblock count ⟨⟩
  exact asks nonblock count rfl

theorem no_update_lost_moveDuringRead :
    ∃ state, run next (State.initial simServo 0) moveDuringRead = some state ∧
      ∃ snap, (state.thread (.proc 0)).delivered = some snap ∧ snap.tiltAngle = 45 ∧
        Current snap state.dev := by
  obtain ⟨state, ran, facts⟩ := exists_run next (movesOnly [.irq 0, .proc 0, .proc 1])
    (State.initial simServo 0) moveDuringRead
    (fun state => [Tid.irq 0, .proc 0, .proc 1].all state.idle && !state.dev.newDataAvail &&
      (state.thread (.proc 0)).delivered.any fun snap => snap.tiltAngle == 45) (by decide)
  simp only [Bool.and_eq_true, Bool.not_eq_true', Option.any_eq_true, beq_iff_eq] at facts
  obtain ⟨⟨idle, announced⟩, snap, delivered, tilt⟩ := facts
  have quiet := returned_of_run _ ran (fun _ _ listed => listed) idle
  have whole : ∀ action ∈ moveDuringRead, WholeReader 0 action := by
    simp only [moveDuringRead, List.forall_mem_append]
    refine ⟨⟨⟨⟨⟨⟨⟨⟨?_, ?_⟩, ?_⟩, ?_⟩, ?_⟩, ?_⟩, ?_⟩, ?_⟩, ?_⟩
    all_goals first
      | exact wholeReader_steps _ _
      | exact wholeReader_call (by decide) (by rintro _ _ ⟨⟩; decide)
      | exact wholeReader_call (by decide) (by rintro _ _ ⟨⟩)
  have reading := Run.ofExecution ran.execution fun action member _ => whole action member
  have current := (no_update_lost reading quiet snap delivered).resolve_left (by simp [announced])
  exact ⟨state, ran.execution, snap, delivered, tilt, current⟩

/-- A read that asks for ten bytes takes the notification of a move and leaves the counts
as they were. -/
def shortRead : List Action :=
  [.call (.irq 0) (.input .up)] ++ steps (.irq 0) 10 ++
  [.call (.proc 0) (.read false sizeofEchoSnapshot)] ++ steps (.proc 0) 12 ++
  [.call (.irq 0) (.input .up)] ++ steps (.irq 0) 10 ++
  [.call (.proc 0) (.read false 10)] ++ steps (.proc 0) 12

theorem shortRead_loses_counts :
    ∃ state, Run next (fun _ action => SingleReader 0 action) (State.initial simServo 0)
      shortRead state ∧ ¬ NoUpdateLost 0 state := by
  obtain ⟨state, ran, facts⟩ := exists_run next (movesOnly [.irq 0, .proc 0])
    (State.initial simServo 0) shortRead
    (fun state => [Tid.irq 0, .proc 0].all state.idle && !state.dev.newDataAvail &&
      (state.thread (.proc 0)).delivered.any fun snap =>
        snap.bufferCount != state.dev.buffer.moveFifo.length) (by decide)
  simp only [Bool.and_eq_true, Bool.not_eq_true', Option.any_eq_true, bne_iff_ne] at facts
  obtain ⟨⟨idle, announced⟩, snap, delivered, stale⟩ := facts
  have single : ∀ action ∈ shortRead, SingleReader 0 action := by
    simp only [shortRead, List.forall_mem_append, List.forall_mem_singleton]
    refine ⟨⟨⟨⟨⟨⟨⟨?_, ?_⟩, ?_⟩, ?_⟩, ?_⟩, ?_⟩, ?_⟩, ?_⟩
    all_goals first
      | exact fun action member => (wholeReader_steps _ _ action member).toSingleReader
      | exact singleReader_call (by decide)
  refine ⟨state, Run.ofExecution ran.execution fun action member _ => single action member,
    fun kept => ?_⟩
  have quiet := returned_of_run _ ran (fun _ _ listed => listed) idle
  rcases kept quiet snap delivered with news | current
  · simp [announced] at news
  · exact stale current.bufferCount

end EchoRobot
