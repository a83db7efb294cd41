import EchoRobot.Read.Reader

/-! Any number of readers. They share one flag, so a notification may reach only one of
them; the one that cleared the flag last has seen everything, whatever else it calls. -/

namespace EchoRobot

open Interleaving

/-- The process that cleared the flag last. -/
abbrev LastCleared := Option Nat

def LastCleared.record (last : LastCleared) (state : State) (action : Action) (_ : State) :
    LastCleared :=
  match action with
  | .step (.proc id) _ =>
    if state.instr? action = some (.setNewDataAvail false) then some id else last
  | _ => last

/-- The reads ask for every part of the snapshot; the bus and the copies to the user
succeed. -/
structure WholeReaders (_ : State × LastCleared) (action : Action) : Prop where
  asks : ∀ tid nonblock count, action = .call tid (.read nonblock count) → shownBytes ≤ count
  succeeds : ∀ tid env, action = .step tid env → env.i2c = (fun _ => 0) ∧ env.copied = true

/-- At rest, new data is announced or the last reader that cleared the flag has the
current snapshot. -/
def LatestIsCurrent (pair : State × LastCleared) : Prop :=
  pair.1.resting → ∀ reader, pair.2 = some reader →
    ∃ snap, (pair.1.thread (.proc reader)).delivered = some snap ∧
      (pair.1.dev.newDataAvail = true ∨ Current snap pair.1.dev)

/-- Outside `echo_read` and `ECHO_IOC_GET_STATE` nothing is cleared or copied. -/
def apartRule (instr : Instr) (rest : Code) : Bool :=
  instr.ofRead || decide (.setNewDataAvail false ∉ rest ∧ rest.any Instr.copies = false)

theorem apartRule_lawful : CodeRule apartRule where
  entry tid code entry := by
    cases entry with
    | read id nonblock count => cases nonblock <;> rfl
    | input id pin => cases pin <;> rfl
    | _ => rfl
  timer := by decide
  worker := by decide
  stop := by decide
  unroll moves rest shape := by
    have later : .setNewDataAvail false ∉ rest ∧ rest.any Instr.copies = false := by
      simpa [apartRule, Instr.ofRead, Instr.gathers] using obeys_head shape
    refine obeys_replayLoop (fun instr before own loop => ?_) (obeys_tail shape)
    have clears : .setNewDataAvail false ∉ before := fun member => by cases loop _ member
    have copies : before.any Instr.copies = false := List.any_eq_false.mpr fun other member => by
      have kept := loop other member
      cases other <;> first | (cases kept; done) | exact Bool.false_ne_true
    simp [apartRule, clears, copies, later.1, later.2]

/-- The reader is going to copy what it gathers, or has copied something. -/
def Delivers (reader : Nat) (state : State) : Prop :=
  (.setNewDataAvail false ∉ state.code (.proc reader) ∧
    (state.code (.proc reader)).any Instr.copies = true) ∨
    (state.thread (.proc reader)).delivered.isSome = true

/-- What the last reader has missed is announced, or is going to be. -/
def Announced (part : Part) (pair : State × LastCleared) : Prop :=
  pair.1.dev.newDataAvail = true ∨ (∃ tid, pair.1.notifying tid) ∨
    ∀ reader, pair.2 = some reader → Seen part reader pair.1

section Step
variable {state after : State} {tid : Tid} {env : Env} {instr : Instr} {rest : Code}
variable {done : EchoDevice × Thread} {action : Action} {part : Part} {reader : Nat}

theorem exec_delivered (other : instr.copies = false)
    (taken : exec state tid env instr rest = some done) :
    done.2.delivered = (state.thread tid).delivered := by
  cases instr <;> simp only [exec, leave, Thread.leave] at taken
  all_goals repeat' split at taken
  all_goals first
    | contradiction
    | (cases taken; rfl)

/-- Where nothing is copied, the last delivered snapshot counts. -/
theorem seen_kept {dev : EchoDevice} {thread : Thread}
    (copies : thread.code.any Instr.copies = false)
    (delivered : ∀ snap, thread.delivered = some snap → part.field snap = part.value dev) :
    Seen part reader (state.settle (.proc reader) dev thread) := by
  constructor
  · intro _ _ ahead
    rw [settle_code] at ahead
    simp [copies] at ahead
  · intro _ snap
    simpa using delivered snap

/-- A step outside the two calls copies nothing, neither now nor later. -/
theorem not_copies_step (apart : rest.any Instr.copies = false)
    (taken : exec state tid env instr rest = some done) :
    done.2.code.any Instr.copies = false := by
  generalize done.2.code = left, exec_code taken = leaves
  cases leaves with
  | next => exact apart
  | back => rfl
  | stop => rfl
  | unroll =>
    rw [List.any_append, apart, Bool.or_false]
    refine List.any_eq_false.mpr fun other member => ?_
    have loop := replayLoop_ofLoop _ _ member
    cases other <;> first | (cases loop; done) | exact Bool.false_ne_true

theorem seen_apart (seen : Seen part reader state) (foreign : instr.ofRead = false)
    (code : state.code (.proc reader) = instr :: rest) (apart : apartRule instr rest = true)
    (value : part.value done.1 = part.value state.dev)
    (taken : exec state (.proc reader) env instr rest = some done) :
    Seen part reader (state.settle (.proc reader) done.1 done.2) := by
  have later : .setNewDataAvail false ∉ rest ∧ rest.any Instr.copies = false := by
    simpa [apartRule, foreign] using apart
  have other : instr.copies = false := by
    cases instr <;> first | rfl | cases foreign
  refine seen_kept (not_copies_step later.2 taken) fun snap delivered => ?_
  rw [value]
  refine seen.delivered (Or.inr ?_) snap (exec_delivered other taken ▸ delivered)
  rw [code, List.any_cons, other, later.2]
  rfl

/-- At the beginning of a call nothing is gathered yet. -/
theorem Entry.ungathered {code : Code} (entry : Entry tid code) (part : Part) :
    .setNewDataAvail false ∈ code ∨ code.any Instr.copies = false ∨ part.read ∈ code := by
  cases entry with
  | read id nonblock count =>
    left
    cases nonblock <;> simp [echoRead]
  | getState id =>
    right; right
    cases part with
    | angle servo =>
      rcases pan_tilt_or_tilt2 servo with rfl | rfl | rfl <;> simp [buildSnapshot, Part.read]
    | _ => simp [buildSnapshot, Part.read]
  | input id pin => cases pin <;> exact Or.inr (Or.inl (by decide))
  | _ =>
    right; left
    simp [Instr.copies, echoStateSetMode, echoStateStartReplay, echoStateStop, stateOpStartReplay,
      stateOpCancelReplay, signalReplayDone, notifyReaders, echoIocReset]

theorem seen_call {request : Request} (seen : Seen part reader state)
    (may : (Tid.proc reader).mayCall request = true) (idle : state.code (.proc reader) = []) :
    Seen part reader (state.enter (.proc reader) request) := by
  have before := seen.delivered (Or.inr (by simp [idle]))
  constructor
  · rw [enter_code]
    intro cleared ungathered copies
    rcases (entry_of_mayCall may).ungathered part with clears | kept | gathers
    · exact absurd clears cleared
    · simp [kept] at copies
    · exact absurd gathers ungathered
  · rw [enter_dev state may]
    intro _ snap
    simpa [State.enter, Thread.begin] using before snap

/-- A sleeper copies nothing before it clears the flag. -/
theorem uncopied_of_asleep (shape : Obeys readRule state) (apart : Obeys apartRule state)
    (asleep : state.asleep (.proc reader) = true) :
    .setNewDataAvail false ∈ state.code (.proc reader) ∨
      (state.code (.proc reader)).any Instr.copies = false := by
  rcases asleep_cases asleep with ⟨rest, code, -⟩ | ⟨rest, code, -⟩
  · have rule := obeys_head (code ▸ apart (.proc reader))
    have later : .setNewDataAvail false ∉ rest ∧ rest.any Instr.copies = false := by
      simpa [apartRule, Instr.ofRead, Instr.gathers] using rule
    exact Or.inr (by rw [code, List.any_cons, later.2]; rfl)
  · have rule := obeys_head (code ▸ shape (.proc reader))
    have clears : .setNewDataAvail false ∈ rest := of_decide_eq_true rule
    exact Or.inl (by simp [code, clears])

/-- What the last reader does itself, whatever it calls. -/
theorem seen_acts (seen : Seen part reader state) (whole : CopiesWhole state)
    (shape : Obeys readRule state) (apart : Obeys apartRule state)
    (copied : ∀ tid env, action = .step tid env → env.copied = true)
    (acts : Acts state (.proc reader) action after)
    (value : part.value after.dev = part.value state.dev) : Seen part reader after := by
  cases acts with
  | call request may idle => exact seen_call seen may idle
  | step env instr rest done code taken =>
    cases own : instr.ofRead with
    | true =>
      exact seen_step seen whole own code (obeys_head (code ▸ shape _)) (copied _ _ rfl) taken
    | false => exact seen_apart seen own code (obeys_head (code ▸ apart _)) value taken
  | signal asleep =>
    exact seen_returned rfl (seen.delivered (uncopied_of_asleep shape apart asleep))

theorem delivers_step (delivers : Delivers reader state) (shape : Obeys readRule state)
    (apart : Obeys apartRule state) (copied : env.copied = true)
    (code : state.code (.proc reader) = instr :: rest)
    (taken : exec state (.proc reader) env instr rest = some done) :
    Delivers reader (state.settle (.proc reader) done.1 done.2) := by
  by_cases copies : instr.copies = true
  · right
    cases instr with
    | copyToUser size =>
      simp only [exec, copied, ↓reduceIte] at taken
      cases taken
      simp
    | _ => cases copies
  rw [Bool.not_eq_true] at copies
  rcases delivers with ⟨cleared, ahead⟩ | before
  swap
  · right
    rwa [settle_thread, exec_delivered copies taken]
  -- Between the clearing and the copy stands only the gathering.
  rw [code] at cleared ahead
  have later : rest.any Instr.copies = true := by simpa [copies] using ahead
  have uncleared : .setNewDataAvail false ∉ rest := fun clears =>
    cleared (List.mem_cons_of_mem instr clears)
  have gathers : instr.gathers = true := by
    have rule := obeys_head (code ▸ shape (.proc reader))
    have foreign := obeys_head (code ▸ apart (.proc reader))
    cases own : instr.ofRead with
    | false => simp [apartRule, own, later] at foreign
    | true =>
      cases instr with
      | setNewDataAvail value =>
        cases value with
        | true => cases own
        | false => exact absurd List.mem_cons_self cleared
      | testNonblock => exact absurd (of_decide_eq_true rule) uncleared
      | waitNewData => exact absurd (of_decide_eq_true rule) uncleared
      | ret value => simp [List.isEmpty_iff.mp rule] at later
      | copyToUser size => cases copies
      | _ => exact own
  left
  have onward : done.2.code = rest := by
    cases instr <;> first | (cases taken; rfl) | cases gathers
  rw [settle_code, onward]
  exact ⟨uncleared, later⟩

theorem delivers_next (delivers : Delivers reader state) (shape : Obeys readRule state)
    (apart : Obeys apartRule state)
    (copied : ∀ tid env, action = .step tid env → env.copied = true)
    (moved : next state action = some after) : Delivers reader after := by
  by_cases actor : action.actor = some (.proc reader)
  · cases acts actor moved with
    | call request may idle =>
      right
      simpa [Delivers, idle, State.enter, Thread.begin] using delivers
    | step env instr rest done code taken =>
      exact delivers_step delivers shape apart (copied _ _ rfl) code taken
    | signal asleep =>
      right
      rcases delivers with ⟨cleared, ahead⟩ | before
      · rcases uncopied_of_asleep shape apart asleep with clears | copies
        · exact absurd clears cleared
        · simp [copies] at ahead
      · simpa [Thread.leave] using before
  · simpa only [Delivers, State.code, thread_next actor moved] using delivers

/-- What a reader that clears the flag has missed it is going to gather. -/
theorem seen_clears (owned : Owned state) (shape : Obeys readRule state)
    (clears : state.instr? action = some (.setNewDataAvail false))
    (moved : next state action = some after) : ∃ id env, action = .step (.proc id) env ∧
      (∀ part, Seen part id after) ∧ Delivers id after := by
  obtain ⟨tid, env, rest, done, rfl, code, taken, rfl⟩ := next_instr clears moved
  have own := owned tid (.setNewDataAvail false) (by simp [code])
  cases tid with
  | proc id =>
    have rule := obeys_head (code ▸ shape (.proc id))
    cases taken
    refine ⟨id, env, rfl, fun part => seen_cleared rfl rule, Or.inl ?_⟩
    simp only [readRule, decide_eq_true_eq] at rule
    rw [settle_code]
    exact ⟨rule.1, rule.2.1⟩
  | _ => cases own

theorem record_other {last : LastCleared}
    (other : state.instr? action ≠ some (.setNewDataAvail false)) :
    last.record state action after = last := by
  unfold LastCleared.record
  split
  · exact if_neg other
  · rfl

/-- The last reader that cleared the flag, and what it has seen. -/
structure Latest (pair : State × LastCleared) : Prop where
  announced : ∀ part, Announced part pair
  delivers : ∀ reader, pair.2 = some reader → Delivers reader pair.1

variable {last : LastCleared}

theorem latest_next (owned : Owned state) (whole : CopiesWhole state) (shape : Obeys readRule state)
    (apart : Obeys apartRule state) (latest : Latest (state, last))
    (ok : WholeReaders (state, last) action) (moved : next state action = some after) :
    Latest (after, last.record state action after) := by
  have copied := fun tid env same => (ok.succeeds tid env same).2
  by_cases clears : state.instr? action = some (.setNewDataAvail false)
  · obtain ⟨id, env, rfl, seen, delivers⟩ := seen_clears owned shape clears moved
    have recorded : last.record state (.step (.proc id) env) after = some id := if_pos clears
    rw [recorded]
    constructor
    · refine fun part => Or.inr (Or.inr ?_)
      rintro reader ⟨⟩
      exact seen part
    · rintro reader ⟨⟩
      exact delivers
  rw [record_other clears]
  constructor
  · intro part
    rcases latest.announced part with flag | ⟨tid, notifying⟩ | seen
    · exact Or.inl (newDataAvail_next flag clears moved)
    · exact (notifying_next notifying moved).imp_right fun still => Or.inl ⟨tid, still⟩
    · rcases value_next shape part (fun tid env same => (ok.succeeds tid env same).1) moved with
        value | notifying
      · refine Or.inr (Or.inr fun reader same => ?_)
        by_cases actor : action.actor = some (.proc reader)
        · exact seen_acts (seen reader same) whole shape apart copied (acts actor moved) value
        · exact seen_other (seen reader same) actor moved value
      · exact Or.inr (Or.inl notifying)
  · intro reader same
    exact delivers_next (latest.delivers reader same) shape apart copied moved

theorem notifying_resting (resting : state.resting) : ¬ state.notifying tid := by
  intro notifying
  rcases resting tid with idle | asleep
  · simp [State.notifying, idle] at notifying
  · rcases asleep_cases asleep with ⟨rest, code, -⟩ | ⟨rest, code, -⟩ <;>
      simp [State.notifying, code, isNotify, Instr.mayReturn] at notifying

/-- At rest nothing is gathered any more. -/
theorem uncopied_of_resting (shape : Obeys readRule state) (apart : Obeys apartRule state)
    (resting : state.resting) : .setNewDataAvail false ∈ state.code (.proc reader) ∨
      (state.code (.proc reader)).any Instr.copies = false := by
  rcases resting (.proc reader) with idle | asleep
  · exact Or.inr (by simp [idle])
  · exact uncopied_of_asleep shape apart asleep

end Step

variable {servo : EchoServoCtx} {clock : Nat} {actions : List Action}
variable {pair : State × LastCleared}

theorem latest_of_run
    (run : Run (withHistory next LastCleared.record) WholeReaders (State.initial servo clock, none)
      actions pair) : CopiesWhole pair.1 ∧ Latest pair := by
  refine run.invariant (fun pair => CopiesWhole pair.1 ∧ Latest pair) ⟨?_, ?_⟩ ?_
  · simp [CopiesWhole, State.code, State.initial, Thread.initial]
  · exact ⟨fun part => Or.inr (Or.inr (by rintro _ ⟨⟩)), by rintro _ ⟨⟩⟩
  · rintro earlier ⟨before, last⟩ action after ran ⟨whole, latest⟩ ok both
    obtain ⟨state, moved, rfl⟩ := withHistory_next both
    have reached := ran.forget.any
    have owned := owned_of_run reached
    exact ⟨copiesWhole_next owned whole ok.asks moved, latest_next owned whole
      (readRule_lawful.of_run reached) (apartRule_lawful.of_run reached) latest ok moved⟩

/-- With any number of readers and writers, what the last reader to clear the flag has not
seen is announced once everyone rests. -/
theorem latest_is_current
    (run : Run (withHistory next LastCleared.record) WholeReaders (State.initial servo clock, none)
      actions pair) : LatestIsCurrent pair := by
  intro resting reader last
  obtain ⟨-, latest⟩ := latest_of_run run
  have reached := run.forget.any
  have uncopied : .setNewDataAvail false ∈ pair.1.code (.proc reader) ∨
      (pair.1.code (.proc reader)).any Instr.copies = false :=
    uncopied_of_resting (readRule_lawful.of_run reached) (apartRule_lawful.of_run reached) resting
  have received : ((pair.1.thread (.proc reader)).delivered).isSome = true := by
    rcases latest.delivers reader last with ⟨cleared, ahead⟩ | before
    · rcases uncopied with clears | copies
      · exact absurd clears cleared
      · simp [copies] at ahead
    · exact before
  obtain ⟨snap, delivered⟩ := Option.isSome_iff_exists.mp received
  refine ⟨snap, delivered, ?_⟩
  by_cases flag : pair.1.dev.newDataAvail = true
  · exact Or.inl flag
  · refine Or.inr (current_of_parts fun part => ?_)
    rcases latest.announced part with announced | ⟨tid, notifying⟩ | seen
    · exact absurd announced flag
    · exact absurd notifying (notifying_resting resting)
    · exact (seen reader last).delivered uncopied snap delivered

/-- Two blocked readers, one move: the reader that comes first sees it, the other one
sleeps on with what it had. -/
def moveBesideReaders : List Action :=
  [.call (.proc 0) (.read false sizeofEchoSnapshot),
    .call (.proc 1) (.read false sizeofEchoSnapshot),
    .call (.proc 2) (.write sizeofEchoCmd (some ⟨echoCmdMove, 1, 45, 0⟩))] ++ steps (.proc 2) 4 ++
  steps (.proc 1) 12

theorem latest_is_current_moveBesideReaders :
    ∃ pair, Run (withHistory next LastCleared.record) WholeReaders (State.initial simServo 0, none)
        moveBesideReaders pair ∧ pair.1.asleep (.proc 0) = true ∧
      ∃ snap, (pair.1.thread (.proc 1)).delivered = some snap ∧ Current snap pair.1.dev := by
  obtain ⟨pair, ran, facts⟩ := exists_run (withHistory next LastCleared.record)
    (fun pair => movesOnly [.proc 0, .proc 1, .proc 2] pair.1) (State.initial simServo 0, none)
    moveBesideReaders
    (fun pair => decide (pair.2 = some 1) && pair.1.asleep (.proc 0) &&
      [Tid.proc 1, .proc 2].all pair.1.idle && !pair.1.dev.newDataAvail) (by decide)
  simp only [Bool.and_eq_true, decide_eq_true_eq, Bool.not_eq_true', List.all_eq_true] at facts
  obtain ⟨⟨⟨last, asleep⟩, idle⟩, announced⟩ := facts
  have succeeds : ∀ action ∈ moveBesideReaders, ∀ pair, WholeReaders pair action := by
    simp only [moveBesideReaders, steps, List.forall_mem_append, List.forall_mem_cons,
      List.forall_mem_replicate]
    refine ⟨⟨⟨?_, ?_, ?_, by simp⟩, Or.inr ?_⟩, Or.inr ?_⟩
    all_goals
      intro pair
      constructor
      · rintro tid nonblock count ⟨⟩ <;> decide
      · rintro tid env ⟨⟩ <;> exact ⟨rfl, rfl⟩
  have reading := Run.ofExecution ran.execution succeeds
  have resting : pair.1.resting := by
    intro tid
    by_cases first : tid = .proc 0
    · exact Or.inr (first ▸ asleep)
    by_cases listed : tid ∈ [Tid.proc 1, .proc 2]
    · exact Or.inl (by simpa [State.idle] using idle tid listed)
    · refine Or.inl (code_of_run [.proc 0, .proc 1, .proc 2] ran.forget ?_ (by simp_all))
      rintro state action ⟨_, within⟩
      exact within
  obtain ⟨snap, delivered, current⟩ := latest_is_current reading resting 1 last
  exact ⟨pair, reading, asleep, snap, delivered, current.resolve_left (by simp [announced])⟩

end EchoRobot
