import EchoRobot.Input.Sequential

/-! The debounce of the joystick. The braces of the test are missing, so the handler
returns after it in any case: in the branch that should go on, with the lock held. -/

namespace EchoRobot

/-- The joystick with a `jiffies` counter of `width` bits; `directions` lists the
calls of `on_direction`. -/
structure EchoJoystickCtx (width : Nat) where
  lastIrqJiffies : EchoGpio → BitVec width
  irqLocked : Bool
  irqCount : Nat
  directions : List (Nat × Int)

def EchoJoystickCtx.initial (width : Nat) : EchoJoystickCtx width :=
  ⟨fun _ => 0, false, 0, []⟩

/-- An edge on a pin, with the value of `jiffies` that its handler reads. -/
structure Edge (width : Nat) where
  pin : EchoGpio
  jiffies : BitVec width

/-- `debounce` is `msecs_to_jiffies(ECHO_DEBOUNCE_MS)`. Without a result the handler
spins on the lock for ever. Only the unlock depends on the test, and no statement
after the `return` is reached. -/
def joystickThreadFn {width : Nat} (debounce : BitVec width) (ctx : EchoJoystickCtx width)
    (edge : Edge width) : Option (EchoJoystickCtx width) :=
  if ctx.irqLocked then none else
  let locked := { ctx with irqLocked := true }
  if edge.jiffies - ctx.lastIrqJiffies edge.pin < debounce then
    some { locked with irqLocked := false }
  else some locked

/-- Enough time has passed since the last edge that was accepted on the pin. -/
def Edge.accepted {width : Nat} (edge : Edge width) (debounce : BitVec width)
    (ctx : EchoJoystickCtx width) : Bool :=
  decide (debounce ≤ edge.jiffies - ctx.lastIrqJiffies edge.pin)

/-- What a debounce does, as opposed to the code: an accepted edge is stamped, counted
and reported, any other is ignored, and the lock is free again. -/
def debounced {width : Nat} (debounce : BitVec width) (ctx : EchoJoystickCtx width)
    (edge : Edge width) : EchoJoystickCtx width :=
  if edge.accepted debounce ctx then
    { lastIrqJiffies := fun pin =>
        if pin = edge.pin then edge.jiffies else ctx.lastIrqJiffies pin
      irqLocked := false
      irqCount := ctx.irqCount + 1
      directions := ctx.directions ++ [(edge.pin.servo.val, edge.pin.delta)] }
  else { ctx with irqLocked := false }

/-- Every handler of the sequence returns and has done what a debounce does. -/
def DebounceExact {width : Nat} (debounce : BitVec width) :
    EchoJoystickCtx width → List (Edge width) → Prop
  | _, [] => True
  | ctx, edge :: rest =>
    joystickThreadFn debounce ctx edge = some (debounced debounce ctx edge) ∧
      DebounceExact debounce (debounced debounce ctx edge) rest

/-- The handlers in order, as far as they return. -/
def joystickThreads {width : Nat} (debounce : BitVec width) :
    EchoJoystickCtx width → List (Edge width) → Option (EchoJoystickCtx width)
  | ctx, [] => some ctx
  | ctx, edge :: rest => (joystickThreadFn debounce ctx edge).bind (joystickThreads debounce · rest)

section Handler
variable {width : Nat} {debounce : BitVec width} {ctx after : EchoJoystickCtx width}
variable {edge : Edge width}

/-- The handler does what it should for the edges that it rejects. -/
theorem joystickThreadFn_exact_iff (unlocked : ctx.irqLocked = false) :
    joystickThreadFn debounce ctx edge = some (debounced debounce ctx edge) ↔
      edge.accepted debounce ctx = false := by
  have test : edge.jiffies - ctx.lastIrqJiffies edge.pin < debounce ↔
      edge.accepted debounce ctx = false := by simp [Edge.accepted]
  unfold joystickThreadFn debounced
  rw [unlocked]
  cases accepts : edge.accepted debounce ctx with
  | true =>
    have late : ¬ edge.jiffies - ctx.lastIrqJiffies edge.pin < debounce := by
      rw [test, accepts]
      decide
    refine iff_of_false (fun same => ?_) (by decide)
    simp [late] at same
  | false =>
    have early := test.mpr accepts
    simp [early]

theorem debounced_rejected (unlocked : ctx.irqLocked = false)
    (rejected : edge.accepted debounce ctx = false) : debounced debounce ctx edge = ctx := by
  rw [debounced, if_neg (by simp [rejected]), ← unlocked]

/-- No handler stamps, counts or reports anything. -/
theorem joystickThreadFn_silent (returned : joystickThreadFn debounce ctx edge = some after) :
    after = { ctx with irqLocked := after.irqLocked } := by
  unfold joystickThreadFn at returned
  split at returned
  · cases returned
  · split at returned <;> cases returned <;> rfl

end Handler

section Sequence
variable {width : Nat} {debounce : BitVec width}

theorem joystickThreads_append (ctx : EchoJoystickCtx width) (first second : List (Edge width)) :
    joystickThreads debounce ctx (first ++ second) =
      (joystickThreads debounce ctx first).bind (joystickThreads debounce · second) := by
  induction first generalizing ctx with
  | nil => rfl
  | cons edge rest ih => simp only [List.cons_append, joystickThreads, Option.bind_assoc, ih]

/-- In no sequence of edges does the joystick report a direction. -/
theorem joystick_silent {ctx after : EchoJoystickCtx width} {edges : List (Edge width)}
    (returned : joystickThreads debounce ctx edges = some after) :
    after.directions = ctx.directions ∧ after.irqCount = ctx.irqCount := by
  induction edges generalizing ctx with
  | nil =>
    obtain rfl : ctx = after := by simpa [joystickThreads] using returned
    exact ⟨rfl, rfl⟩
  | cons edge rest ih =>
    obtain ⟨middle, first, rest⟩ := Option.bind_eq_some_iff.mp returned
    obtain ⟨directions, count⟩ := ih rest
    have silent := joystickThreadFn_silent first
    rw [directions, count, silent]
    exact ⟨rfl, rfl⟩

/-- From a free lock the handlers are exact as long as no edge is accepted. -/
theorem debounceExact_iff {ctx : EchoJoystickCtx width} (edges : List (Edge width))
    (unlocked : ctx.irqLocked = false) :
    DebounceExact debounce ctx edges ↔ ∀ edge ∈ edges, edge.accepted debounce ctx = false := by
  induction edges with
  | nil => simp [DebounceExact]
  | cons edge rest ih =>
    rw [DebounceExact, joystickThreadFn_exact_iff unlocked, List.forall_mem_cons]
    refine and_congr_right fun rejected => ?_
    rw [debounced_rejected unlocked rejected, ih]

/-- The joystick debounces a sequence of edges correctly exactly if each of them comes
within the debounce time of a counter of zero. -/
theorem debounce_exact_iff (debounce : BitVec width) (edges : List (Edge width)) :
    DebounceExact debounce (EchoJoystickCtx.initial width) edges ↔
      ∀ edge ∈ edges, edge.jiffies < debounce := by
  rw [debounceExact_iff edges rfl]
  simp [Edge.accepted, EchoJoystickCtx.initial]

end Sequence

/-- One edge long after the start, and another on the same pin. -/
def twoEdges : List (Edge 32) := [⟨.up, 1000⟩, ⟨.up, 2000⟩]

/-- The first handler returns with the lock held and nothing reported, and the second
one never returns. -/
theorem twoEdges_stuck :
    ¬ DebounceExact 50 (EchoJoystickCtx.initial 32) twoEdges ∧
      (joystickThreadFn 50 (EchoJoystickCtx.initial 32) ⟨.up, 1000⟩).map
          (fun ctx => (ctx.irqLocked, ctx.irqCount, ctx.directions)) = some (true, 0, []) ∧
      (joystickThreads 50 (EchoJoystickCtx.initial 32) twoEdges).isNone = true := by
  refine ⟨fun exact => ?_, by decide, by decide⟩
  have rejected : Edge.accepted ⟨.up, 1000⟩ 50 (EchoJoystickCtx.initial 32) = false :=
    (joystickThreadFn_exact_iff rfl).mp exact.1
  exact absurd rejected (by decide)

end EchoRobot
